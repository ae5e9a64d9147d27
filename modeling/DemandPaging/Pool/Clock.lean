import DemandPaging.Action
import DemandPaging.Pool

/-!
# The clock

Frames are claimed for pages. When all are in use, the clock chooses one to be reclaimed: its hand
goes round the pool, passes over pinned frames, gives a frame that was accessed since the last
visit a second chance, and stops at the first other one. Two rounds suffice unless every frame is
pinned. How pages were accessed, and how one leaves its frame, is for a `Reclaimer` to say.
-/

namespace DemandPaging

structure Paged (σ : Type) where
  pool : Pool
  store : σ

structure Reclaimer (σ : Type) where
  takeAccessed : (owner page : Nat) → Action PagingError σ Bool
  /-- Moves a page out of its frame, which must be free then. -/
  evict : Victim → Action PagingError (Paged σ) Unit

namespace Paged

variable {ε σ α : Type}

def pool? : Action ε (Paged σ) Pool := do return (← Action.look).pool

def updatePool (f : Pool → Pool) : Action ε (Paged σ) Unit :=
  Action.update fun paged => { paged with pool := f paged.pool }

def changePool (f : Pool → Except Panic Pool) : Action ε (Paged σ) Unit :=
  Action.change fun paged => do return { paged with pool := ← f paged.pool }

def onStore (action : Action ε σ α) : Action ε (Paged σ) α :=
  action.within (fun paged => .ok paged.store) fun paged store => { paged with store := store }

def release (frame : Nat) : Action ε (Paged σ) Unit := do
  changePool (·.vacate frame)
  Action.emit (.frameFreed frame)

/-- Moves the hand past one frame. The frame is the victim if its page is neither pinned nor
accessed since the last visit. -/
def advance (reclaimer : Reclaimer σ) : Action PagingError (Paged σ) (Option Victim) := do
  let pool ← pool?
  let frame := pool.hand
  updatePool fun pool => { pool with hand := (frame + 1) % pool.size }
  Action.insist (frame < pool.size) .outOfBounds
  match pool.occupant? frame with
  | none => return none
  | some occupant =>
    if occupant.pinned then return none
    let forgotten := { occupant with touch := occupant.touch.putAccessed false }
    updatePool (·.setOccupant frame (some forgotten))
    let accessed ← onStore (reclaimer.takeAccessed occupant.owner occupant.page)
    if occupant.touch.accessed || accessed then return none
    return some ⟨frame, occupant.owner, occupant.page⟩

def sweep (reclaimer : Reclaimer σ) : Nat → Action PagingError (Paged σ) Victim
  | 0 => do Action.panic (.everyFramePinned (← pool?).size)
  | steps + 1 => do
    match ← advance reclaimer with
    | some victim => return victim
    | none => sweep reclaimer steps

def selectVictim (reclaimer : Reclaimer σ) : Action PagingError (Paged σ) Victim := do
  sweep reclaimer (2 * (← pool?).size)

def reclaim (reclaimer : Reclaimer σ) : Action PagingError (Paged σ) Nat := do
  let victim ← selectVictim reclaimer
  Action.emit (.evicting victim)
  reclaimer.evict victim
  Action.insist ((← pool?).occupant? victim.frame).isNone (.stillOccupied victim.frame)
  return victim.frame

def claim (reclaimer : Reclaimer σ) (owner page : Nat) (clear : Bool) :
    Action PagingError (Paged σ) Nat := do
  let frame ← match (← pool?).lowestFree? with
    | some frame => pure frame
    | none => reclaim reclaimer
  changePool (·.occupy frame owner page clear)
  Action.emit (.frameClaimed frame page owner)
  return frame

end Paged

end DemandPaging
