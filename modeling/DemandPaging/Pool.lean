import DemandPaging.Address
import DemandPaging.Bytes
import DemandPaging.Occupant

namespace DemandPaging

structure Frame where
  contents : Page := Block.zero 4096
  occupant : Option Occupant := none
  deriving DecidableEq

structure Pool where
  frames : Array Frame
  /-- The next frame to be considered for eviction. -/
  hand : Nat := 0
  resident : Nat := 0
  deriving DecidableEq

namespace Pool

def ofSize (size : Nat) : Pool := { frames := Array.replicate size {} }

def footprint : Nat := 4112

def make (size : Nat) : Except Panic Pool :=
  if size * footprint < bufferLimit then .ok (ofSize size) else .error .capacity

def size (pool : Pool) : Nat := pool.frames.size

def occupant? (pool : Pool) (frame : Nat) : Option Occupant := do (← pool.frames[frame]?).occupant

def isPinned (pool : Pool) (frame : Nat) : Bool := (pool.occupant? frame).any (·.pinned)

def isDirty (pool : Pool) (frame : Nat) : Bool := (pool.occupant? frame).any (·.touch.dirty)

def contents (pool : Pool) (frame : Nat) : Except Panic Page :=
  match pool.frames[frame]? with
  | some found => .ok found.contents
  | none => .error .outOfBounds

def edit (pool : Pool) (frame : Nat) (f : Page → Page) : Pool :=
  { pool with
    frames := pool.frames.modify frame fun old => { old with contents := f old.contents } }

def rewrite (pool : Pool) (frame : Nat) (f : Page → Except Panic Page) : Except Panic Pool := do
  let page ← f (← pool.contents frame)
  return pool.edit frame fun _ => page

def setOccupant (pool : Pool) (frame : Nat) (occupant : Option Occupant) : Pool :=
  { pool with frames := pool.frames.modify frame fun old => { old with occupant := occupant } }

def lowestFree? (pool : Pool) : Option Nat :=
  if pool.resident = pool.size then none
  else pool.frames.findIdx? (·.occupant.isNone)

def lend (pool : Pool) (frame owner page : Nat) (clear : Bool) : Pool :=
  let taken := { pool.setOccupant frame (some { owner, page }) with resident := pool.resident + 1 }
  if clear then taken.edit frame fun _ => Block.zero 4096 else taken

def occupy (pool : Pool) (frame owner page : Nat) (clear : Bool) : Except Panic Pool := do
  if pool.size ≤ frame then throw .outOfBounds
  let _ ← addWord pool.resident 1
  return pool.lend frame owner page clear

def vacate (pool : Pool) (frame : Nat) : Except Panic Pool :=
  match pool.frames[frame]? with
  | none => .error .outOfBounds
  | some found =>
    if found.occupant.isSome then do
      let resident ← subWord pool.resident 1
      return { pool.setOccupant frame none with resident := resident }
    else .error (.doubleRelease frame)

def amend (pool : Pool) (frame : Nat) (f : Occupant → Except Panic Occupant) :
    Except Panic Pool :=
  match pool.occupant? frame with
  | some occupant => do return pool.setOccupant frame (some (← f occupant))
  | none => .error (.vacantFrame frame)

def pin (pool : Pool) (frame : Nat) : Except Panic Pool :=
  pool.amend frame fun occupant =>
    if occupant.pins < 65535 then .ok { occupant with pins := occupant.pins + 1 }
    else .error (.pinOverflow frame)

def unpin (pool : Pool) (frame : Nat) : Except Panic Pool :=
  pool.amend frame fun occupant => .ok { occupant with pins := occupant.pins - 1 }

def touch (pool : Pool) (frame : Nat) (write : Bool) : Except Panic Pool :=
  pool.amend frame fun occupant =>
    let touch := occupant.touch.putAccessed true
    .ok { occupant with touch := if write then touch.putDirty true else touch }

def finish (pool : Pool) (frame : Nat) (write : Option Bool) : Except Panic Pool := do
  let touched ← match write with
    | some write => pool.touch frame write
    | none => pure pool
  touched.unpin frame

theorem size_ofSize (size : Nat) : (ofSize size).size = size := by
  simp [ofSize, Pool.size]

theorem size_setOccupant (pool : Pool) (frame : Nat) (occupant : Option Occupant) :
    (pool.setOccupant frame occupant).size = pool.size := by
  simp [setOccupant, Pool.size]

theorem occupant?_setOccupant (pool : Pool) {frame : Nat} (occupant : Option Occupant)
    (other : Nat) (inside : frame < pool.size) :
    (pool.setOccupant frame occupant).occupant? other =
      if other = frame then occupant else pool.occupant? other := by
  simp only [occupant?, setOccupant, Array.getElem?_modify, Option.bind_eq_bind,
    eq_comm (a := other)]
  split
  · rename_i same
    subst same
    simp [show frame < pool.frames.size from inside]
  · rfl

theorem occupant?_edit (pool : Pool) (frame : Nat) (f : Page → Page) (other : Nat) :
    (pool.edit frame f).occupant? other = pool.occupant? other := by
  simp only [occupant?, edit, Array.getElem?_modify, Option.bind_eq_bind]
  cases pool.frames[other]? <;> by_cases same : frame = other <;> simp [same]

end Pool

end DemandPaging
