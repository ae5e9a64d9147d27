import DemandPaging.Machine.Mapping

namespace DemandPaging.Machine

variable {ε : Type}

def idLimit : Nat := 65536

/-- The first number, counted round from `candidate` on, that is neither zero nor in use. The search is
given up at a number it cannot take when all but zero are in use. It looks at no more than `turns`
numbers. -/
def takeId? (spaces : Std.ExtTreeMap Nat Space) (candidate : BitVec 16) :
    (turns : Nat) → Option (Except Panic (BitVec 16))
  | 0 => none
  | turns + 1 =>
    if candidate ≠ 0 ∧ ¬ spaces.contains candidate.toNat then some (.ok candidate)
    else if spaces.size < idLimit - 1 then takeId? spaces (candidate + 1) turns
    else some (.error .outOfSpaceIds)

def createSpace (directory : Directory) : Action ε Machine Nat := do
  let store := (← look).store
  match takeId? store.spaces store.nextId idLimit with
  | none => Action.panic .outOfSpaceIds
  | some taken =>
    let number ← Action.orPanic taken
    let id := number.toNat
    Action.insist (¬ store.spaces.contains id) .spaceIdReused
    onStore (Action.update fun store =>
      { store with spaces := store.spaces.insert id { directory }, nextId := number + 1 })
    Action.emit (.spaceCreated id)
    return id

def discardAll (id : Nat) : List Nat → Action ε Machine Unit
  | [] => return
  | page :: rest => do
    match ← (removePage id page).attempt with
    | .ok () => pure ()
    | .error cause => Action.emit (.writeBackLost page cause)
    discardAll id rest

def emptySpace (id : Nat) : Action ε Machine Unit := do
  let catalog := (← space id).catalog
  discardAll id catalog.pages
  Action.emit (.spaceDestroyed id catalog.size)

def destroySpace (id : Nat) : Action ε Machine Unit := do
  emptySpace id
  onStore (Action.update fun store => { store with spaces := store.spaces.erase id })

end DemandPaging.Machine
