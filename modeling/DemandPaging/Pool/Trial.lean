import DemandPaging.Pool.Clock

namespace DemandPaging

structure Trial where
  accessed : List (Nat × Nat) := []
  evicted : List Victim := []
  failing : Bool := false
  keeping : Bool := false
  deriving DecidableEq, Repr

namespace Trial

def access (trial : Trial) (owner page : Nat) : Bool × Trial :=
  if (owner, page) ∈ trial.accessed then (false, trial)
  else (true, { trial with accessed := trial.accessed ++ [(owner, page)] })

def takeAccessed (owner page : Nat) : Action PagingError Trial Bool := do
  let accessed := decide ((owner, page) ∈ (← Action.look).accessed)
  Action.update fun trial => { trial with accessed := trial.accessed.erase (owner, page) }
  return accessed

def evict (victim : Victim) : Action PagingError (Paged Trial) Unit := do
  let trial := (← Action.look).store
  Action.require (¬ trial.failing) .outOfSwap
  if ¬ trial.keeping then Paged.release victim.frame
  Action.update fun paged =>
    { paged with store := { paged.store with evicted := paged.store.evicted ++ [victim] } }

def reclaimer : Reclaimer Trial := ⟨takeAccessed, evict⟩

end Trial

end DemandPaging
