namespace DemandPaging

structure Faults where
  /-- Whether attempt `n` fails, counted from zero. -/
  fails : Nat → Bool := fun _ => false
  attempts : Nat := 0

namespace Faults

/-- The first `n` attempts are let through and all others fail; without a number, none fails. -/
def after : Option Nat → Faults
  | none => {}
  | some n => { fails := fun attempt => n ≤ attempt }

def failsNext (faults : Faults) : Bool := faults.fails faults.attempts

def next (faults : Faults) : Faults := { faults with attempts := faults.attempts + 1 }

end Faults

end DemandPaging
