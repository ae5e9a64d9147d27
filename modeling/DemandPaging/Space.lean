import DemandPaging.Catalog
import DemandPaging.Directory

namespace DemandPaging

structure Region where
  start : Nat
  length : Nat
  deriving DecidableEq, Repr

structure Space where
  directory : Directory := {}
  catalog : Catalog := {}
  regions : Std.ExtTreeMap Nat Region := ∅
  nextRegion : Nat := 0

namespace Space

variable {ε : Type}

def enterRegion (region : Region) : Action ε Space Nat := do
  let number := (← Action.look).nextRegion
  Action.insist (number + 1 < halfWordLimit) .countOverflow
  Action.update fun space =>
    { space with regions := space.regions.insert number region, nextRegion := number + 1 }
  return number

def removeRegion (space : Space) (number : Nat) : Space :=
  { space with regions := space.regions.erase number }

def describe (id : Nat) : String := s!"AddressSpace \x7b asid: {id}, .. \x7d"

end Space

end DemandPaging
