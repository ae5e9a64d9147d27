import DemandPaging.Action
import DemandPaging.Sectors

namespace DemandPaging

structure Medium where
  size : Nat
  row : Sectors := {}

namespace Medium

def blank (size : Nat) : Except Panic Medium :=
  if wordLimit ≤ size * sectorSize then .error .overflow
  else if bufferLimit ≤ size * sectorSize then .error .capacity
  else .ok ⟨size, {}⟩

def ofBytes (data : Bytes) : Medium :=
  ⟨(data.length + sectorSize - 1) / sectorSize, .ofBytes data⟩

def sectorAt (medium : Medium) (sector : Nat) : Sector := medium.row.get sector

def read? (medium : Medium) (sector : Nat) : Option Sector :=
  if sector < medium.size then some (medium.sectorAt sector) else none

def write? (medium : Medium) (sector : Nat) (data : Sector) : Option Medium :=
  if sector < medium.size then some { medium with row := medium.row.put sector data }
  else none

def read (sector length : Nat) : Action DeviceError Medium Sector := do
  match (← Action.look).read? sector with
  | none => Action.fail .sectorOutOfBounds
  | some data =>
    Action.insist (length = sectorSize) .lengthMismatch
    return data

def write (sector : Nat) (data : Bytes) : Action DeviceError Medium Unit := do
  match (← Action.look).write? sector (Block.ofBytes 512 data) with
  | none => Action.fail .sectorOutOfBounds
  | some after =>
    Action.insist (data.length = sectorSize) .lengthMismatch
    Action.update fun _ => after

end Medium

end DemandPaging
