import DemandPaging.Device.Medium
import DemandPaging.Faults
import DemandPaging.Transfer

namespace DemandPaging

structure Device where
  name : String
  kind : DeviceKind
  size : Nat
  medium : Medium
  /-- Sectors are numbered in half a word. -/
  narrow : size < halfWordLimit := by decide
  readFaults : Faults := {}
  writeFaults : Faults := {}
  reads : Nat := 0
  writes : Nat := 0

namespace Device

def registration (device : Device) : Event :=
  .deviceRegistered device.name device.kind device.size

def describe (device : Device) : String :=
  s!"\"{device.name}\" ({device.kind.label}): {Text.padded 4 device.size} sectors, " ++
    s!"{Text.padded 4 device.reads} read, {Text.padded 4 device.writes} write"

def failAfter (device : Device) (reads writes : Option Nat) : Device :=
  { device with readFaults := .after reads, writeFaults := .after writes }

def counted (count : Nat) : Except Panic Nat :=
  if count + 1 < halfWordLimit then .ok (count + 1) else .error .countOverflow

def readSector (sector : Nat) : Action DeviceError Device Sector := do
  let device ← Action.look
  Action.require (sector < device.size) .sectorOutOfBounds
  Action.update fun device => { device with readFaults := device.readFaults.next }
  Action.require (¬ device.readFaults.failsNext) .readError
  match device.medium.read? sector with
  | none => Action.fail .sectorOutOfBounds
  | some data =>
    let reads ← Action.orPanic (counted device.reads)
    Action.update fun device => { device with reads := reads }
    return data

def writeSector (sector : Nat) (data : Sector) : Action DeviceError Device Unit := do
  let device ← Action.look
  Action.require (sector < device.size) .sectorOutOfBounds
  Action.require (device.kind ≠ .foreign) .foreignWrite
  Action.update fun device => { device with writeFaults := device.writeFaults.next }
  Action.require (¬ device.writeFaults.failsNext) .writeError
  match device.medium.write? sector data with
  | none => Action.fail .sectorOutOfBounds
  | some medium =>
    let writes ← Action.orPanic (counted device.writes)
    Action.update fun device => { device with medium := medium, writes := writes }

def checkBuffer (sector length : Nat) : Action DeviceError Device Unit := do
  Action.require (sector < (← Action.look).size) .sectorOutOfBounds
  Action.require (length = sectorSize) .bufferInvalid

def read (sector length : Nat) : Action DeviceError Device Sector := do
  checkBuffer sector length
  readSector sector

def write (sector : Nat) (data : Bytes) : Action DeviceError Device Unit := do
  checkBuffer sector data.length
  writeSector sector (Block.ofBytes 512 data)

end Device

end DemandPaging
