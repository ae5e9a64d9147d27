import DemandPaging.Device
import DemandPaging.Piece
import DemandPaging.Residence

namespace DemandPaging

inductive File where
  /-- The first `length` bytes of a row; the rest of it is zero. -/
  | flat (length : Nat) (row : Sectors)
  | extent (device start length : Nat)

namespace File

def ofBytes (data : Bytes) : File := flat data.length (.ofBytes data)

def length : File → Nat
  | flat length _ => length
  | extent _ _ length => length

end File

structure WriteRequest where
  file : Nat
  offset : Nat
  length : Nat
  deriving DecidableEq, Repr

structure Storage where
  devices : Array Device := #[]
  files : Array File := #[]
  /-- The writes that were asked for, the latest first. -/
  journal : List WriteRequest := []

namespace Storage

variable {ε : Type}

def file (storage : Storage) (file : Nat) : Except Panic File :=
  match storage.files[file]? with
  | some found => .ok found
  | none => .error .outOfBounds

def device (storage : Storage) (index : Nat) : Except Panic Device :=
  match storage.devices[index]? with
  | some found => .ok found
  | none => .error .outOfBounds

def writeCount (storage : Storage) (file : Nat) : Nat :=
  storage.journal.countP (·.file == file)

def onDevice {α : Type} (index : Nat) (action : Action ε Device α) : Action ε Storage α :=
  action.within (·.device index) fun storage device =>
    { storage with devices := storage.devices.setIfInBounds index device }

def extentSector (start position : Nat) : Except DeviceError Nat :=
  let sector := start + position / sectorSize
  if sector < halfWordLimit then .ok sector else .error .sectorOutOfBounds

def available (size offset length : Nat) : Nat := min size (offset + length) - offset

def extentPieces (size offset length : Nat) : List Piece :=
  pieces sectorSize offset (available size offset length)

def readPiece (start offset length : Nat) (piece : Piece) : Action DeviceError Device Bytes := do
  let sector ← Action.orFail (extentSector start piece.start)
  let data ← Device.readSector sector
  let _ ← Action.orPanic (piece.placeIn offset length)
  Action.orPanic (data.cut (piece.start % sectorSize) piece.length)

def writePiece (start offset : Nat) (data : Array UInt8) (piece : Piece) :
    Action DeviceError Device Unit := do
  let sector ← Action.orFail (extentSector start piece.start)
  let old ← if piece.length < sectorSize then Device.readSector sector else pure (Block.zero 512)
  let bytes ← Action.orPanic (piece.takeFrom offset data)
  let filled ← Action.orPanic (old.lay (piece.start % sectorSize) bytes)
  Device.writeSector sector filled

def readAt (file offset length : Nat) : Action ε Storage Transfer := do
  match ← Action.orPanic ((← Action.look).file file) with
  | .flat size row => return ⟨row.read offset (available size offset length), none⟩
  | .extent device start size =>
    onDevice device
      (Transfer.gather (readPiece start offset length) (extentPieces size offset length))

def grownLength (size offset length : Nat) : Except Panic Nat :=
  let stop := offset + length
  if wordLimit ≤ stop then .error .overflow
  else if size < stop ∧ bufferLimit ≤ stop then .error .capacity
  else .ok (max size stop)

def writeAt (file offset : Nat) (data : Bytes) : Action DeviceError Storage Nat := do
  let target ← Action.orPanic ((← Action.look).file file)
  Action.update fun storage =>
    { storage with journal := ⟨file, offset, data.length⟩ :: storage.journal }
  match target with
  | .flat size row =>
    let grown ← Action.orPanic (grownLength size offset data.length)
    let after := File.flat grown (row.write offset data)
    Action.update fun storage => { storage with files := storage.files.setIfInBounds file after }
    return data.length
  | .extent device start size =>
    let bytes := data.toArray
    onDevice device
      ((extentPieces size offset data.length).forM (writePiece start offset bytes))
    return available size offset data.length

def load (window : FileWindow) : Action ε Storage Transfer := do
  if window.length = 0 then return ⟨[], none⟩
  else
    Action.insist (window.length ≤ pageSize) .outOfBounds
    let transfer ← readAt window.file window.offset window.length
    let count := transfer.bytes.length
    if transfer.failure = none ∧ count < window.length then
      Action.emit (.shortRead window.offset count window.length)
    return transfer

/-- Writes the bytes of a window back to its file, which must take all of them. -/
def save (window : FileWindow) (page : Page) : Action PagingError Storage Unit := do
  if window.length = 0 then return
  else
    let data ← Action.orPanic (page.cut 0 window.length)
    let count ← (writeAt window.file window.offset data).mapFailure .device
    Action.require (count = window.length) (.device .writeError)

end Storage

end DemandPaging
