import DemandPaging.Bitmap
import DemandPaging.Device

namespace DemandPaging

structure SwapArea where
  used : Bitmap
  device : Device

namespace SwapArea

def usualSectors : Nat := 4 * megabyte / sectorSize

def attach (device : Device) : Except Panic SwapArea :=
  if device.kind = .swap then .ok ⟨.clear (device.size / sectorsPerPage), device⟩
  else .error (.notSwapDevice device.name)

def capacity (area : SwapArea) : Nat := area.used.bits

def usedSlots (area : SwapArea) : Nat := area.used.count

def attachment (area : SwapArea) : Event := .swapAttached area.capacity area.device.name

def isUsed (area : SwapArea) (slot : Nat) : Except Panic Bool := area.used.get slot

def reserve : Action PagingError SwapArea Nat := do
  let area ← Action.look
  match area.used.claim? with
  | some (slot, used) =>
    Action.update fun area => { area with used := used }
    Action.emit (.slotReserved slot)
    return slot
  | none =>
    Action.emit (.swapFull area.capacity)
    Action.fail .outOfSwap

def demandUsed (slot : Nat) (otherwise : Panic) : Action PagingError SwapArea Unit := do
  Action.insist (← Action.orPanic ((← Action.look).isUsed slot)) otherwise

def release (slot : Nat) : Action PagingError SwapArea Unit := do
  demandUsed slot (.releaseOfUnusedSlot slot)
  Action.change fun area => do return { area with used := ← area.used.set slot false }
  Action.emit (.slotReleased slot)

def onDevice {ε α : Type} (action : Action ε Device α) : Action ε SwapArea α :=
  action.within (fun area => .ok area.device) fun area device => { area with device := device }

def firstSector (slot : Nat) : Except Panic Nat := do
  return (← mulWord slot sectorsPerPage) % halfWordLimit

/-- Sector `first + i`. The count of sectors goes on to the next one before this one is used. -/
def countSector (first i : Nat) : Except Panic Nat :=
  if first + i + 1 < halfWordLimit then .ok (first + i) else .error .overflow

def storeSector (first : Nat) (page : Page) (i : Nat) : Action DeviceError Device Unit := do
  let sector ← Action.orPanic (countSector first i)
  Device.writeSector sector (pageSector page i)

def fetchSector (first i : Nat) : Action DeviceError Device Bytes := do
  let sector ← Action.orPanic (countSector first i)
  return (← Device.readSector sector).slice 0 sectorSize

def store (slot : Nat) (page : Page) : Action PagingError SwapArea Unit := do
  demandUsed slot (.writeToUnusedSlot slot)
  let first ← Action.orPanic (firstSector slot)
  onDevice (((List.range sectorsPerPage).forM (storeSector first page)).mapFailure .device)
  let _ ← Action.orPanic (countSector first sectorsPerPage)

def fetch (slot : Nat) : Action PagingError SwapArea Transfer := do
  demandUsed slot (.readFromUnusedSlot slot)
  let first ← Action.orPanic (firstSector slot)
  let transfer ← onDevice (Transfer.gather (fetchSector first) (List.range sectorsPerPage))
  if transfer.failure.isNone then
    let _ ← Action.orPanic (countSector first sectorsPerPage)
  return transfer

end SwapArea

end DemandPaging
