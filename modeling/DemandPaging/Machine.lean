import DemandPaging.Pool.Clock
import DemandPaging.Settings
import DemandPaging.Space
import DemandPaging.Storage
import DemandPaging.SwapArea

/-!
# The memory manager

A machine is a frame pool with the store behind it: the swap area, the files, and the live address
spaces by number. The modules under `DemandPaging.Machine` hold what it can do.
-/

namespace DemandPaging

structure Store where
  swap : SwapArea
  storage : Storage
  spaces : Std.ExtTreeMap Nat Space := ∅
  /-- Where the search for the number of the next space begins. -/
  nextId : BitVec 16 := 1

namespace Store

variable {ε α : Type}

def space (store : Store) (id : Nat) : Except Panic Space :=
  match store.spaces[id]? with
  | some space => .ok space
  | none => .error (.deadSpace id)

def onSpace (id : Nat) (action : Action ε Space α) : Action ε Store α :=
  action.within (·.space id) fun store space =>
    { store with spaces := store.spaces.insert id space }

end Store

abbrev Machine := Paged Store

namespace Machine

variable {ε α : Type}

def start (settings : Settings) (swapDevice : Device) (storage : Storage) :
    Except Panic (Traced Machine) := do
  settings.validate
  let swap ← SwapArea.attach swapDevice
  let devices := storage.devices.map Device.registration
  return {
    state := { pool := .ofSize settings.userFrames, store := { swap, storage } }
    log := #[swapDevice.registration] ++ devices ++
      #[swap.attachment, .machineReady settings.userFrames swap.capacity] }

def onStore (action : Action ε Store α) : Action ε Machine α := Paged.onStore action

def onSwap (action : Action ε SwapArea α) : Action ε Machine α :=
  onStore (action.within (fun store => .ok store.swap) fun store swap =>
    { store with swap := swap })

def onStorage (action : Action ε Storage α) : Action ε Machine α :=
  onStore (action.within (fun store => .ok store.storage) fun store storage =>
    { store with storage := storage })

def onSpace (id : Nat) (action : Action ε Space α) : Action ε Machine α :=
  onStore (Store.onSpace id action)

def onCatalog (id : Nat) (action : Action ε Catalog α) : Action ε Machine α :=
  onSpace id (action.within (fun space => .ok space.catalog) fun space catalog =>
    { space with catalog := catalog })

def look : Action ε Machine Machine := Action.look

def space (id : Nat) : Action ε Machine Space := do
  Action.orPanic ((← look).store.space id)

def contents (frame : Nat) : Action ε Machine Page := do
  Action.orPanic ((← look).pool.contents frame)

structure Usage where
  residentFrames : Nat
  totalFrames : Nat
  usedSlots : Nat
  totalSlots : Nat
  deriving DecidableEq, Repr

def usage (machine : Machine) : Usage where
  residentFrames := machine.pool.resident
  totalFrames := machine.pool.size
  usedSlots := machine.store.swap.usedSlots
  totalSlots := machine.store.swap.capacity

def Usage.describe (usage : Usage) : String :=
  s!"VmStats \x7b resident_frames: {usage.residentFrames}, total_frames: {usage.totalFrames}, " ++
    s!"used_swap_slots: {usage.usedSlots}, total_swap_slots: {usage.totalSlots} \x7d"

end Machine

end DemandPaging
