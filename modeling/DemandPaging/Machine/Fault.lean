import DemandPaging.Machine.Eviction

namespace DemandPaging.Machine

def transferTo (frame : Nat) (transfer : Transfer) :
    Action PagingError Machine (Option DeviceError) := do
  Paged.changePool (·.rewrite frame (·.lay 0 transfer.bytes))
  return transfer.failure

def fill (frame : Nat) (residence : Residence) :
    Action PagingError Machine (Option DeviceError) := do
  let _ ← contents frame
  match residence with
  | .inSwap slot => transferTo frame (← onSwap (SwapArea.fetch slot))
  | .inFile window => transferTo frame (← onStorage (Storage.load window))
  | _ => return none

def install (id page frame : Nat) : Action PagingError Machine Bool :=
  onSpace id do
    let (mapped, directory) ← Action.orPanic ((← Action.look).directory.map page frame true)
    Action.update fun space => { space with directory := directory }
    return mapped

def abandon {α : Type} (frame : Nat) (report : Event) (cause : PagingError) :
    Action PagingError Machine α := do
  Action.emit report
  Paged.release frame
  Action.fail cause

def load (id page frame : Nat) (residence : Residence) : Action PagingError Machine Unit := do
  match ← fill frame residence with
  | none => return
  | some cause => abandon frame (.loadFailed page id (.device cause)) (.device cause)

def lead (id page frame : Nat) : Action PagingError Machine Unit := do
  if ← install id page frame then return
  else abandon frame (.mapFailed page id) .mappingFailed

def releaseSlot : Residence → Action PagingError Machine Unit
  | .inSwap slot => onSwap (SwapArea.release slot)
  | _ => return

/-- Brings a page that is not resident into a frame of its own, and pins it. A swap slot is
given up only when the page is safely mapped. -/
def bringIn (id page : Nat) (residence : Residence) : Action PagingError Machine Nat := do
  let frame ← Paged.claim (reclaimerFor id) id page residence.slot?.isNone
  load id page frame residence
  lead id page frame
  releaseSlot residence
  Paged.changePool (·.pin frame)
  onCatalog id (Action.change (·.replace page ⟨.inFrame frame residence.window?, false⟩))
  Action.emit (.pageResident page id frame)
  return frame

def pinPage (id page : Nat) : Action PagingError Machine Nat := do
  Action.insist (Aligned page) (.unalignedFault page)
  match (← space id).catalog.find? page with
  | none => Action.fail .notMapped
  | some record =>
    match record.residence with
    | .inFrame frame _ =>
      Paged.changePool (·.pin frame)
      return frame
    | residence => bringIn id page residence

def faultIn (id address : Nat) : Action PagingError Machine Nat := do
  Action.require (IsUser address) .badAddress
  pinPage id (pageOf address)

def releasePin (id page frame : Nat) (write : Option Bool) : Action PagingError Machine Unit := do
  if (← space id).catalog.frame? page = some frame then
    Paged.changePool (·.finish frame write)

def resolveFault (id address : Nat) : Action PagingError Machine Unit := do
  let frame ← faultIn id address
  releasePin id (pageOf address) frame none

def pinAll (id : Nat) : List Nat → (pinned : List (Nat × Nat)) → Action PagingError Machine Unit
  | [], _ => return
  | page :: rest, pinned => do
    match ← (faultIn id page).attempt with
    | .ok frame => pinAll id rest ((page, frame) :: pinned)
    | .error cause =>
      pinned.reverse.forM fun (page, frame) => releasePin id page frame none
      Action.fail cause

def pinRange (id start length : Nat) : Action PagingError Machine Unit := do
  Action.require (IsUserRange start length) .badAddress
  let span ← Action.orPanic (PageSpan.covering start length)
  pinAll id span.pages []

def unpinRange (id start length : Nat) : Action PagingError Machine Unit := do
  Action.require (IsUserRange start length) .badAddress
  let span ← Action.orPanic (PageSpan.covering start length)
  let catalog := (← space id).catalog
  ((catalog.within span).filterMap catalog.frame?).forM fun frame =>
    Paged.changePool (·.unpin frame)

end DemandPaging.Machine
