import DemandPaging.Machine

namespace DemandPaging.Machine

def isModified (id page frame : Nat) : Action PagingError Machine Bool := do
  let user ← Action.orPanic ((← space id).directory.has page .dirty)
  return user || (← look).pool.isDirty frame

def vacate (id page frame : Nat) : Action PagingError Machine Unit := do
  onSpace id (Action.change fun space => do
    return { space with directory := ← space.directory.unmap page })
  Paged.release frame

def swapOut (contents : Page) : Action PagingError Machine Nat := do
  let slot ← onSwap SwapArea.reserve
  match ← (onSwap (SwapArea.store slot contents)).attempt with
  | .ok () => return slot
  | .error cause =>
    onSwap (SwapArea.release slot)
    Action.fail cause

def moveOut (frame : Nat) (window : Option FileWindow) (dirty : Bool) :
    Action PagingError Machine Residence := do
  let contents ← contents frame
  match window with
  | none => return .inSwap (← swapOut contents)
  | some window =>
    if dirty then onStorage (Storage.save window contents)
    return .inFile window

/-- Evicts a page of a space. If that fails, the page stays, and is known to be modified if it
was. -/
def evict (id page : Nat) : Action PagingError Machine Unit := do
  match (← space id).catalog.find? page with
  | none => Action.panic (.unrecordedPage page)
  | some record =>
    match record.residence with
    | .inFrame frame window =>
      let dirty := (← isModified id page frame) || record.dirty
      onCatalog id (Action.update (·.put page ⟨record.residence, dirty⟩))
      let next ← moveOut frame window dirty
      Action.emit (.pageEvicted page frame next)
      onCatalog id (Action.update (·.put page ⟨next, false⟩))
      vacate id page frame
    | _ => Action.panic (.pageNotResident page)

def takeAccessed (owner page : Nat) : Action PagingError Store Bool := do
  Action.insist ((← Action.look).spaces.contains owner) (.strangerProbed owner)
  Store.onSpace owner do
    let (accessed, directory) ← Action.orPanic ((← Action.look).directory.takeAccessed page)
    Action.update fun space => { space with directory := directory }
    return accessed

def reclaimerFor (id : Nat) : Reclaimer Store where
  takeAccessed := takeAccessed
  evict victim := do
    if victim.owner ≠ id then
      Action.insist ((← look).store.spaces.contains victim.owner)
        (.strangerEvicted victim.frame victim.owner)
      Action.emit (.evictingStranger id victim.page victim.owner)
    evict victim.owner victim.page

end DemandPaging.Machine
