import DemandPaging.Machine.Fault

namespace DemandPaging.Machine

variable {ε : Type}

def setFlag (id page : Nat) (flag : Flag) (on : Bool) : Action ε Machine Unit :=
  onSpace id (Action.change fun space => do
    return { space with directory := ← space.directory.put page flag on })

def mappedFrame? (id page : Nat) : Action ε Machine (Option Nat) := do
  Action.orPanic ((← space id).directory.frame? page)

def reach (id page : Nat) : Action PagingError Machine Nat := do
  if (← mappedFrame? id page).isNone then resolveFault id page
  match ← mappedFrame? id page with
  | some frame => return frame
  | none => Action.panic (.unmappedPage page)

def userLoad (id address length : Nat) : Action PagingError Machine Bytes := do
  let frame ← reach id (pageOf address)
  setFlag id (pageOf address) .accessed true
  return (← contents frame).slice (pageOffset address) length

def userStore (id address : Nat) (data : Bytes) : Action PagingError Machine Unit := do
  let frame ← reach id (pageOf address)
  setFlag id (pageOf address) .accessed true
  setFlag id (pageOf address) .dirty true
  Paged.changePool (·.rewrite frame fun page => .ok (page.overlay (pageOffset address) data))

end DemandPaging.Machine
