import DemandPaging.Address

namespace DemandPaging

/-- The bytes of a file that hold one page. The rest of the page is zero when it is loaded and
never written back. -/
structure FileWindow where
  file : Nat
  offset : Nat
  length : Nat
  short : length ≤ pageSize
  deriving DecidableEq, Repr

namespace FileWindow

def make (file offset length : Nat) : Except Panic FileWindow :=
  if short : length ≤ pageSize then .ok ⟨file, offset, length, short⟩
  else .error (.oversizedWindow length)

def describe (window : FileWindow) : String :=
  s!"FileBacking \x7b offset: {window.offset}, length: {window.length}, .. \x7d"

end FileWindow

inductive Residence where
  | untouched
  | inFrame (frame : Nat) (window : Option FileWindow)
  | inSwap (slot : Nat)
  | inFile (window : FileWindow)
  deriving DecidableEq, Repr

namespace Residence

def frame? : Residence → Option Nat
  | inFrame frame _ => some frame
  | _ => none

def slot? : Residence → Option Nat
  | inSwap slot => some slot
  | _ => none

def window? : Residence → Option FileWindow
  | inFrame _ window => window
  | inFile window => some window
  | _ => none

def describe : Residence → String
  | untouched => "ZeroFill"
  | inFrame frame none => s!"Resident \x7b frame: FrameId({frame}), backing: None \x7d"
  | inFrame frame (some window) =>
      s!"Resident \x7b frame: FrameId({frame}), backing: Some({window.describe}) \x7d"
  | inSwap slot => s!"Swapped \x7b slot: SwapSlot({slot}) \x7d"
  | inFile window => s!"FileBacked({window.describe})"

end Residence

structure PageRecord where
  residence : Residence
  /-- A resident page was found modified when it was last to be evicted. -/
  dirty : Bool := false
  deriving DecidableEq, Repr

def PageRecord.describe (record : PageRecord) (page : Nat) : String :=
  s!"PageDescriptor \x7b page: {page}, state: {record.residence.describe}, " ++
    s!"dirty: {record.dirty} \x7d"

end DemandPaging
