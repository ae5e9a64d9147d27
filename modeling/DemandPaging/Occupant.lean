import DemandPaging.Bits
import DemandPaging.Text

namespace DemandPaging

/-- How the kernel has touched a frame: bit 0 is accessed, bit 1 dirty, and the rest is kept. -/
structure KernelTouch where
  raw : BitVec 8 := 0
  deriving DecidableEq, Repr

namespace KernelTouch

def accessed (touch : KernelTouch) : Bool := touch.raw.getLsbD 0

def dirty (touch : KernelTouch) : Bool := touch.raw.getLsbD 1

def putAccessed (touch : KernelTouch) (on : Bool) : KernelTouch := ⟨putBit touch.raw 0 on⟩

def putDirty (touch : KernelTouch) (on : Bool) : KernelTouch := ⟨putBit touch.raw 1 on⟩

@[simp] theorem accessed_putAccessed (touch : KernelTouch) (on : Bool) :
    (touch.putAccessed on).accessed = on :=
  getLsbD_putBit touch.raw 0 on _ (by decide)

@[simp] theorem dirty_putAccessed (touch : KernelTouch) (on : Bool) :
    (touch.putAccessed on).dirty = touch.dirty :=
  getLsbD_putBit touch.raw 0 on _ (by decide)

@[simp] theorem dirty_putDirty (touch : KernelTouch) (on : Bool) :
    (touch.putDirty on).dirty = on :=
  getLsbD_putBit touch.raw 1 on _ (by decide)

end KernelTouch

structure Occupant where
  owner : Nat
  page : Nat
  pins : Nat := 0
  touch : KernelTouch := {}
  deriving DecidableEq, Repr

namespace Occupant

def pinned (occupant : Occupant) : Bool := 0 < occupant.pins

def describe (occupant : Occupant) : String :=
  s!"FrameDescriptor \x7b owner: {occupant.owner}, page: {Text.hex occupant.page}, " ++
    s!"pins: {occupant.pins}, accessed: {occupant.touch.accessed}, " ++
    s!"dirty: {occupant.touch.dirty} \x7d"

end Occupant

structure Victim where
  frame : Nat
  owner : Nat
  page : Nat
  deriving DecidableEq, Repr

def Victim.describe (victim : Victim) : String :=
  s!"Victim \x7b frame: FrameId({victim.frame}), owner: {victim.owner}, page: {victim.page} \x7d"

end DemandPaging
