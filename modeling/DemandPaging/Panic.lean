import DemandPaging.Text

namespace DemandPaging

inductive Panic where
  | overflow
  /-- A counter has reached the last number of its word. -/
  | countOverflow
  | outOfBounds
  | lengthMismatch
  | capacity
  | wideFrame
  | emptyPool
  | oversizedPool (frames : Nat)
  | notSwapDevice (name : String)
  | bitOutOfRange (index bits : Nat)
  | unalignedPage (page : Nat)
  | kernelPage (page : Nat)
  | pageAlreadyMapped (page : Nat)
  | oversizedWindow (length : Nat)
  | releaseOfUnusedSlot (slot : Nat)
  | writeToUnusedSlot (slot : Nat)
  | readFromUnusedSlot (slot : Nat)
  | doubleRelease (frame : Nat)
  | vacantFrame (frame : Nat)
  | pinOverflow (frame : Nat)
  | everyFramePinned (frames : Nat)
  | stillOccupied (frame : Nat)
  /-- A fault was to be resolved for an address within a page. -/
  | unalignedFault (page : Nat)
  | unrecordedPage (page : Nat)
  | pageNotResident (page : Nat)
  /-- The clock reached a frame whose owner is no live space. -/
  | strangerProbed (owner : Nat)
  | strangerEvicted (frame owner : Nat)
  | outOfSpaceIds
  | spaceIdReused
  /-- A fault was resolved, but the page is not mapped. -/
  | unmappedPage (page : Nat)
  | deadSpace (id : Nat)
  deriving DecidableEq, Repr

namespace Panic

open Text in
def message : Panic → String
  | overflow | countOverflow => "arithmetic overflow"
  | outOfBounds => "index out of bounds"
  | lengthMismatch => "buffers of different lengths"
  | capacity => "buffer too long"
  | wideFrame => "frame number too wide"
  | emptyPool => "user pool needs at least one frame"
  | oversizedPool frames => s!"user pool of {frames} frames exceeds 1048576"
  | notSwapDevice name => s!"{name} is not a swap device"
  | bitOutOfRange index bits => s!"bit {index} out of range ({bits} bits)"
  | unalignedPage page => s!"unaligned page {hex page}"
  | kernelPage page => s!"kernel page {hex page}"
  | pageAlreadyMapped page => s!"page {hex page} already mapped"
  | oversizedWindow length => s!"file page of {length} bytes exceeds a page"
  | releaseOfUnusedSlot slot => s!"free of unused swap slot {slot}"
  | writeToUnusedSlot slot => s!"write to unused swap slot {slot}"
  | readFromUnusedSlot slot => s!"read from unused swap slot {slot}"
  | doubleRelease frame => s!"double free of frame {frame}"
  | vacantFrame frame => s!"frame {frame} is not allocated"
  | pinOverflow frame => s!"pin count of frame {frame} overflowed"
  | everyFramePinned frames => s!"no evictable frame among {frames}: every frame is pinned"
  | stillOccupied frame => s!"eviction left frame {frame} allocated"
  | unalignedFault _ => "assertion failed: is_page_aligned(page)"
  | unrecordedPage page => s!"no descriptor for page {hex page}"
  | pageNotResident page => s!"evicting page {hex page}, which is not resident"
  | strangerProbed owner => s!"frame owned by unknown space {owner}"
  | strangerEvicted frame owner => s!"frame {frame} owned by unknown space {owner}"
  | outOfSpaceIds => "out of address space ids"
  | spaceIdReused => "address space id reused while live"
  | unmappedPage page => s!"page {hex page} not mapped after a fault"
  | deadSpace id => s!"address space {id} is not live"

end Panic

end DemandPaging
