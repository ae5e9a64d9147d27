import DemandPaging.Address
import DemandPaging.Bits

namespace DemandPaging

inductive Flag where
  | present
  | writable
  | user
  | writeThrough
  | cacheDisable
  | accessed
  | dirty
  | attributeTable
  | global
  deriving DecidableEq, Repr

namespace Flag

def place : Flag → Nat
  | present => 0
  | writable => 1
  | user => 2
  | writeThrough => 3
  | cacheDisable => 4
  | accessed => 5
  | dirty => 6
  | attributeTable => 7
  | global => 8

theorem place_lt (flag : Flag) : flag.place < 12 := by
  cases flag <;> decide

theorem place_eq_iff (flag other : Flag) : flag.place = other.place ↔ flag = other := by
  cases flag <;> cases other <;> decide

end Flag

structure Entry where
  flags : BitVec 12 := 0
  frame : BitVec 20 := 0
  deriving DecidableEq, Repr

namespace Entry

def raw (entry : Entry) : BitVec 32 := entry.frame ++ entry.flags

def ofRaw (word : BitVec 32) : Entry := ⟨word.extractLsb' 0 12, word.extractLsb' 12 20⟩

def has (entry : Entry) (flag : Flag) : Bool := entry.flags.getLsbD flag.place

def put (entry : Entry) (flag : Flag) (on : Bool) : Entry :=
  { entry with flags := putBit entry.flags flag.place on }

def frameLimit : Nat := 0x100000

def frameField (frame : Nat) : Except Panic (BitVec 20) :=
  if frame < frameLimit then .ok (.ofNat 20 frame) else .error .wideFrame

def withFrame (entry : Entry) (frame : Nat) : Except Panic Entry := do
  return { entry with frame := ← frameField frame }

def userPage (frame : Nat) (writable : Bool) : Except Panic Entry :=
  ((({} : Entry).put .present true).put .user true |>.put .writable writable).withFrame frame

theorem ofRaw_raw (entry : Entry) : ofRaw entry.raw = entry := by
  obtain ⟨flags, frame⟩ := entry
  simp only [raw, ofRaw, mk.injEq]
  constructor
  · ext i small
    simp only [BitVec.getElem_extractLsb', Nat.zero_add]
    exact (BitVec.getLsbD_append ..).trans (by simp [small])
  · ext i small
    simp only [BitVec.getElem_extractLsb']
    exact (BitVec.getLsbD_append ..).trans (by simp [small])

theorem has_put (entry : Entry) (flag other : Flag) (on : Bool) :
    (entry.put flag on).has other = if other = flag then on else entry.has other := by
  simp only [has, put, getLsbD_putBit _ _ _ _ flag.place_lt, Flag.place_eq_iff]

theorem frame_put (entry : Entry) (flag : Flag) (on : Bool) :
    (entry.put flag on).frame = entry.frame := rfl

theorem userPage_ok {frame : Nat} (writable : Bool) (small : frame < frameLimit) :
    ∃ entry, userPage frame writable = .ok entry ∧ entry.frame.toNat = frame ∧
      ∀ flag, entry.has flag =
        (flag == .present || flag == .user || flag == .writable && writable) := by
  refine ⟨_, by simp only [userPage, withFrame, frameField, small, if_true]; rfl, ?_, ?_⟩
  · exact (BitVec.toNat_ofNat frame 20).trans (Nat.mod_eq_of_lt small)
  · intro flag
    change ((({} : Entry).put .present true).put .user true |>.put .writable writable).has flag = _
    simp only [has_put]
    cases flag <;> cases writable <;> simp [has]

end Entry

end DemandPaging
