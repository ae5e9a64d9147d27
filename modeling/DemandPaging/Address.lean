import DemandPaging.Panic

namespace DemandPaging

def wordLimit : Nat := 0x10000000000000000

/-- The longest buffer has one byte less than this bound. -/
def bufferLimit : Nat := 0x8000000000000000

/-- Sector numbers and transfer counts stay below this bound. -/
def halfWordLimit : Nat := 0x100000000

def kilobyte : Nat := 1024

def megabyte : Nat := 1024 * kilobyte

def pageSize : Nat := 4096

def kernelBase : Nat := 0x80000000

def pageOf (address : Nat) : Nat := address - address % pageSize

def pageOffset (address : Nat) : Nat := address % pageSize

def Aligned (address : Nat) : Prop := pageOffset address = 0

instance (address : Nat) : Decidable (Aligned address) :=
  inferInstanceAs (Decidable (pageOffset address = 0))

def IsUser (address : Nat) : Prop := address < kernelBase

instance (address : Nat) : Decidable (IsUser address) :=
  inferInstanceAs (Decidable (address < kernelBase))

/-- Every byte of `[start, start + length)` is a user address. The empty range still needs `start`
to be one. -/
def IsUserRange (start length : Nat) : Prop := IsUser start ∧ start + length ≤ kernelBase

instance (start length : Nat) : Decidable (IsUserRange start length) :=
  inferInstanceAs (Decidable (_ ∧ _))

def addWord (a b : Nat) : Except Panic Nat :=
  if a + b < wordLimit then .ok (a + b) else .error .overflow

def subWord (a b : Nat) : Except Panic Nat :=
  if b ≤ a then .ok (a - b) else .error .overflow

def mulWord (a b : Nat) : Except Panic Nat :=
  if a * b < wordLimit then .ok (a * b) else .error .overflow

def roundUp (address : Nat) : Except Panic Nat :=
  if address + pageSize < wordLimit then .ok (pageOf (address + pageSize - 1))
  else .error .overflow

def directoryIndex (address : Nat) : Nat := address / 0x400000 % 1024

def tableIndex (address : Nat) : Nat := address / 0x1000 % 1024

theorem pageOf_add_offset (address : Nat) : pageOf address + pageOffset address = address := by
  simp only [pageOf, pageOffset, pageSize]
  omega

theorem pageOffset_lt (address : Nat) : pageOffset address < pageSize :=
  Nat.mod_lt _ (by decide)

theorem aligned_pageOf (address : Nat) : Aligned (pageOf address) := by
  simp only [Aligned, pageOffset, pageOf, pageSize]
  omega

theorem pageOf_eq_self {page : Nat} (aligned : Aligned page) : pageOf page = page := by
  simp only [Aligned, pageOffset] at aligned
  simp [pageOf, aligned]

theorem addWord_eq {a b : Nat} (small : a + b < wordLimit) : addWord a b = .ok (a + b) :=
  if_pos small

theorem subWord_eq {a b : Nat} (le : b ≤ a) : subWord a b = .ok (a - b) :=
  if_pos le

theorem mulWord_eq {a b : Nat} (small : a * b < wordLimit) : mulWord a b = .ok (a * b) :=
  if_pos small

theorem eq_of_indices {page other : Nat} (user : IsUser page) (otherUser : IsUser other)
    (aligned : Aligned page) (otherAligned : Aligned other)
    (directory : directoryIndex page = directoryIndex other)
    (table : tableIndex page = tableIndex other) : page = other := by
  simp only [IsUser, kernelBase] at user otherUser
  simp only [Aligned, pageOffset, pageSize] at aligned otherAligned
  simp only [directoryIndex, tableIndex] at directory table
  omega

theorem exists_page_at {page index : Nat} (user : IsUser page) (small : index < 1024) :
    ∃ other, Aligned other ∧ IsUser other ∧ directoryIndex other = directoryIndex page ∧
      tableIndex other = index := by
  refine ⟨page / 0x400000 * 0x400000 + index * 0x1000, ?_⟩
  simp only [IsUser, kernelBase] at user
  simp only [Aligned, pageOffset, pageSize, IsUser, kernelBase, directoryIndex, tableIndex]
  omega

end DemandPaging
