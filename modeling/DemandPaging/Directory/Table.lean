import DemandPaging.Entry

namespace DemandPaging

structure Table where
  entries : Vector Entry 1024 := Vector.replicate 1024 {}
  deriving DecidableEq, Repr

namespace Table

def length : Nat := 1024

def entryAt (table : Table) (index : Nat) : Entry := (table.entries[index]?).getD {}

def putAt (table : Table) (index : Nat) (entry : Entry) : Table :=
  ⟨table.entries.setIfInBounds index entry⟩

def get (table : Table) (index : Nat) : Except Panic Entry :=
  if index < length then .ok (table.entryAt index) else .error .outOfBounds

def set (table : Table) (index : Nat) (entry : Entry) : Except Panic Table :=
  if index < length then .ok (table.putAt index entry) else .error .outOfBounds

def presentCount (table : Table) : Nat := table.entries.toList.countP (·.has .present)

def vacant (table : Table) : Bool := table.entries.all (!·.has .present)

theorem entryAt_empty (index : Nat) : ({} : Table).entryAt index = {} := by
  simp only [entryAt, Vector.getElem?_replicate]
  split <;> rfl

theorem entryAt_putAt (table : Table) {index : Nat} (entry : Entry) (other : Nat)
    (small : index < length) :
    (table.putAt index entry).entryAt other =
      if other = index then entry else table.entryAt other := by
  simp only [entryAt, putAt, Vector.getElem?_setIfInBounds, eq_comm (a := other)]
  split
  · rw [if_pos (show index < 1024 from small)]
    rfl
  · rfl

theorem vacant_iff (table : Table) :
    table.vacant = true ↔ ∀ index, (table.entryAt index).has .present = false := by
  simp only [vacant, Vector.all_eq_true, Bool.not_eq_true', entryAt]
  constructor
  · intro absent index
    by_cases small : index < 1024
    · simpa [small] using absent index small
    · simp [small, Entry.has]
  · intro absent index small
    simpa [small] using absent index

theorem exists_present {table : Table} (occupied : ¬ table.vacant = true) :
    ∃ index < length, (table.entryAt index).has .present = true := by
  simp only [vacant, Vector.all_eq_true, Classical.not_forall] at occupied
  obtain ⟨index, small, present⟩ := occupied
  exact ⟨index, small, by simpa [entryAt, small] using present⟩

end Table

end DemandPaging
