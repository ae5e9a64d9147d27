import DemandPaging.Proofs.View.Careful
import Mathlib.Data.Finset.Card
import Mathlib.Tactic.Choose

namespace DemandPaging

namespace View

/-- There are more anonymous pages than slots. -/
def Crowded (view : View) : Prop :=
  ∃ keys : Finset (Nat × Nat), view.slots < keys.card ∧ ∀ key ∈ keys, view.backing key = some none

variable {view : View} {key : Nat × Nat} {frame slot : Nat}

theorem exists_record_of_slotOf (found : view.slotOf key = some slot) :
    ∃ dirty, view.record key = some ⟨.inSwap slot, dirty⟩ := by
  simp only [slotOf, Option.bind_eq_some_iff] at found
  obtain ⟨⟨residence, dirty⟩, recorded, inside⟩ := found
  cases residence with
  | inSwap other =>
      cases inside
      exact ⟨dirty, recorded⟩
  | untouched | inFrame | inFile => cases inside

theorem Consistent.crowded (consistent : view.Consistent)
    (full : ∀ slot < view.slots, view.used slot = true) (holds : view.Holds key frame none) :
    view.Crowded := by
  have stored (slot : Nat) : ∃ key, slot < view.slots → view.slotOf key = some slot := by
    by_cases inside : slot < view.slots
    · obtain ⟨key, there⟩ := consistent.stored.mp (full slot inside)
      exact ⟨key, fun _ => there⟩
    · exact ⟨key, fun inside' => absurd inside' inside⟩
  choose keyOf there using stored
  have anonymous {other : Nat × Nat} {slot : Nat} (found : view.slotOf other = some slot) :
      view.backing other = some none ∧ other ≠ key := by
    obtain ⟨dirty, recorded⟩ := exists_record_of_slotOf found
    refine ⟨by simp [backing, recorded, Residence.window?], ?_⟩
    rintro rfl
    have resident := holds.frameOf
    simp [frameOf, recorded, Residence.frame?] at resident
  refine ⟨insert key ((Finset.range view.slots).image keyOf), ?_, fun other member => ?_⟩
  · rw [Finset.card_insert_of_notMem, Finset.card_image_of_injOn, Finset.card_range]
    · exact Nat.lt_succ_self _
    · intro slot inside slot' inside' same
      have first := there slot (Finset.mem_range.mp inside)
      have second := there slot' (Finset.mem_range.mp inside')
      rw [same] at first
      exact Option.some.inj (first.symm.trans second)
    · intro member
      obtain ⟨slot, inside, same⟩ := Finset.mem_image.mp member
      exact (anonymous (there slot (Finset.mem_range.mp inside))).2 same
  · rcases Finset.mem_insert.mp member with rfl | swapped
    · exact holds.backing
    · obtain ⟨slot, inside, rfl⟩ := Finset.mem_image.mp swapped
      exact (anonymous (there slot (Finset.mem_range.mp inside))).1

end View

/-- Pages that are anonymous after steps that add none were so before. -/
theorem Path.crowded_before {strict : Prop} {first last : View} {steps : List Step}
    (path : Path strict first steps last) (addsNone : ∀ step ∈ steps, step.AddsNone)
    (crowded : last.Crowded) : first.Crowded := by
  obtain ⟨keys, more, anonymous⟩ := crowded
  exact ⟨keys, path.slots ▸ more, fun key member =>
    path.backing_before addsNone (anonymous key member)⟩

end DemandPaging
