import DemandPaging.Proofs.View.Careful

namespace DemandPaging

def Step.Lossless : Step → Prop
  | .install _ _ | .kernelWrite _ _ _ _ | .userWrite _ _ _ _ | .stain _ _ => False
  | .drop _ _ saved => saved = true
  | _ => True

theorem Step.Lossless.keeps {step : Step} (lossless : step.Lossless) :
    step.AddsNone ∧ step.Silent ∧ step.Honest := by
  cases step with
  | install | kernelWrite | userWrite | stain => exact lossless.elim
  | _ => exact ⟨trivial, trivial, trivial⟩

namespace View

variable {strict : Prop} {view : View} {key : Nat × Nat} {window : FileWindow} {i : Nat}

theorem fileByte_after {step : Step} (kept : ∀ other frame lies layout count,
    step ≠ .flush other frame lies layout count) (file position : Nat) :
    (view.after step).fileByte file position = view.fileByte file position := by
  cases step with
  | flush other frame lies layout count => exact absurd rfl (kept other frame lies layout count)
  | bringIn other frame residence => cases residence <;> rfl
  | drop other record saved =>
      obtain ⟨residence, dirty⟩ := record
      cases residence <;> rfl
  | _ => rfl

theorem saved_of_drop (careful : view.Careful) {record : PageRecord}
    (permitted : view.Permits strict (.drop key record true))
    (backing : view.backing key = some (some window)) (small : i < window.length) :
    view.logical key i = some (view.fileByte window.file (window.offset + i)) := by
  obtain ⟨recorded, safe⟩ := permitted
  obtain ⟨residence, dirty⟩ := record
  have same : residence.window? = some window := by
    simpa [View.backing, recorded] using backing
  cases residence with
  | untouched | inSwap => cases same
  | inFile lies =>
      cases same
      rw [logical_eq recorded, if_pos (show i < Residence.kept (.inFile window) from small)]
      exact getElem?_windowPage (careful.backed backing) small
  | inFrame frame lies =>
      cases same
      have holds : view.Holds key frame (some window) := ⟨dirty, recorded⟩
      have saved : view.Saved frame window :=
        (safe frame window rfl rfl).elim (careful.faithful holds) fun saved => saved
      rw [holds.logical_eq, if_pos (show i < Option.elim (some window) pageSize (·.length) from small),
        saved i small]

theorem eq_drop {step : Step} (permitted : view.Permits strict step)
    (recorded : view.record key ≠ none) (gone : (view.after step).record key = none) :
    ∃ record saved, step = .drop key record saved := by
  obtain ⟨record, recorded⟩ := Option.ne_none_iff_exists'.mp recorded
  have before : view.backing key ≠ none := by simp [View.backing, recorded]
  have after : (view.after step).backing key = none := by simp [View.backing, gone]
  rw [backing_after step permitted] at after
  cases step with
  | drop other record saved =>
      by_cases same : key = other
      · exact ⟨record, saved, by rw [same]⟩
      · exact absurd ((Function.update_of_ne same ..).symm.trans after) before
  | install other residence =>
      by_cases same : key = other
      · simp only [same, Function.update_self, reduceCtorEq] at after
      · exact absurd ((Function.update_of_ne same ..).symm.trans after) before
  | _ => exact absurd after before

end View

namespace Path

variable {strict : Prop} {first last : View} {steps : List Step} {key : Nat × Nat}
  {window : FileWindow} {i : Nat}

theorem fileByte (path : Path strict first steps last) (holds : strict)
    (addsNone : ∀ step ∈ steps, step.AddsNone) (backed : first.Backed) (disjoint : first.Disjoint)
    (fits : first.Fits window)
    (apart : ∀ other lies, first.backing other = some (some lies) → window.Apart lies)
    (small : i < window.length) :
    last.fileByte window.file (window.offset + i) =
      first.fileByte window.file (window.offset + i) := by
  induction path with
  | nil => rfl
  | @cons view last step rest permitted later ih =>
      obtain ⟨here, there⟩ := List.forall_mem_cons.mp addsNone
      rw [ih there (backed.after holds step permitted) (disjoint.after permitted)
        (fits.after step permitted) fun other lies found =>
          apart other lies (View.backing_before here permitted found)]
      cases step with
      | flush other frame lies layout count =>
          have writes : view.backing other = some (some lies) :=
            View.Holds.backing ⟨true, permitted.1⟩
          exact View.fileByte_after_flush_of_apart disjoint permitted fits (apart other lies writes) small
      | _ => exact View.fileByte_after (by simp) ..

/-- What a file page held when pages began to be given up is in its file when it is gone. -/
theorem saved (path : Path strict first steps last) (holds : strict)
    (lossless : ∀ step ∈ steps, step.Lossless) (consistent : first.Consistent)
    (careful : first.Careful) (backing : first.backing key = some (some window))
    (gone : last.record key = none) (small : i < window.length) :
    first.logical key i = some (last.fileByte window.file (window.offset + i)) := by
  induction path with
  | nil => simp [View.backing, gone] at backing
  | @cons view last step rest permitted later ih =>
      obtain ⟨here, there⟩ := List.forall_mem_cons.mp lossless
      obtain ⟨addsNone, silent, honest⟩ := here.keeps
      have addsNoneLater : ∀ step ∈ rest, step.AddsNone := fun step member =>
        (there step member).keeps.1
      have recorded : view.record key ≠ none := fun absent => by
        simp [View.backing, absent] at backing
      by_cases stays : (view.after step).record key = none
      · obtain ⟨record, saved, rfl⟩ := View.eq_drop permitted recorded stays
        cases show saved = true from here
        rw [View.saved_of_drop careful permitted backing small,
          later.fileByte holds addsNoneLater (careful.backed.after holds _ permitted)
            (careful.disjoint.after permitted) ((careful.backed backing).after _ permitted) ?_ small,
          View.fileByte_after (by simp)]
        intro other lies found
        have distinct : key ≠ other := by
          rintro rfl
          simp [View.backing, stays] at found
        exact careful.unshared distinct backing (View.backing_before addsNone permitted found)
      · have kept := (Path.single permitted).backing_eq (.inl (by simpa using addsNone)) backing stays
        have same := View.logical_after consistent permitted recorded stays (.inr careful)
        rw [silent.effect] at same
        have unshared := careful.unshared.of_backing fun _ _ =>
          View.backing_before addsNone permitted
        rw [← same]
        exact ih there (consistent.after permitted)
          (careful.after consistent holds honest permitted unshared) kept gone

end Path

end DemandPaging
