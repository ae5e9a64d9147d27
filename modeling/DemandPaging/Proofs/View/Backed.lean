import DemandPaging.Proofs.View.Step

namespace DemandPaging

namespace View

def backing (view : View) (key : Nat × Nat) : Option (Option FileWindow) :=
  (view.record key).map (·.residence.window?)

def Backed (view : View) : Prop :=
  ∀ ⦃key window⦄, view.backing key = some (some window) → view.Fits window

variable {strict : Prop} {view : View} {key : Nat × Nat}

theorem backing_put (record : Option PageRecord) :
    (view.put key record).backing =
      Function.update view.backing key (record.map (·.residence.window?)) := by
  funext other
  by_cases same : other = key
  · subst same
    simp [backing, put]
  · simp [backing, put, same]

theorem backing_put_same {record : PageRecord}
    (kept : view.backing key = some record.residence.window?) :
    (view.put key (some record)).backing = view.backing := by
  rw [backing_put]
  exact Function.update_eq_self_iff.mpr kept.symm

theorem backing_of_record {record : PageRecord} (found : view.record key = some record) :
    view.backing key = some record.residence.window? := by
  rw [backing, found, Option.map_some]

theorem Holds.backing {frame : Nat} {window : Option FileWindow}
    (holds : view.Holds key frame window) : view.backing key = some window := by
  obtain ⟨dirty, found⟩ := holds
  exact backing_of_record found

theorem backing_after (step : Step) (permitted : view.Permits strict step) :
    (view.after step).backing =
      match step with
      | .install key residence => Function.update view.backing key (some residence.window?)
      | .drop key _ _ => Function.update view.backing key none
      | _ => view.backing := by
  cases step with
  | soil key =>
      simp only [after, backing_put, Option.map_map]
      exact Function.update_eq_self_iff.mpr rfl
  | swapOut key frame slot => exact backing_put_same permitted.1.backing
  | fileOut key frame window => exact backing_put_same permitted.1.backing
  | bringIn key frame residence =>
      obtain ⟨⟨dirty, found⟩, -, -⟩ := permitted
      have kept : view.backing key = some residence.window? := by simp [backing, found]
      have same : (view.after (.bringIn key frame residence)).backing =
          (view.put key (some ⟨.inFrame frame residence.window?, false⟩)).backing := by
        cases residence <;> rfl
      exact same.trans (backing_put_same kept)
  | install key residence => exact backing_put _
  | drop key record saved =>
      have same : (view.after (.drop key record saved)).backing = (view.put key none).backing := by
        rcases record with ⟨residence, dirty⟩
        cases residence <;> rfl
      exact same.trans (backing_put none)
  | _ => rfl

theorem layout_after (step : Step) (permitted : view.Permits strict step) {file : Nat}
    {layout : Layout} (there : view.layout file = some layout) :
    ∃ later, (view.after step).layout file = some later ∧ layout.length ≤ later.length := by
  cases step with
  | flush key frame window place count =>
      obtain ⟨-, known, -, -⟩ := permitted
      simp only [after, write, overwrite, Function.update_apply]
      split
      · rename_i same
        rw [same, known, Option.some.injEq] at there
        exact ⟨_, rfl, there ▸ Layout.length_le_grown ..⟩
      · exact ⟨layout, there, Nat.le_refl _⟩
  | bringIn key frame residence =>
      refine ⟨layout, ?_, Nat.le_refl _⟩
      cases residence <;> exact there
  | drop key record saved =>
      refine ⟨layout, ?_, Nat.le_refl _⟩
      rcases record with ⟨residence, dirty⟩
      cases residence <;> exact there
  | _ => exact ⟨layout, there, Nat.le_refl _⟩

theorem Fits.after {window : FileWindow} (fits : view.Fits window) (step : Step)
    (permitted : view.Permits strict step) : (view.after step).Fits window := by
  rcases fits with empty | ⟨layout, there, inside⟩
  · exact .inl empty
  · obtain ⟨later, found, longer⟩ := layout_after step permitted there
    exact .inr ⟨later, found, Nat.le_trans inside longer⟩

theorem Backed.after (backed : view.Backed) (holds : strict) (step : Step)
    (permitted : view.Permits strict step) : (view.after step).Backed := by
  intro key window found
  rw [backing_after step permitted] at found
  cases step with
  | install other residence =>
      simp only [Function.update_apply] at found
      split at found
      · simp only [Option.some.injEq] at found
        obtain ⟨-, -, -, -, rfl | ⟨lies, rfl, fits⟩⟩ := id permitted
        · cases found
        · cases found
          exact (fits holds).after _ permitted
      · exact (backed found).after _ permitted
  | drop other record saved =>
      simp only [Function.update_apply] at found
      split at found
      · cases found
      · exact (backed found).after _ permitted
  | _ => exact (backed found).after _ permitted

end View

theorem Path.backed {strict : Prop} {first last : View} {steps : List Step}
    (path : Path strict first steps last) (holds : strict) (backed : first.Backed) :
    last.Backed := by
  induction path with
  | nil => exact backed
  | cons permitted later ih => exact ih (backed.after holds _ permitted)

end DemandPaging
