import DemandPaging.Machine.Lifetime
import DemandPaging.Proofs.Machine.Mapping

namespace DemandPaging.Machine

open DemandPaging.Action

variable {ε : Type} {strict : Prop} {machine middle : Machine} {log : Array Event} {id page : Nat}

theorem takeId?_spec {spaces : Std.ExtTreeMap Nat Space} {candidate number : BitVec 16}
    {turns : Nat} (taken : takeId? spaces candidate turns = some (.ok number)) :
    number ≠ 0 ∧ spaces.contains number.toNat = false := by
  induction turns generalizing candidate with
  | zero => cases taken
  | succ turns ih =>
      unfold takeId? at taken
      split at taken
      · rename_i free
        cases taken
        exact ⟨free.1, Bool.eq_false_of_not_eq_true free.2⟩
      · split at taken
        · exact ih taken
        · cases taken

theorem takeId?_error {spaces : Std.ExtTreeMap Nat Space} {candidate : BitVec 16} {turns : Nat}
    {cause : Panic} (refused : takeId? spaces candidate turns = some (.error cause)) :
    cause = .outOfSpaceIds := by
  induction turns generalizing candidate with
  | zero => cases refused
  | succ turns ih =>
      unfold takeId? at refused
      split at refused
      · cases refused
      · split at refused
        · exact ih refused
        · cases refused
          rfl

theorem translation_of_fresh {directory : Directory} (fresh : directory.tables = ∅) :
    directory.translation = fun _ => none := by
  funext page
  simp [Directory.translation, Directory.find?, fresh]

theorem createSpace_spec (shaped : machine.Shaped strict) {directory : Directory}
    (fresh : directory.tables = ∅) :
    (createSpace directory : Action ε Machine Nat).Ensures ⟨machine, log⟩
      (fun id (after : Traced Machine) => Moves strict machine [.create id] after.state)
      (fun _ _ => False) (Excused strict) := by
  simp only [createSpace, look, ensures_bind, ensures_look]
  rcases taken : takeId? machine.store.spaces machine.store.nextId idLimit with _ | cause | number
  · exact fun _ => .outOfSpaceIds
  · rw [takeId?_error taken]
    exact fun _ => .outOfSpaceIds
  · obtain ⟨-, unused⟩ := takeId?_spec taken
    have absent := Std.ExtTreeMap.getElem?_eq_none_of_contains_eq_false unused
    simp only [ensures_bind, ensures_orPanic, ensures_insist, unused, Bool.false_eq_true,
      not_false_eq_true, if_true, onStore, Paged.onStore, ensures_within, ensures_update,
      ensures_emit, ensures_pure]
    generalize number.toNat = id at unused absent ⊢
    have entered : (machine.withSpace id { directory }).Shaped strict :=
      shaped.withSpace (Directory.tight_of_fresh fresh)
    refine .single (.create id) unused ?_
      ⟨entered.counted, entered.hand, entered.narrow, entered.slots, entered.formed, entered.tight⟩
    refine View.ext rfl rfl rfl rfl ?_ ?_ ?_ ?_ ?_ rfl rfl rfl rfl rfl
    · funext other
      simp only [view, View.after, Std.ExtTreeMap.contains_insert, Function.update_apply]
      by_cases same : id = other
      · simp [same]
      · simp [same, Ne.symm same]
    all_goals
      funext key
      simp only [view, View.after, Std.ExtTreeMap.getElem?_insert, Nat.compare_eq_eq]
      split
      · subst id
        simp [absent, Catalog.find?, translation_of_fresh fresh]
      · rfl

/-! ## Destruction -/

theorem discardAll_spec (sound : machine.Sound strict) (live : machine.view.live id = true)
    (pages : List Nat) : (discardAll id pages : Action ε Machine Unit).Ensures ⟨machine, log⟩
      (fun _ (after : Traced Machine) =>
        machine.Through strict (Step.Unmaps id (fun _ => True) False) after.state ∧
          ∀ page record, after.state.view.record (id, page) = some record →
            page ∉ pages ∧ machine.view.record (id, page) = some record)
      (fun _ _ => False) (fun cause after => Excused strict cause after ∧
        ∃ page frame window, machine.view.Holds (id, page) frame (some window)) := by
  induction pages generalizing machine log with
  | nil => exact ⟨.refl sound.shaped, by simp⟩
  | cons page rest ih =>
      have goesOn (middle : Traced Machine)
          (removed : machine.Removed strict id page False middle.state) :
          (discardAll id rest : Action ε Machine Unit).Ensures middle
            (fun _ (after : Traced Machine) =>
              machine.Through strict (Step.Unmaps id (fun _ => True) False) after.state ∧
                ∀ other record, after.state.view.record (id, other) = some record →
                  other ∉ page :: rest ∧ machine.view.record (id, other) = some record)
            (fun _ _ => False) (fun cause after => Excused strict cause after ∧
              ∃ page frame window, machine.view.Holds (id, page) frame (some window)) := by
        have through := removed.through
        have alive := through.live_of_unmaps live
        refine Ensures.mono (ih (sound.through through) alive) ?_ (fun _ _ never => never) ?_
        · rintro _ after ⟨more, left⟩
          refine ⟨(through.mono fun _ unmaps => unmaps.mono (fun holds => holds) fun _ _ =>
            trivial).trans more, fun other record found => ?_⟩
          obtain ⟨new, before⟩ := left other record found
          rw [removed.record, Function.update_apply] at before
          split at before
          · cases before
          · simp_all
        · rintro cause after ⟨excused, other, frame, window, dirty, recorded⟩
          rw [removed.record, Function.update_apply] at recorded
          split at recorded
          · cases recorded
          · exact ⟨excused, other, frame, window, dirty, recorded⟩
      rw [discardAll, ensures_bind, ensures_attempt]
      refine Ensures.mono (removePage_spec sound live) ?_ ?_
        fun _ _ panicked => ⟨panicked.1, page, panicked.2⟩
      · rintro _ middle ⟨through, record, translation, journal⟩
        exact goesOn middle ⟨through.mono fun _ unmaps => unmaps.mono False.elim fun _ same => same,
          record, translation, journal⟩
      · rintro cause ⟨(middle : Machine), log⟩ ⟨removed, -⟩
        rw [ensures_bind, ensures_emit]
        exact goesOn ⟨middle, _⟩ removed

theorem emptySpace_spec (sound : machine.Sound strict) (live : machine.view.live id = true) :
    (emptySpace id : Action ε Machine Unit).Ensures ⟨machine, log⟩
      (fun _ (after : Traced Machine) =>
        machine.Through strict (Step.Unmaps id (fun _ => True) False) after.state ∧
          ∀ page, after.state.view.record (id, page) = none)
      (fun _ _ => False) (fun cause after => Excused strict cause after ∧
        ∃ page frame window, machine.view.Holds (id, page) frame (some window)) := by
  obtain ⟨space, found⟩ := exists_space live
  simp only [emptySpace, ensures_bind, ensures_space found]
  refine Ensures.mono (discardAll_spec sound live _) ?_ (fun _ _ never => never)
    fun _ _ excused => excused
  rintro _ after ⟨through, left⟩
  rw [ensures_emit]
  refine ⟨through, fun page => ?_⟩
  cases known : after.state.view.record (id, page) with
  | none => rfl
  | some record =>
      obtain ⟨unlisted, recorded⟩ := left page record known
      rw [record_eq found] at recorded
      exact absurd ((Catalog.mem_pages_iff _ page).mpr (by simp [recorded])) unlisted

theorem erase_spec (sound : machine.Sound strict)
    (empty : ∀ page, machine.view.record (id, page) = none) :
    (onStore (Action.update fun store => { store with spaces := store.spaces.erase id }) :
        Action ε Machine Unit).Ensures ⟨machine, log⟩
      (fun _ (after : Traced Machine) => Moves strict machine [.destroy id] after.state)
      (fun _ _ => False) fun _ _ => False := by
  simp only [onStore, Paged.onStore, ensures_within, ensures_update]
  have unmapped (page : Nat) : machine.view.translation (id, page) = none :=
    sound.consistent.unmapped (by simp [View.frameOf, empty page])
  have shaped := sound.shaped
  have kept : Shaped strict { machine with
      store := { machine.store with spaces := machine.store.spaces.erase id } } := by
    refine ⟨shaped.counted, shaped.hand, shaped.narrow, shaped.slots, shaped.formed, fun found => ?_⟩
    simp only [Std.ExtTreeMap.getElem?_erase] at found
    split at found
    · cases found
    · exact shaped.tight found
  refine .single (.destroy id) empty ?_ kept
  refine View.ext rfl rfl rfl rfl ?_ ?_ ?_ ?_ ?_ rfl rfl rfl rfl rfl
  · funext other
    simp only [view, View.after, Std.ExtTreeMap.contains_erase, Function.update_apply]
    by_cases same : id = other
    · simp [same]
    · simp [same, Ne.symm same]
  · funext key
    obtain ⟨owner, page⟩ := key
    simp only [view, View.after, Std.ExtTreeMap.getElem?_erase, Nat.compare_eq_eq]
    split
    · subst id
      exact (empty page).symm
    · rfl
  · funext key
    obtain ⟨owner, page⟩ := key
    simp only [view, View.after, Std.ExtTreeMap.getElem?_erase, Nat.compare_eq_eq]
    split
    · subst id
      exact (unmapped page).symm
    · rfl
  all_goals
    funext key
    simp only [view, View.after, Std.ExtTreeMap.getElem?_erase, Nat.compare_eq_eq,
      Function.update_apply, eq_comm (b := id)]
    split <;> rfl

theorem destroySpace_spec (sound : machine.Sound strict) (live : machine.view.live id = true) :
    (destroySpace id : Action ε Machine Unit).Ensures ⟨machine, log⟩
      (fun _ (after : Traced Machine) => ∃ middle,
        machine.Through strict (Step.Unmaps id (fun _ => True) False) middle ∧
          Moves strict middle [.destroy id] after.state)
      (fun _ _ => False) (fun cause after => Excused strict cause after ∧
        ∃ page frame window, machine.view.Holds (id, page) frame (some window)) := by
  rw [destroySpace, ensures_bind]
  refine Ensures.mono (emptySpace_spec sound live) ?_ (fun _ _ never => never)
    fun _ _ excused => excused
  rintro _ ⟨(middle : Machine), log⟩ ⟨through, empty⟩
  exact Ensures.mono (erase_spec (sound.through through) empty)
    (fun _ _ moves => ⟨middle, through, moves⟩) (fun _ _ never => never) fun _ _ never => never.elim

end DemandPaging.Machine
