import DemandPaging.Proofs.View.Saved

namespace DemandPaging

def Step.request? : Step → Option WriteRequest
  | .flush _ _ window _ _ => some ⟨window.file, window.offset, window.length⟩
  | _ => none

def Step.Marks (key : Nat × Nat) : Step → Prop
  | .kernelWrite other _ _ _ | .userWrite other _ _ _ => key = other
  | .stain other on => on = true ∧ key = other
  | _ => False

def Step.Lodges (view : View) (file : Nat) : Step → Prop
  | .install _ residence =>
    ∀ window, residence = .inFile window → window.file = file → view.Fits window
  | _ => True

def WriteRequest.Covers (request : WriteRequest) (file position : Nat) : Prop :=
  request.file = file ∧ request.offset ≤ position ∧ position < request.offset + request.length

namespace View

variable {strict : Prop} {view later : View} {key : Nat × Nat} {frame file position : Nat}
  {step : Step}

theorem journal_after (view : View) (step : Step) :
    (view.after step).journal = step.request?.toList ++ view.journal := by
  cases step with
  | flush => exact view.journal_after_flush ..
  | bringIn key frame residence => cases residence <;> rfl
  | drop key record saved =>
      obtain ⟨residence, dirty⟩ := record
      cases residence <;> rfl
  | _ => rfl

/-! ## Modified pages -/

theorem Holds.of_record {window : Option FileWindow} (holds : later.Holds key frame window)
    (same : later.record key = view.record key) : view.Holds key frame window := by
  obtain ⟨dirty, found⟩ := holds
  exact ⟨dirty, same ▸ found⟩

theorem modified_congr (record : later.record key = view.record key)
    (translation : later.translation key = view.translation key)
    (written : (later.holder frame).any (·.written) = (view.holder frame).any (·.written)) :
    later.modified key frame = view.modified key frame := by
  rw [modified, modified, record, translation, written]

theorem Consistent.modified_of_leave (consistent : view.Consistent) {other : Nat × Nat} {place : Nat}
    {lies window : Option FileWindow} {next : Option PageRecord}
    (leaves : view.Holds other place lies) (away : next.bind (·.residence.frame?) = none)
    (record : later.record = Function.update view.record other next)
    (translation : later.translation = Function.update view.translation other none)
    (holder : later.holder = Function.update view.holder place none)
    (holds : later.Holds key frame window) :
    view.Holds key frame window ∧ later.modified key frame = view.modified key frame := by
  have distinct : key ≠ other := by
    rintro rfl
    obtain ⟨dirty, found⟩ := holds
    rw [record, Function.update_self] at found
    simp [found, Residence.frame?] at away
  have same : later.record key = view.record key := by
    rw [record, Function.update_of_ne distinct]
  have before := holds.of_record same
  have elsewhere : frame ≠ place := by
    rintro rfl
    exact distinct (consistent.eq_of_frame before leaves)
  refine ⟨before, modified_congr same ?_ ?_⟩
  · rw [translation, Function.update_of_ne distinct]
  · rw [holder, Function.update_of_ne elsewhere]

theorem Consistent.modified_before (consistent : view.Consistent)
    (permitted : view.Permits strict step) {window : Option FileWindow}
    (holds : (view.after step).Holds key frame window)
    (modified : (view.after step).modified key frame = true) :
    view.Holds key frame window ∧ view.modified key frame = true ∨ step.Marks key := by
  have same (before : view.Holds key frame window ∧
      (view.after step).modified key frame = view.modified key frame) :
      view.Holds key frame window ∧ view.modified key frame = true ∨ step.Marks key :=
    .inl ⟨before.1, before.2 ▸ modified⟩
  -- It takes the record, the translation and the holder to tell whether a page is modified.
  have kept (record : (view.after step).record key = view.record key)
      (translation : (view.after step).translation key = view.translation key)
      (written : ((view.after step).holder frame).any (·.written) =
        (view.holder frame).any (·.written)) :
      view.Holds key frame window ∧ view.modified key frame = true ∨ step.Marks key :=
    same ⟨holds.of_record record, modified_congr record translation written⟩
  cases step with
  | soil other =>
      by_cases here : key = other
      · subst here
        obtain ⟨place, lies, resident, noted⟩ := permitted
        obtain ⟨dirty, found⟩ := resident
        obtain ⟨dirty', found'⟩ := holds
        simp only [View.after, put, found, Option.map_some, Function.update_self, Option.some.injEq,
          PageRecord.mk.injEq, Residence.inFrame.injEq] at found'
        obtain ⟨⟨rfl, rfl⟩, -⟩ := found'
        exact .inl ⟨⟨dirty, found⟩, noted⟩
      · exact kept (Function.update_of_ne here ..) rfl rfl
  | swapOut | fileOut => exact same (consistent.modified_of_leave permitted.1 rfl rfl rfl rfl holds)
  | bringIn other place residence =>
      have records := view.record_after_bringIn other place residence
      have translations := view.translation_after_bringIn other place residence
      have holders := view.holder_after_bringIn other place residence
      by_cases here : key = other
      · subst here
        obtain ⟨dirty, found⟩ := holds
        rw [records, Function.update_self, Option.some.injEq, PageRecord.mk.injEq,
          Residence.inFrame.injEq] at found
        obtain ⟨⟨rfl, -⟩, -⟩ := found
        simp [View.modified, records, translations, holders] at modified
      · have record := (congrFun records key).trans (Function.update_of_ne here ..)
        have elsewhere : frame ≠ place := consistent.frame_ne (holds.of_record record) permitted.2.2
        refine kept record ?_ ?_
        · rw [translations, Function.update_of_ne here]
        · rw [holders, Function.update_of_ne elsewhere]
  | pin other place | unpin other place => exact kept rfl rfl (view.written_hold _ _ fun _ => rfl)
  | kernelWrite other place offset data =>
      by_cases here : key = other
      · exact .inr here
      · obtain ⟨lies, writes⟩ := permitted
        have elsewhere : frame ≠ place := by
          rintro rfl
          exact here (consistent.eq_of_frame (holds.of_record rfl) writes)
        exact kept rfl rfl (congrArg _ (Function.update_of_ne elsewhere ..))
  | userWrite other place offset data =>
      by_cases here : key = other
      · exact .inr here
      · exact kept rfl (Function.update_of_ne here ..) rfl
  | stain other on =>
      by_cases here : key = other
      · subst here
        cases on with
        | true => exact .inr ⟨rfl, rfl⟩
        | false =>
            refine .inl ⟨holds.of_record rfl, ?_⟩
            have cleared : ((view.after (.stain key false)).translation key).any (·.dirty) = false := by
              simp [View.after, lead, Option.any_map]
            rw [View.modified, cleared, Bool.or_false] at modified
            have noted : ((view.record key).any (·.dirty) ||
              (view.holder frame).any (·.written)) = true := modified
            rw [View.modified, Bool.or_right_comm, noted, Bool.true_or]
      · exact kept rfl (Function.update_of_ne here ..) rfl
  | install other residence =>
      exact kept (Function.update_of_ne (ne_of_holds_after_install permitted holds) ..) rfl rfl
  | drop other record saved =>
      obtain ⟨residence, dirty⟩ := record
      have found := permitted.1
      cases residence with
      | inFrame place lies =>
          exact same (consistent.modified_of_leave ⟨dirty, found⟩ rfl rfl rfl rfl holds)
      | untouched | inSwap | inFile =>
          exact kept (Function.update_of_ne (ne_of_holds_after_drop holds) ..) rfl rfl
  | scribble | litter | flush | enter | forget | create | destroy => exact kept rfl rfl rfl

/-! ## Files that do not grow -/

def Snug (view : View) (file : Nat) : Prop :=
  ∀ ⦃key window⦄, view.backing key = some (some window) → window.file = file → view.Fits window

theorem Fits.of_layout {window : FileWindow} (fits : view.Fits window)
    (same : later.layout window.file = view.layout window.file) : later.Fits window := by
  unfold Fits at fits ⊢
  rwa [same]

theorem Layout.grown_of_le {layout : Layout} {stop : Nat} (inside : stop ≤ layout.length) :
    layout.grown stop = layout := by
  unfold Layout.grown
  split
  · rw [Nat.max_eq_left inside]
  · rfl

theorem lodges_of_layout (lodges : step.Lodges view file)
    (same : later.layout file = view.layout file) : step.Lodges later file := by
  cases step with
  | install => exact fun window lies onto => (lodges window lies onto).of_layout (by rw [onto, same])
  | _ => trivial

theorem Snug.layout_after (snug : view.Snug file) (permitted : view.Permits strict step) :
    (view.after step).layout file = view.layout file := by
  cases step with
  | flush key frame window layout count =>
      obtain ⟨recorded, there, positive, -⟩ := permitted
      simp only [after, write, overwrite, Function.update_apply]
      split
      · rename_i same
        rcases snug (Holds.backing ⟨true, recorded⟩) same.symm with empty | ⟨place, found, inside⟩
        · omega
        · rw [there, Option.some.injEq] at found
          have short : ((view.contents frame).slice 0 window.length).length ≤ window.length := by
            rw [Block.length_slice]
            exact Nat.min_le_left ..
          rw [same, there, Layout.grown_of_le (by rw [found]; omega)]
      · rfl
  | bringIn key frame residence => cases residence <;> rfl
  | drop key record saved =>
      obtain ⟨residence, dirty⟩ := record
      cases residence <;> rfl
  | _ => rfl

theorem Snug.after (snug : view.Snug file) (permitted : view.Permits strict step)
    (lodges : step.Lodges view file) : (view.after step).Snug file := by
  intro key window found onto
  have same : (view.after step).layout window.file = view.layout window.file := by
    rw [onto, snug.layout_after permitted]
  rw [backing_after step permitted] at found
  cases step with
  | install other residence =>
      simp only [Function.update_apply] at found
      split at found
      · obtain ⟨-, -, -, -, rfl | ⟨lies, rfl, -⟩⟩ := id permitted
        · cases found
        · cases found
          exact (lodges window rfl onto).of_layout same
      · exact (snug found onto).of_layout same
  | drop other record saved =>
      simp only [Function.update_apply] at found
      split at found
      · cases found
      · exact (snug found onto).of_layout same
  | _ => exact (snug found onto).of_layout same

theorem fileByte_after_of_outside (alone : view.Alone file) (permitted : view.Permits strict step)
    {layout : Layout} (found : view.layout file = some layout) (inside : position < layout.length)
    (outside : ∀ request ∈ step.request?, ¬ request.Covers file position) :
    (view.after step).fileByte file position = view.fileByte file position := by
  cases step with
  | flush other frame window place count =>
      exact fileByte_after_flush alone permitted found inside
        fun same within => outside _ rfl ⟨same, within⟩
  | _ => exact fileByte_after (by simp) ..

end View

/-! ## Sequences of steps -/

namespace Path

variable {strict : Prop} {first last : View} {steps : List Step} {file position : Nat}

theorem journal (path : Path strict first steps last) :
    last.journal = (steps.filterMap Step.request?).reverse ++ first.journal := by
  induction path with
  | nil => rfl
  | @cons view last step rest permitted later ih =>
      rw [ih, View.journal_after]
      cases asked : step.request? <;> simp [asked]

theorem snug (path : Path strict first steps last) (snug : first.Snug file)
    (lodges : ∀ step ∈ steps, step.Lodges first file) :
    last.Snug file ∧ last.layout file = first.layout file := by
  refine path.keeps (motive := fun view => view.Snug file ∧ view.layout file = first.layout file)
    lodges ?_ ⟨snug, rfl⟩
  rintro view step lodges permitted ⟨snug, same⟩
  exact ⟨snug.after permitted (View.lodges_of_layout lodges same), (snug.layout_after permitted).trans same⟩

theorem alone (path : Path strict first steps last) (alone : first.Alone file) : last.Alone file := by
  induction path with
  | nil => exact alone
  | cons permitted later ih => exact ih (alone.after permitted)

theorem fileByte_of_outside (path : Path strict first steps last) (snug : first.Snug file)
    (lodges : ∀ step ∈ steps, step.Lodges first file) (alone : first.Alone file) {layout : Layout}
    (found : first.layout file = some layout) (inside : position < layout.length)
    (outside : ∀ request ∈ steps.filterMap Step.request?, ¬ request.Covers file position) :
    last.fileByte file position = first.fileByte file position := by
  induction path with
  | nil => rfl
  | @cons view last step rest permitted later ih =>
      obtain ⟨here, there⟩ := List.forall_mem_cons.mp lodges
      have asks (request : WriteRequest) (asked : request ∈ step.request?) :
          ¬ request.Covers file position :=
        outside request (List.mem_filterMap.mpr ⟨step, List.mem_cons_self, asked⟩)
      have same := snug.layout_after permitted
      rw [ih (snug.after permitted here)
        (fun step member => View.lodges_of_layout (there step member) same)
        (alone.after permitted) (same.trans found) ?_]
      · exact View.fileByte_after_of_outside alone permitted found inside asks
      · intro request member
        obtain ⟨step, listed, asked⟩ := List.mem_filterMap.mp member
        exact outside request (List.mem_filterMap.mpr ⟨step, List.mem_cons_of_mem _ listed, asked⟩)

end Path

end DemandPaging
