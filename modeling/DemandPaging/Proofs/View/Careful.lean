import DemandPaging.Proofs.View.Memory

namespace DemandPaging

def Step.Honest : Step → Prop
  | .stain _ on => on = true
  | _ => True

namespace View

variable {strict : Prop} {view : View} {key other : Nat × Nat} {frame : Nat}

/-! ## Unmodified pages agree with their files -/

theorem Faithful.carry (faithful : view.Faithful) {later : View} {window : FileWindow}
    (holds : later.Holds key frame (some window)) (clean : later.modified key frame = false)
    (record : later.record key = view.record key)
    (translation : later.translation key = view.translation key)
    (written : (later.holder frame).any (·.written) = (view.holder frame).any (·.written))
    (contents : later.contents frame = view.contents frame)
    (bytes : ∀ i < window.length, later.fileByte window.file (window.offset + i) =
      view.fileByte window.file (window.offset + i)) : later.Saved frame window := by
  have before : view.Holds key frame (some window) := by
    obtain ⟨dirty, found⟩ := holds
    exact ⟨dirty, record ▸ found⟩
  have same : view.modified key frame = false := by
    rw [← clean, modified, modified, record, translation, written]
  intro i small
  rw [contents, bytes i small]
  exact faithful before same i small

theorem Consistent.exists_translation (consistent : view.Consistent) {window : Option FileWindow}
    (holds : view.Holds key frame window) :
    ∃ dirty, view.translation key = some ⟨frame, dirty⟩ := by
  have mapped := (consistent.translated key).trans holds.frameOf
  simp only [target, Option.map_eq_some_iff] at mapped
  obtain ⟨⟨place, dirty⟩, found, rfl⟩ := mapped
  exact ⟨dirty, found⟩

theorem modified_of_stained (consistent : view.Consistent) {later : View}
    {window : Option FileWindow} (holds : view.Holds key frame window)
    (stained : later.translation key =
      (view.translation key).map fun translation => { translation with dirty := true }) :
    later.modified key frame = true := by
  obtain ⟨dirty, mapped⟩ := consistent.exists_translation holds
  simp [modified, stained, mapped]

theorem modified_of_written (consistent : view.Consistent) {later : View}
    {window : Option FileWindow} (holds : view.Holds key frame window)
    (written : later.holder frame =
      (view.holder frame).map fun holder => { holder with written := true }) :
    later.modified key frame = true := by
  obtain ⟨pins, before, held⟩ := consistent.exists_holder holds
  simp [modified, written, held]

theorem Faithful.leave (faithful : view.Faithful) (consistent : view.Consistent) {later : View}
    {next : Option PageRecord} {place : Nat} {lies : Option FileWindow}
    (leaves : view.Holds other place lies) (away : next.bind (·.residence.frame?) = none)
    (record : later.record = Function.update view.record other next)
    (translation : later.translation = Function.update view.translation other none)
    (holder : later.holder = Function.update view.holder place none)
    (contents : later.contents = view.contents) (layout : later.layout = view.layout)
    (byte : later.byte = view.byte) : later.Faithful := by
  intro key frame window holds clean
  obtain ⟨dirty, found⟩ := holds.recorded
  have distinct : key ≠ other := by
    rintro rfl
    rw [record, Function.update_self] at found
    simp [found, Residence.frame?] at away
  have same : later.record key = view.record key := by
    rw [record, Function.update_of_ne distinct]
  have elsewhere : frame ≠ place := by
    rintro rfl
    exact distinct (consistent.eq_of_frame ⟨dirty, same ▸ found⟩ leaves)
  refine faithful.carry holds clean same ?_ ?_ (by rw [contents]) fun i _ => ?_
  · rw [translation, Function.update_of_ne distinct]
  · rw [holder, Function.update_of_ne elsewhere]
  · rw [fileByte, fileByte, layout, byte]

theorem Faithful.written (faithful : view.Faithful) (consistent : view.Consistent) {later : View}
    {place : Nat} {lies : Option FileWindow} (writes : view.Holds other place lies)
    (modified : later.modified other place = true) (record : later.record = view.record)
    (translation : ∀ key, key ≠ other → later.translation key = view.translation key)
    (elsewhere : ∀ frame, frame ≠ place → later.holder frame = view.holder frame ∧
      later.contents frame = view.contents frame)
    (layout : later.layout = view.layout) (byte : later.byte = view.byte) : later.Faithful := by
  intro key frame window holds clean
  obtain ⟨dirty, found⟩ := holds.recorded
  have distinct : key ≠ other := by
    rintro rfl
    have here : view.Holds key frame (some window) := ⟨dirty, record ▸ found⟩
    have unique : frame = place := Option.some.inj (here.frameOf.symm.trans writes.frameOf)
    rw [unique, modified] at clean
    cases clean
  have apart : frame ≠ place := by
    rintro rfl
    exact distinct (consistent.eq_of_frame ⟨dirty, record ▸ found⟩ writes)
  refine faithful.carry holds clean (by rw [record]) (translation key distinct) ?_
    (elsewhere frame apart).2 fun i _ => ?_
  · rw [(elsewhere frame apart).1]
  · rw [fileByte, fileByte, layout, byte]

theorem Faithful.bringIn (careful : view.Careful) (consistent : view.Consistent)
    {residence : Residence} (permitted : view.Permits strict (.bringIn other frame residence)) :
    (view.after (.bringIn other frame residence)).Faithful := by
  intro key place window holds clean
  have records := view.record_after_bringIn other frame residence
  have contents := view.contents_after_bringIn other frame residence
  obtain ⟨⟨dirty, here⟩, away, free⟩ := permitted
  obtain ⟨dirty', found⟩ := holds.recorded
  by_cases same : key = other
  · subst same
    rw [records, Function.update_self, Option.some.injEq, PageRecord.mk.injEq] at found
    obtain ⟨found, -⟩ := found
    cases residence with
    | inFile lies =>
        cases found
        intro i small
        rw [contents, Function.update_self]
        have backing : view.backing key = some (some window) := backing_of_record here
        exact getElem?_windowPage (careful.backed backing) small
    | inFrame => cases away
    | untouched | inSwap => simp [Residence.window?] at found
  · have before : (view.after (.bringIn other frame residence)).record key = view.record key := by
      rw [records, Function.update_of_ne same]
    have elsewhere : place ≠ frame := consistent.frame_ne ⟨dirty', before ▸ found⟩ free
    refine careful.faithful.carry holds clean before ?_ ?_
      (by rw [contents, Function.update_of_ne elsewhere]) fun i _ => ?_
    · cases residence <;> exact Function.update_of_ne same ..
    · apply congrArg (Option.any _)
      cases residence <;> exact Function.update_of_ne elsewhere ..
    · cases residence <;> rfl

/-- What is not known to be modified still agrees with its file after a step. -/
theorem Faithful.after (careful : view.Careful) (consistent : view.Consistent) {step : Step}
    (honest : step.Honest) (permitted : view.Permits strict step) :
    (view.after step).Faithful := by
  have faithful := careful.faithful
  cases step with
  | scribble free page =>
      intro key frame window holds clean
      have elsewhere : frame ≠ free := consistent.frame_ne holds permitted
      -- Only free frames are scribbled on.
      exact faithful.carry holds clean rfl rfl rfl (Function.update_of_ne elsewhere ..) fun _ _ => rfl
  | soil other =>
      intro key frame window holds clean
      by_cases same : key = other
      · subst same
        obtain ⟨place, lies, ⟨dirty, found⟩, -⟩ := permitted
        simp [modified, View.after, put, found] at clean
      · exact faithful.carry holds clean (Function.update_of_ne same ..) rfl rfl rfl fun _ _ => rfl
  | flush other place lies layout count =>
      intro key frame window holds clean
      have backing : view.backing key = some (some window) :=
        Holds.backing (show view.Holds key frame (some window) from holds)
      have distinct : key ≠ other := by
        rintro rfl
        have recorded : (view.after (.flush key place lies layout count)).record key = _ :=
          permitted.1
        simp [modified, recorded] at clean
      exact faithful.carry holds clean rfl rfl rfl rfl fun i small =>
        careful.fileByte_after_flush permitted backing distinct small
  | swapOut other place slot =>
      exact faithful.leave consistent permitted.1 rfl rfl rfl rfl rfl rfl rfl
  | fileOut other place window =>
      exact faithful.leave consistent permitted.1 rfl rfl rfl rfl rfl rfl rfl
  | bringIn => exact .bringIn careful consistent permitted
  | pin other place | unpin other place =>
      intro key frame window holds clean
      exact faithful.carry holds clean rfl rfl (view.written_hold _ _ fun _ => rfl) rfl
        fun _ _ => rfl
  | kernelWrite other place offset data =>
      obtain ⟨window, writes⟩ := permitted
      exact faithful.written consistent writes
        (modified_of_written consistent writes (Function.update_self ..)) rfl (fun _ _ => rfl)
        (fun frame distinct => ⟨Function.update_of_ne distinct .., Function.update_of_ne distinct ..⟩)
        rfl rfl
  | userWrite other place offset data =>
      obtain ⟨window, writes⟩ := permitted
      exact faithful.written consistent writes
        (modified_of_stained consistent writes (Function.update_self ..)) rfl
        (fun key distinct => Function.update_of_ne distinct ..)
        (fun frame distinct => ⟨rfl, Function.update_of_ne distinct ..⟩) rfl rfl
  | stain other on =>
      cases honest
      intro key frame window holds clean
      by_cases same : key = other
      · subst same
        rw [modified_of_stained consistent holds (Function.update_self ..)] at clean
        cases clean
      · exact faithful.carry holds clean rfl (Function.update_of_ne same ..) rfl rfl fun _ _ => rfl
  | install other residence =>
      intro key frame window holds clean
      have distinct := ne_of_holds_after_install permitted holds
      exact faithful.carry holds clean (Function.update_of_ne distinct ..) rfl rfl rfl
        fun _ _ => rfl
  | drop other record saved =>
      obtain ⟨residence, dirty⟩ := record
      have found := permitted.1
      cases residence with
      | inFrame place lies =>
          exact faithful.leave consistent ⟨dirty, found⟩ rfl rfl rfl rfl rfl rfl rfl
      | untouched | inSwap | inFile =>
          intro key frame window holds clean
          have distinct := ne_of_holds_after_drop holds
          exact faithful.carry holds clean (Function.update_of_ne distinct ..) rfl rfl rfl
            fun _ _ => rfl
  | litter | enter | forget | create | destroy => exact faithful

theorem Alone.after {file : Nat} (alone : view.Alone file) {step : Step}
    (permitted : view.Permits strict step) : (view.after step).Alone file := by
  cases step with
  | flush key frame window layout count =>
      obtain ⟨-, there, -, -⟩ := permitted
      -- A file that shares its bank has not grown.
      have origin {file : Nat} {later : Layout}
          (found : (view.after (.flush key frame window layout count)).layout file = some later) :
          ∃ before, view.layout file = some before ∧ later.bank = before.bank ∧
            ((∃ index, before.bank = .device index) → later = before) := by
        simp only [View.after, write, overwrite, Function.update_apply] at found
        split at found
        · rename_i same
          cases found
          refine ⟨layout, same ▸ there, Layout.bank_grown .., ?_⟩
          rintro ⟨index, fixed⟩
          simp [Layout.grown, fixed]
        · exact ⟨later, found, rfl, fun _ => rfl⟩
      intro other layout place distinct found found' shared
      obtain ⟨before, was, bank, kept⟩ := origin found
      obtain ⟨before', was', bank', kept'⟩ := origin found'
      have old := alone distinct was was' (bank ▸ bank' ▸ shared)
      have fixed' : ∃ index, before'.bank = .device index := by
        rw [← bank', ← shared, bank]
        exact old.1
      rw [kept old.1, kept' fixed']
      exact old
  | bringIn key frame residence => cases residence <;> exact alone
  | drop key record saved =>
      obtain ⟨residence, dirty⟩ := record
      cases residence <;> exact alone
  | _ => exact alone

theorem Disjoint.after (disjoint : view.Disjoint) {step : Step}
    (permitted : view.Permits strict step) : (view.after step).Disjoint := by
  intro file other layout place
  have alone : view.Alone file := fun _ _ _ distinct => disjoint distinct
  exact fun distinct => alone.after permitted distinct

end View

/-! ## Sequences that only add pages, or only give them up -/

def Step.AddsNone : Step → Prop
  | .install _ _ => False
  | _ => True

def Step.DropsNone : Step → Prop
  | .drop _ _ _ => False
  | _ => True

def OneWay (steps : List Step) : Prop :=
  (∀ step ∈ steps, step.AddsNone) ∨ ∀ step ∈ steps, step.DropsNone

namespace View

variable {strict : Prop} {view : View} {key : Nat × Nat} {backing : Option FileWindow}

theorem backing_before {step : Step} (addsNone : step.AddsNone)
    (permitted : view.Permits strict step)
    (found : (view.after step).backing key = some backing) : view.backing key = some backing := by
  rw [backing_after step permitted] at found
  cases step with
  | install => exact addsNone.elim
  | drop other record saved =>
      simp only [Function.update_apply] at found
      split at found
      · cases found
      · exact found
  | _ => exact found

theorem backing_later {step : Step} (dropsNone : step.DropsNone)
    (permitted : view.Permits strict step) (found : view.backing key = some backing) :
    (view.after step).backing key = some backing := by
  rw [backing_after step permitted]
  cases step with
  | drop => exact dropsNone.elim
  | install other residence =>
      have distinct : key ≠ other := by
        rintro rfl
        simp [View.backing, permitted.2.1] at found
      exact (Function.update_of_ne distinct ..).trans found
  | _ => exact found

theorem Unshared.of_backing {later : View} (unshared : view.Unshared)
    (kept : ∀ key window, later.backing key = some (some window) →
      view.backing key = some (some window)) : later.Unshared :=
  fun _ _ _ _ distinct found found' => unshared distinct (kept _ _ found) (kept _ _ found')

theorem Careful.after (careful : view.Careful) (consistent : view.Consistent) (holds : strict)
    {step : Step} (honest : step.Honest) (permitted : view.Permits strict step)
    (unshared : (view.after step).Unshared) : (view.after step).Careful where
  backed := careful.backed.after holds step permitted
  faithful := .after careful consistent honest permitted
  disjoint := careful.disjoint.after permitted
  unshared := unshared

end View

namespace Path

variable {strict : Prop} {first last : View} {steps : List Step} {key : Nat × Nat}
  {backing : Option FileWindow}

theorem backing_before (path : Path strict first steps last)
    (addsNone : ∀ step ∈ steps, step.AddsNone) (found : last.backing key = some backing) :
    first.backing key = some backing := by
  induction path with
  | nil => exact found
  | cons permitted later ih =>
      obtain ⟨here, there⟩ := List.forall_mem_cons.mp addsNone
      exact View.backing_before here permitted (ih there found)

theorem backing_later (path : Path strict first steps last)
    (dropsNone : ∀ step ∈ steps, step.DropsNone) (found : first.backing key = some backing) :
    last.backing key = some backing := by
  induction path with
  | nil => exact found
  | cons permitted later ih =>
      obtain ⟨here, there⟩ := List.forall_mem_cons.mp dropsNone
      exact ih there (View.backing_later here permitted found)

theorem backing_eq (path : Path strict first steps last) (oneWay : OneWay steps)
    (found : first.backing key = some backing) (kept : last.record key ≠ none) :
    last.backing key = some backing := by
  obtain ⟨record, recorded⟩ := Option.ne_none_iff_exists'.mp kept
  have stays := View.backing_of_record recorded
  rcases oneWay with addsNone | dropsNone
  · rw [stays, ← path.backing_before addsNone stays, found]
  · exact path.backing_later dropsNone found

def Apart (steps : List Step) (last : View) : Prop :=
  (∀ step ∈ steps, step.AddsNone) ∨ (∀ step ∈ steps, step.DropsNone) ∧ last.Unshared

theorem Apart.next {view : View} {step : Step} {rest : List Step}
    (apart : Apart (step :: rest) last) (unshared : view.Unshared)
    (permitted : view.Permits strict step) (later : Path strict (view.after step) rest last) :
    (view.after step).Unshared ∧ Apart rest last := by
  rcases apart with addsNone | ⟨dropsNone, clear⟩
  · obtain ⟨here, there⟩ := List.forall_mem_cons.mp addsNone
    exact ⟨unshared.of_backing fun _ _ => View.backing_before here permitted, .inl there⟩
  · obtain ⟨-, there⟩ := List.forall_mem_cons.mp dropsNone
    exact ⟨clear.of_backing fun _ _ => later.backing_later there, .inr ⟨there, clear⟩⟩

theorem careful (path : Path strict first steps last) (holds : strict)
    (consistent : first.Consistent) (careful : first.Careful)
    (honest : ∀ step ∈ steps, step.Honest) (apart : Apart steps last) : last.Careful := by
  induction path with
  | nil => exact careful
  | cons permitted later ih =>
      obtain ⟨here, there⟩ := List.forall_mem_cons.mp honest
      obtain ⟨unshared, apart⟩ := apart.next careful.unshared permitted later
      exact ih (consistent.after permitted)
        (careful.after consistent holds here permitted unshared) there apart

/-- Over a sequence of steps, a page that stays holds what it held, with the writes over it. -/
theorem logical (path : Path strict first steps last) (consistent : first.Consistent)
    (oneWay : OneWay steps)
    (found : first.backing key = some backing) (found' : last.backing key = some backing)
    (safe : backing = none ∨
      strict ∧ first.Careful ∧ (∀ step ∈ steps, step.Honest) ∧ Apart steps last) :
    last.logical key = effects steps first.logical key := by
  induction path with
  | nil => rfl
  | @cons view last step rest permitted later ih =>
      -- The page is on record in between as well, for no page both comes and goes.
      have middle : (view.after step).backing key = some backing := by
        rcases oneWay with addsNone | dropsNone
        · exact later.backing_before (List.forall_mem_cons.mp addsNone).2 found'
        · exact View.backing_later (List.forall_mem_cons.mp dropsNone).1 permitted found
      have recorded {view : View} (found : view.backing key = some backing) :
          view.record key ≠ none := by
        intro absent
        simp [View.backing, absent] at found
      have here := View.logical_after consistent permitted (recorded found) (recorded middle)
        (safe.imp (fun anonymous => by rw [found, anonymous]) fun known => known.2.1)
      rw [ih (consistent.after permitted)
        (oneWay.imp (fun none => (List.forall_mem_cons.mp none).2)
          fun none => (List.forall_mem_cons.mp none).2) middle found' ?_]
      · exact effects_congr here
      · rcases safe with anonymous | ⟨holds, careful, honest, apart⟩
        · exact .inl anonymous
        · obtain ⟨honestHere, honestLater⟩ := List.forall_mem_cons.mp honest
          obtain ⟨unshared, apart⟩ := apart.next careful.unshared permitted later
          exact .inr ⟨holds, careful.after consistent holds honestHere permitted unshared, honestLater,
            apart⟩

end Path

end DemandPaging
