import DemandPaging.Machine.Mapping
import DemandPaging.Proofs.Machine.PinRange

namespace DemandPaging

def Step.Maps (id : Nat) (adds : Nat → Residence → Prop) : Step → Prop
  | .install key residence => key.1 = id ∧ adds key.2 residence
  | .enter key _ => key.1 = id
  | _ => False

def Step.Unmaps (id : Nat) (drops : Nat → Prop) (safe : Prop) : Step → Prop
  | .soil key | .flush key _ _ _ _ | .forget key => key.1 = id
  | .drop key _ saved => key.1 = id ∧ drops key.2 ∧ (safe → saved = true)
  | _ => False

section Kinds

variable {id : Nat} {adds more : Nat → Residence → Prop} {drops others : Nat → Prop}
  {safe wanted : Prop} {step : Step}

theorem Step.Maps.mono (maps : step.Maps id adds)
    (implied : ∀ page residence, adds page residence → more page residence) : step.Maps id more := by
  cases step with
  | install => exact ⟨maps.1, implied _ _ maps.2⟩
  | enter => exact maps
  | _ => exact maps.elim

theorem Step.Maps.inner (maps : step.Maps id adds) : step.Inner := by
  cases step with
  | create | destroy => exact maps.elim
  | _ => trivial

theorem Step.Maps.spares (maps : step.Maps id adds) (key : Nat × Nat) : step.Spares key := by
  cases step with
  | install | enter => exact ⟨fun _ => rfl, nofun, trivial⟩
  | _ => exact maps.elim

theorem Step.Unmaps.inner (unmaps : step.Unmaps id drops safe) : step.Inner := by
  cases step with
  | create | destroy => exact unmaps.elim
  | _ => trivial

theorem Step.Unmaps.mono (unmaps : step.Unmaps id drops safe) (implied : wanted → safe)
    (dropped : ∀ page, drops page → others page) : step.Unmaps id others wanted := by
  cases step with
  | drop => exact ⟨unmaps.1, dropped _ unmaps.2.1, fun wanted => unmaps.2.2 (implied wanted)⟩
  | soil | flush | forget => exact unmaps
  | _ => exact unmaps.elim

theorem Step.Unmaps.spares (unmaps : step.Unmaps id drops safe) {key : Nat × Nat}
    (kept : ¬ (key.1 = id ∧ drops key.2)) : step.Spares key := by
  cases step with
  | soil | flush | forget => exact ⟨fun _ => rfl, nofun, trivial⟩
  | drop other record saved =>
      have distinct : key ≠ other := by
        rintro rfl
        exact kept ⟨unmaps.1, unmaps.2.1⟩
      refine ⟨fun pins => Function.update_of_ne distinct .., ?_, trivial⟩
      rintro _ _ same
      cases same
      exact distinct rfl
  | _ => exact unmaps.elim

theorem Step.Unmaps.tally_eq_zero (unmaps : step.Unmaps id drops safe) {key : Nat × Nat}
    {pins : Nat × Nat → Nat} (free : pins key = 0) : step.tally pins key = 0 := by
  cases step with
  | soil | flush | forget => exact free
  | drop other record saved =>
      rw [Step.tally, Function.update_apply]
      split
      · rfl
      · exact free
  | _ => exact unmaps.elim

end Kinds

theorem View.put_after_flush (view : View) (key : Nat × Nat) (frame : Nat) (window : FileWindow)
    (layout : Layout) (count : Nat) (record : Option PageRecord) :
    ((view.after (.soil key)).after (.flush key frame window layout count)).put key record =
      (view.put key record).write window.file layout window.offset
        ((view.contents frame).slice 0 window.length) count := by
  simp only [after, put, write, overwrite, Function.update_idem]

namespace Machine

open DemandPaging.Action

variable {strict : Prop} {machine middle : Machine} {log : Array Event} {id page frame : Nat}

theorem Through.live_of_unmaps {drops : Nat → Prop} {safe : Prop} {after : Machine}
    (through : machine.Through strict (Step.Unmaps id drops safe) after) {other : Nat}
    (live : machine.view.live other = true) : after.view.live other = true := by
  rw [through.live_eq fun _ => Step.Unmaps.inner]
  exact live

/-! ## Mapping -/

theorem same_withSpace {space : Space} (shaped : machine.Shaped strict)
    (found : machine.store.spaces[id]? = some space) :
    machine.Same strict (machine.withSpace id space) :=
  ⟨view_withDirectory_same found rfl, shaped.keepDirectory found rfl⟩

theorem addPage_spec (shaped : machine.Shaped strict) (live : machine.view.live id = true)
    {residence : Residence} (kind : residence = .untouched ∨
      ∃ window, residence = .inFile window ∧ (strict → machine.view.Fits window)) :
    (addPage id page residence).Ensures ⟨machine, log⟩
      (fun _ (after : Traced Machine) =>
        Moves strict machine [.install (id, page) residence] after.state)
      (fun cause (after : Traced Machine) =>
        machine.Same strict after.state ∧ cause ≠ .outOfSwap) fun _ _ => False := by
  obtain ⟨space, found⟩ := exists_space live
  have same := same_withSpace shaped found
  rw [addPage, ensures_onCatalog found, Catalog.install]
  simp only [ensures_bind, ensures_require, ensures_look, ensures_emit, ensures_update]
  split
  · rename_i proper
    split
    · rename_i absent
      have unrecorded : machine.view.record (id, page) = none := by
        rw [record_eq found]
        exact Option.isNone_iff_eq_none.mp absent
      refine .single (.install (id, page) residence)
        ⟨live, unrecorded, proper.1, proper.2, kind⟩ ?_
        (shaped.keepDirectory found rfl)
      exact view_withCatalog found (funext fun other => by
        rw [Catalog.find?_put, Function.update_apply])
    · exact ⟨same, by simp⟩
  · exact ⟨same, by simp⟩

def windowAt (file size offset length i : Nat) : FileWindow where
  file := file
  offset := offset + pageSize * i
  length := min (min pageSize (length - pageSize * i)) (size - (offset + pageSize * i))
  short := Nat.le_trans (Nat.min_le_left ..) (Nat.min_le_left ..)

theorem cutWindow_eq {file size offset length i : Nat} (bound : offset + length < wordLimit)
    (reached : pageSize * i < length) :
    cutWindow file size offset length i = .ok (windowAt file size offset length i) := by
  have starts : mulWord i pageSize = .ok (pageSize * i) := by
    rw [mulWord_eq (by rw [Nat.mul_comm]; omega), Nat.mul_comm]
  simp [cutWindow, starts, addWord_eq (show offset + pageSize * i < wordLimit by omega),
    subWord_eq reached.le, FileWindow.make, windowAt, bind, Except.bind]

theorem reached_of_covering {start length i : Nat} {span : PageSpan} (positive : 0 < length)
    (aligned : Aligned start) (covered : PageSpan.covering start length = .ok span)
    (small : i < span.count) : pageSize * i < length := by
  obtain ⟨first, ⟨empty, -⟩ | ⟨-, -, stops⟩⟩ := PageSpan.covering_eq covered
  · omega
  · rw [PageSpan.nth, first, pageOf_eq_self aligned] at stops
    simp only [pageSize] at stops ⊢
    omega

theorem fits_windowAt {view : View} {file offset length i : Nat} {layout : Layout}
    (there : view.layout file = some layout) :
    view.Fits (windowAt file layout.length offset length i) := by
  simp only [View.Fits, windowAt]
  by_cases past : layout.length ≤ offset + pageSize * i
  · exact .inl (by omega)
  · exact .inr ⟨layout, there, by omega⟩

theorem layout_of_file {file : Nat} {opened : File}
    (known : machine.store.storage.file file = .ok opened) :
    ∃ layout, machine.view.layout file = some layout ∧ layout.length = opened.length := by
  unfold Storage.file at known
  split at known
  · rename_i found there
    cases known
    simp only [view, Storage.layout, there, Option.map_some]
    refine ⟨_, rfl, ?_⟩
    cases opened <;> rfl
  · cases known

theorem layout_of_no_file {file : Nat} {cause : Panic}
    (known : machine.store.storage.file file = .error cause) : machine.view.layout file = none := by
  unfold Storage.file at known
  split at known
  · cases known
  · rename_i absent
    simp only [view, Storage.layout, absent, Option.map_none]

theorem enterRegion_spec (shaped : machine.Shaped strict) (live : machine.view.live id = true)
    {region : Region} (aligned : Aligned region.start)
    (user : IsUserRange region.start region.length) :
    (onSpace id (Space.enterRegion region) : Action PagingError Machine Nat).Ensures ⟨machine, log⟩
      (fun number (after : Traced Machine) =>
        Moves strict machine [.enter (id, number) region] after.state)
      (fun _ _ => False) (Excused strict) := by
  obtain ⟨space, found⟩ := exists_space live
  rw [ensures_onSpace found, Space.enterRegion]
  simp only [ensures_bind, ensures_look, ensures_insist, ensures_update, ensures_pure]
  split
  · refine .single (.enter (id, space.nextRegion) region)
      ⟨live, nextRegion_eq found, aligned, user⟩ ?_ (shaped.keepDirectory found rfl)
    rw [view_withRegions found]
    refine View.ext rfl rfl rfl rfl rfl rfl rfl ?_ rfl rfl rfl rfl rfl rfl
    have inserted (number : Nat) : (space.regions.insert space.nextRegion region)[number]? =
        Function.update (space.regions[·]?) space.nextRegion (some region) number := by
      rw [Std.ExtTreeMap.getElem?_insert, Function.update_apply]
      simp only [Nat.compare_eq_eq, eq_comm (a := number)]
    simp only [inserted]
    exact within_space_update (fun _ => region_eq found) space.nextRegion (some region)
  · rename_i worn
    refine fun _ => .countOverflow (.inr (.inr ⟨id, space, ?_, Nat.le_of_not_lt worn⟩))
    rw [getElem?_withSpace, if_pos rfl]

theorem addPages_spec (shaped : machine.Shaped strict) (live : machine.view.live id = true)
    (place : Nat → Nat) (window : Nat → FileWindow)
    (fits : strict → ∀ i, machine.view.Fits (window i)) (indices : List Nat) :
    (indices.forM fun i => addPage id (place i) (.inFile (window i))).Ensures ⟨machine, log⟩
      (fun _ (after : Traced Machine) => machine.Through strict
          (Step.Maps id fun page residence =>
            ∃ i ∈ indices, page = place i ∧ residence = .inFile (window i)) after.state ∧
        after.state.view.live id = true)
      (fun cause (after : Traced Machine) => machine.Through strict
          (Step.Maps id fun page residence =>
            ∃ i ∈ indices, page = place i ∧ residence = .inFile (window i)) after.state ∧
        cause ≠ .outOfSwap)
      fun _ _ => False := by
  refine Ensures.mono (Ensures.forM (fun coming (after : Traced Machine) =>
    (∀ i ∈ coming, i ∈ indices) ∧ machine.Through strict (Step.Maps id fun page residence =>
      ∃ i ∈ indices, page = place i ∧ residence = .inFile (window i)) after.state ∧
      after.state.view.live id = true ∧ after.state.view.layout = machine.view.layout) ?_ indices
      ⟨fun _ member => member, .refl shaped, live, rfl⟩)
    (fun _ _ known => ⟨known.2.1, known.2.2.1⟩) (fun _ _ failed => failed) fun _ _ never => never
  rintro i rest ⟨(middle : Machine), log⟩ ⟨listed, through, alive, layouts⟩
  obtain ⟨here, there⟩ := List.forall_mem_cons.mp listed
  have still (holds : strict) : middle.view.Fits (window i) := by
    have before := fits holds i
    unfold View.Fits at before ⊢
    rwa [layouts]
  refine Ensures.mono (addPage_spec through.shaped alive (.inr ⟨_, rfl, still⟩)) ?_ ?_
    fun _ _ never => never
  · rintro _ ⟨(after : Machine), log⟩ moves
    have seen := moves.path.of_single.2
    refine ⟨there, through.trans (moves.through ⟨rfl, i, here, rfl, rfl⟩), ?_, ?_⟩
    · rw [seen]
      exact alive
    · rw [seen]
      exact layouts
  · exact fun _ _ failed =>
      ⟨through.trans (failed.1.through (.refl failed.1.shaped)), failed.2⟩

def MapsFile (view : View) (start file offset length page : Nat) (residence : Residence) : Prop :=
  ∃ layout i, view.layout file = some layout ∧ page = pageOf start + pageSize * i ∧
    page ∈ pagesIn start length ∧
      residence = .inFile (windowAt file layout.length offset length i)

def Mappable (start offset length : Nat) : Prop :=
  0 < length ∧ Aligned start ∧ Aligned offset ∧ IsUserRange start length ∧
    offset + length < wordLimit

instance (start offset length : Nat) : Decidable (Mappable start offset length) :=
  inferInstanceAs (Decidable (_ ∧ _))

/-- Mapping a file is a check of what is asked for, a check that no page of the range is there, the
addition of the pages, and the record of the mapping. -/
theorem ensures_mapFile {space : Space} (found : machine.store.spaces[id]? = some space)
    {start file offset length : Nat} {returns : Nat → Traced Machine → Prop}
    {fails : PagingError → Traced Machine → Prop} {panics : Panic → Traced Machine → Prop}
    (improper : ¬ Mappable start offset length → fails .badAddress ⟨machine, log⟩)
    (missing : ∀ cause, machine.store.storage.file file = .error cause →
      panics cause ⟨machine, log⟩)
    (proper : ∀ span opened, Mappable start offset length →
      PageSpan.covering start length = .ok span → machine.store.storage.file file = .ok opened →
        if (space.catalog.within span).isEmpty then
          ((List.range span.count).forM fun i => addPage id (span.nth i)
            (.inFile (windowAt file opened.length offset length i))).Ensures ⟨machine, log⟩
            (fun _ middle => (onSpace id (Space.enterRegion ⟨start, length⟩)).Ensures middle
              (fun number after => returns number
                { after with log := after.log.push (.fileMapped id number start length) })
              fails panics)
            fails panics
        else fails .alreadyMapped ⟨machine, log⟩) :
    (mapFile id start file offset length).Ensures ⟨machine, log⟩ returns fails panics := by
  rw [mapFile, ensures_bind, ensures_require]
  split
  · rename_i asked
    obtain ⟨span, covered⟩ := PageSpan.exists_covering asked.2.2.2.1
    -- No page lies past the end of the stretch, so every window can be cut.
    have adds (size : Nat) : ((List.range span.count).forM fun i => do
          let window ← orPanic (cutWindow file size offset length i)
          addPage id (span.nth i) (.inFile window)) =
        (List.range span.count).forM fun i =>
          addPage id (span.nth i) (.inFile (windowAt file size offset length i)) := by
      refine forM_congr fun i member => ?_
      have reached := reached_of_covering asked.1 asked.2.1 covered (List.mem_range.mp member)
      rw [cutWindow_eq asked.2.2.2.2 reached, orPanic_ok, pure_bind]
    simp only [look, ensures_bind, ensures_look, ensures_orPanic]
    cases known : machine.store.storage.file file with
    | error cause => exact missing cause known
    | ok opened =>
        dsimp only
        rw [ensures_space found]
        have free : space.catalog.isFree start length = .ok (space.catalog.within span).isEmpty := by
          rw [Catalog.isFree, covered]
          rfl
        simp only [free, covered, adds, ensures_require, ensures_emit]
        exact proper span opened asked covered known
  · rename_i refused
    exact improper refused

theorem mapFile_spec (sound : machine.Sound strict) (live : machine.view.live id = true)
    {start file offset length : Nat} : (mapFile id start file offset length).Ensures ⟨machine, log⟩
      (fun _ (after : Traced Machine) => machine.Through strict
        (Step.Maps id (MapsFile machine.view start file offset length)) after.state)
      (fun cause (after : Traced Machine) => machine.Through strict
        (Step.Maps id (MapsFile machine.view start file offset length)) after.state ∧
          cause ≠ .outOfSwap)
      (Excused (strict ∧ (machine.view.layout file).isSome)) := by
  obtain ⟨space, found⟩ := exists_space live
  refine ensures_mapFile found (fun _ => ⟨.refl sound.shaped, by simp⟩) ?_ ?_
  · rintro cause known ⟨-, there⟩
    rw [layout_of_no_file known] at there
    cases there
  · rintro span opened ⟨-, aligned, -, user, -⟩ covered known
    obtain ⟨layout, there, size⟩ := layout_of_file known
    -- No window reaches past the file, as each of them was cut to what is there.
    have fits (_ : strict) (i : Nat) :
        machine.view.Fits (windowAt file opened.length offset length i) := by
      rw [← size]
      exact fits_windowAt there
    have maps (step : Step) (kind : step.Maps id fun page residence =>
        ∃ i ∈ List.range span.count, page = span.nth i ∧
          residence = .inFile (windowAt file opened.length offset length i)) :
        step.Maps id (MapsFile machine.view start file offset length) := by
      refine kind.mono ?_
      rintro _ _ ⟨i, small, rfl, rfl⟩
      refine ⟨layout, i, there, ?_, ?_, by rw [size]⟩
      · rw [PageSpan.nth, (PageSpan.covering_eq covered).1]
      · rw [pagesIn_eq covered]
        exact List.mem_map_of_mem small
    split
    · refine Ensures.mono (addPages_spec sound.shaped live span.nth _ fits _) ?_
        (fun _ _ failed => ⟨failed.1.mono maps, failed.2⟩) fun _ _ never => never.elim
      rintro _ ⟨(mapped : Machine), log⟩ ⟨through, alive⟩
      refine Ensures.mono (enterRegion_spec through.shaped alive aligned user) ?_
        (fun _ _ never => never.elim) fun _ _ excused => excused.mono And.left
      exact fun _ _ moves => (through.mono maps).trans (moves.through rfl)
    · exact ⟨.refl sound.shaped, by simp⟩

/-! ## Giving up a page -/

structure Removed (strict : Prop) (before : Machine) (id page : Nat) (safe : Prop)
    (after : Machine) : Prop where
  through : before.Through strict (Step.Unmaps id (· = page) safe) after
  record : after.view.record = Function.update before.view.record (id, page) none
  translation : after.view.translation = Function.update before.view.translation (id, page) none
  journal : after.view.journal =
    (before.view.writeBack? (id, page)).toList ++ before.view.journal

structure Flushed (strict : Prop) (before : View) (key : Nat × Nat) (frame : Nat)
    (window : Option FileWindow) (safe : Prop) (middle : View) : Prop where
  path : ∃ steps, Path strict before steps middle ∧
    ∀ step ∈ steps, ∀ drops safe, step.Unmaps key.1 drops safe
  same : ∃ record, middle.record = Function.update before.record key (some record) ∧
    record.residence = .inFrame frame window
  places : middle.live = before.live ∧ middle.holder = before.holder ∧
    middle.translation = before.translation
  journal : middle.journal = (before.writeBack? key).toList ++ before.journal
  saved : safe → ∀ lies, window = some lies →
    middle.modified key frame = false ∨ middle.Saved frame lies

theorem flushed_of_flush {view : View} {key : Nat × Nat} {window : FileWindow} {layout : Layout}
    {count : Nat} {safe : Prop} (holds : view.Holds key frame (some window))
    (modified : view.modified key frame = true) (there : view.layout window.file = some layout)
    (positive : 0 < window.length) (few : count ≤ window.length)
    (takes : layout.Takes window.offset count) (whole : safe → count = window.length) :
    Flushed strict view key frame (some window) safe
      ((view.after (.soil key)).after (.flush key frame window layout count)) := by
  obtain ⟨dirty, recorded⟩ := holds.recorded
  have soiled : (view.after (.soil key)).record =
      Function.update view.record key (some ⟨.inFrame frame (some window), true⟩) := by
    simp [View.after, View.put, recorded]
  refine ⟨⟨[.soil key, .flush key frame window layout count], ?_, by simp [Step.Unmaps]⟩,
    ⟨_, soiled, rfl⟩, ⟨rfl, rfl, rfl⟩, ?_, ?_⟩
  · refine .cons ⟨frame, some window, holds, modified⟩ (.single ⟨?_, there, positive, few, takes⟩)
    rw [soiled, Function.update_self]
  · rw [View.writeBack?_of_resident holds, if_pos ⟨positive, modified⟩]
    exact View.journal_after_flush ..
  · intro well lies here
    cases here
    rw [whole well]
    exact .inr (View.saved_write _ frame window layout)

theorem flushed_of_clean {view : View} {key : Nat × Nat} {window : Option FileWindow} {safe : Prop}
    (holds : view.Holds key frame window)
    (clean : ∀ lies, window = some lies → view.modified key frame = false ∨ lies.length = 0) :
    Flushed strict view key frame window safe view := by
  obtain ⟨dirty, recorded⟩ := holds.recorded
  have nothing : view.writeBack? key = none := by
    cases window with
    | none => exact View.writeBack?_of_anonymous holds
    | some lies =>
        rw [View.writeBack?_of_resident holds, if_neg]
        rintro ⟨positive, modified⟩
        rcases clean lies rfl with unmodified | empty
        · rw [unmodified] at modified
          cases modified
        · omega
  refine ⟨⟨[], .nil, by simp⟩, ⟨_, (Function.update_eq_self_iff.mpr recorded.symm).symm, rfl⟩,
    ⟨rfl, rfl, rfl⟩, by rw [nothing]; rfl, fun _ lies here => (clean lies here).imp_right ?_⟩
  exact fun empty i small => by omega

theorem leave_spec {saved : Machine} {middle : View} {window : Option FileWindow} {holder : Holder}
    {outcome : Except PagingError Unit} (live : machine.view.live id = true)
    (aligned : Aligned page) (user : IsUser page) (held : machine.view.holder frame = some holder)
    (flushed : Flushed strict machine.view (id, page) frame window (outcome = .ok ()) middle)
    (seen : saved.view = middle.put (id, page) none) (shaped : saved.Shaped strict) :
    (do vacate id page frame; orFail outcome : Action PagingError Machine Unit).Ensures ⟨saved, log⟩
      (fun _ (after : Traced Machine) => machine.Removed strict id page True after.state)
      (fun cause (after : Traced Machine) =>
        machine.Removed strict id page False after.state ∧ outcome = .error cause)
      fun _ _ => False := by
  obtain ⟨⟨steps, path, kinds⟩, ⟨record, same, resident⟩, ⟨alive, still, mapped⟩, asked, safe⟩ :=
    flushed
  rw [ensures_bind]
  have liveHere : saved.view.live id = true := by
    rw [seen]
    exact alive ▸ live
  have heldHere : saved.view.holder frame = some holder := by
    rw [seen]
    exact still ▸ held
  refine Ensures.mono (vacate_spec shaped liveHere aligned user heldHere) ?_
    (fun _ _ never => never.elim) fun _ _ never => never.elim
  rintro _ ⟨(after : Machine), log⟩ ⟨seenAfter, shapedAfter⟩
  have gone : after.view = middle.after (.drop (id, page) record outcome.isOk) := by
    rw [seenAfter, seen, View.after, resident]
    rfl
  -- The page counts as saved only where saving it did not fail.
  have permitted : middle.Permits strict (.drop (id, page) record outcome.isOk) := by
    refine ⟨by rw [same, Function.update_self], ?_⟩
    intro other lies here well
    rw [resident] at here
    cases here
    refine safe ?_ lies rfl
    cases outcome <;> simp_all [Except.isOk, Except.toBool]
  have removed (kept : Prop) (well : kept → outcome.isOk = true) :
      machine.Removed strict id page kept after := by
    refine ⟨⟨steps ++ [.drop (id, page) record outcome.isOk],
      ⟨path.append (gone ▸ .single permitted), shapedAfter⟩, fun step member => ?_⟩, ?_, ?_, ?_⟩
    · rcases List.mem_append.mp member with early | late
      · exact kinds step early _ kept
      · rw [List.mem_singleton.mp late]
        exact ⟨rfl, rfl, well⟩
    · rw [gone, View.record_after_drop, same, Function.update_idem]
    · rw [seenAfter, seen, ← mapped]
      rfl
    · rw [seenAfter, seen]
      exact asked
  cases outcome with
  | ok value => exact removed True fun _ => rfl
  | error cause => exact ⟨removed False False.elim, rfl⟩

theorem ensures_dropFrame (sound : machine.Sound strict) {window : Option FileWindow}
    {wasDirty : Bool}
    (recorded : machine.view.record (id, page) = some ⟨.inFrame frame window, wasDirty⟩)
    {removed : Machine} (seen : removed.view = machine.view.put (id, page) none)
    {returns : Unit → Traced Machine → Prop} {fails : PagingError → Traced Machine → Prop}
    {panics : Panic → Traced Machine → Prop} :
    (dropPage id page ⟨.inFrame frame window, wasDirty⟩).Ensures ⟨removed, log⟩
        returns fails panics ↔
      (do
        let flushed ← match window with
          | some window =>
            if machine.view.modified (id, page) frame then
              (onStorage (Storage.save window (machine.view.contents frame))).attempt
            else pure (.ok ())
          | none => pure (.ok ())
        vacate id page frame
        orFail flushed : Action PagingError Machine Unit).Ensures ⟨removed, log⟩
        returns fails panics := by
  obtain ⟨live, aligned, user⟩ := sound.live recorded
  obtain ⟨pins, written, held⟩ := sound.consistent.exists_holder ⟨wasDirty, recorded⟩
  have liveHere : removed.view.live id = true := by
    rw [seen]
    exact live
  have heldHere : removed.view.holder frame = some ⟨id, page, pins, written⟩ := by
    rw [seen]
    exact held
  have modified : ((removed.view.translation (id, page)).any (·.dirty) ||
      (removed.view.holder frame).any (·.written) || wasDirty) =
      machine.view.modified (id, page) frame := by
    rw [View.modified, recorded, seen]
    simp only [Option.any_some, Bool.or_comm, Bool.or_left_comm]
    rfl
  have contents : removed.view.contents frame = machine.view.contents frame := by
    rw [seen]
    rfl
  simp only [dropPage, ensures_bind]
  rw [ensures_isModified liveHere aligned user, ensures_contents (Pool.lt_size_of_holder heldHere)]
  cases window <;> simp only [modified, contents]

theorem dropFrame_spec (sound : machine.Sound strict) {record : PageRecord}
    {window : Option FileWindow} (resident : record.residence = .inFrame frame window)
    (recorded : machine.view.record (id, page) = some record) {removed : Machine}
    (seen : removed.view = machine.view.put (id, page) none) (shaped : removed.Shaped strict) :
    (dropPage id page record).Ensures ⟨removed, log⟩
      (fun _ (after : Traced Machine) => machine.Removed strict id page True after.state)
      (fun cause (after : Traced Machine) =>
        machine.Removed strict id page False after.state ∧ ∃ failure, cause = .device failure)
      (fun cause after => Excused strict cause after ∧ ∃ lies, window = some lies) := by
  obtain ⟨residence, wasDirty⟩ := record
  cases resident
  have holds : machine.view.Holds (id, page) frame window := ⟨wasDirty, recorded⟩
  obtain ⟨live, aligned, user⟩ := sound.live recorded
  obtain ⟨pins, written, held⟩ := sound.consistent.exists_holder holds
  rw [ensures_dropFrame sound recorded seen]
  generalize modified : machine.view.modified (id, page) frame = dirty
  -- The frame is given back whatever came of saving what it held.
  have saves {outcome : Except PagingError Unit} {saved : Machine} {middle : View}
      {log : Array Event}
      (refused : ∀ cause, outcome = .error cause → ∃ failure, cause = .device failure)
      (flushed : Flushed strict machine.view (id, page) frame window (outcome = .ok ()) middle)
      (seen : saved.view = middle.put (id, page) none) (shaped : saved.Shaped strict) :
      (do vacate id page frame; orFail outcome : Action PagingError Machine Unit).Ensures ⟨saved, log⟩
        (fun _ (after : Traced Machine) => machine.Removed strict id page True after.state)
        (fun cause (after : Traced Machine) =>
          machine.Removed strict id page False after.state ∧ ∃ failure, cause = .device failure)
        (fun cause after => Excused strict cause after ∧ ∃ lies, window = some lies) :=
    Ensures.mono (leave_spec live aligned user held flushed seen shaped) (fun _ _ removed => removed)
      (fun cause _ failed => ⟨failed.1, refused cause failed.2⟩) fun _ _ never => never.elim
  cases window with
  | none =>
      dsimp only
      rw [ensures_bind, ensures_pure]
      exact saves (by simp) (flushed_of_clean holds nofun) seen shaped
  | some window =>
      dsimp only
      split
      · rename_i isDirty
        have backed (holds' : strict) : removed.view.Fits window := by
          rw [seen]
          exact sound.backed holds' holds.backing
        have leaves {outcome : Except PagingError Unit} {saved : Traced Machine} {layout : Layout}
            {count : Nat} (shapedSaved : saved.state.Shaped strict)
            (refused : ∀ cause, outcome = .error cause → ∃ failure, cause = .device failure)
            (there : removed.view.layout window.file = some layout) (positive : 0 < window.length)
            (few : count ≤ window.length) (takes : layout.Takes window.offset count)
            (whole : outcome = .ok () → count = window.length)
            (wrote : saved.state.view = removed.view.write window.file layout window.offset
              ((machine.view.contents frame).slice 0 window.length) count) :
            (do vacate id page frame; orFail outcome : Action PagingError Machine Unit).Ensures saved
              (fun _ (after : Traced Machine) => machine.Removed strict id page True after.state)
              (fun cause (after : Traced Machine) =>
                machine.Removed strict id page False after.state ∧
                  ∃ failure, cause = .device failure)
              (fun cause after => Excused strict cause after ∧ ∃ lies, some window = some lies) := by
          rw [seen] at there wrote
          refine saves refused
            (flushed_of_flush holds (modified.trans isDirty) there positive few takes whole) ?_
            shapedSaved
          rw [wrote, View.put_after_flush]
        rw [ensures_bind, ensures_attempt]
        refine Ensures.mono (saveWindow_spec shaped) ?_ ?_ fun _ _ panicked =>
          ⟨fun holds' => panicked holds' (backed holds'), window, rfl⟩
        · rintro _ ⟨(saved : Machine), log⟩
            ⟨shapedSaved, ⟨empty, same⟩ | ⟨positive, layout, there, takes, wrote⟩⟩
          · refine saves (by simp) (flushed_of_clean holds ?_) (same.trans seen) shapedSaved
            rintro _ ⟨⟩
            exact .inr empty
          · exact leaves shapedSaved (by simp) there positive (Nat.le_refl _) takes (fun _ => rfl)
              wrote
        · rintro cause ⟨(saved : Machine), log⟩
            ⟨refused, shapedSaved, positive, layout, count, there, few, takes, wrote⟩
          refine leaves shapedSaved ?_ there positive few takes (by simp) wrote
          rintro _ ⟨⟩
          exact refused
      · rename_i clean
        rw [ensures_bind, ensures_pure]
        exact saves (by simp) (flushed_of_clean holds fun _ _ => .inl (by simp_all)) seen shaped

theorem removed_elsewhere {record : PageRecord} {after : Machine} (sound : machine.Sound strict)
    (recorded : machine.view.record (id, page) = some record)
    (away : record.residence.frame? = none)
    (seen : after.view = machine.view.after (.drop (id, page) record true))
    (shaped : after.Shaped strict) : machine.Removed strict id page True after where
  through := .single (.drop (id, page) record true)
    ⟨recorded, fun frame window here _ => by simp [here, Residence.frame?] at away⟩ seen shaped
    ⟨rfl, rfl, fun _ => rfl⟩
  record := by rw [seen, View.record_after_drop]
  translation := by
    have unmapped : machine.view.translation (id, page) = none :=
      sound.consistent.unmapped (by simp [View.frameOf, recorded, away])
    rw [seen, Function.update_eq_self_iff.mpr unmapped.symm]
    obtain ⟨residence, dirty⟩ := record
    cases residence with
    | inFrame => cases away
    | untouched | inSwap | inFile => rfl
  journal := by
    rw [View.writeBack?_of_none, seen]
    · obtain ⟨residence, dirty⟩ := record
      cases residence <;> rfl
    · rintro frame window ⟨_, found⟩
      rw [recorded] at found
      cases found
      cases away

theorem removePage_spec (sound : machine.Sound strict) (live : machine.view.live id = true) :
    (removePage id page).Ensures ⟨machine, log⟩
      (fun _ (after : Traced Machine) => machine.Removed strict id page True after.state)
      (fun cause (after : Traced Machine) =>
        machine.Removed strict id page False after.state ∧ ∃ failure, cause = .device failure)
      (fun cause after => Excused strict cause after ∧
        ∃ frame window, machine.view.Holds (id, page) frame (some window)) := by
  obtain ⟨space, found⟩ := exists_space live
  simp only [removePage, ensures_bind, ensures_space found, ← record_eq found]
  rcases recorded : machine.view.record (id, page) with _ | record
  · refine ⟨.refl sound.shaped, (Function.update_eq_self_iff.mpr recorded.symm).symm,
      (Function.update_eq_self_iff.mpr ?_).symm, ?_⟩
    · exact (sound.consistent.unmapped (by simp [View.frameOf, recorded])).symm
    · rw [View.writeBack?_of_none]
      · rfl
      · rintro frame window ⟨_, found⟩
        rw [recorded] at found
        cases found
  dsimp only
  rw [ensures_bind]
  refine Ensures.mono (removeRecord_spec sound.shaped live) ?_ (fun _ _ never => never.elim)
    fun _ _ never => never.elim
  rintro _ ⟨(removed : Machine), log⟩ ⟨seen, shaped⟩
  obtain ⟨residence, dirty⟩ := record
  cases residence with
  | inFrame frame window =>
      refine Ensures.mono (dropFrame_spec sound rfl recorded seen shaped) (fun _ _ removed => removed)
        (fun _ _ failed => failed) ?_
      rintro cause after ⟨excused, lies, rfl⟩
      exact ⟨excused, frame, lies, dirty, recorded⟩
  | inSwap slot =>
      have taken : removed.view.used slot = true := by
        rw [seen]
        exact sound.consistent.stored.mpr
          ⟨(id, page), by simp [View.slotOf, recorded, Residence.slot?]⟩
      simp only [dropPage, ensures_onSwap]
      refine Ensures.mono (SwapArea.release_spec shaped.slots taken) ?_
        (fun _ _ never => never.elim) fun _ _ never => never.elim
      rintro _ ⟨swap, log⟩ ⟨kept, freed, pages, size⟩
      refine removed_elsewhere sound recorded rfl ((view_withSwap freed pages size).trans ?_)
        (shaped.withSwap kept)
      change removed.view.mark slot false = _
      rw [seen]
      rfl
  | untouched | inFile => exact removed_elsewhere sound recorded rfl seen shaped

/-! ## Unmapping -/

theorem removeAll_spec (sound : machine.Sound strict) (live : machine.view.live id = true)
    (pages : List Nat) : (removeAll id pages).Ensures ⟨machine, log⟩
      (fun _ (after : Traced Machine) =>
        machine.Through strict (Step.Unmaps id (· ∈ pages) True) after.state)
      (fun cause (after : Traced Machine) =>
        machine.Through strict (Step.Unmaps id (· ∈ pages) False) after.state ∧
          ∃ failure, cause = .device failure)
      (Excused strict) := by
  induction pages generalizing machine log with
  | nil => exact .refl sound.shaped
  | cons page rest ih =>
      have here {safe wanted : Prop} (implied : wanted → safe) (step : Step)
          (unmaps : step.Unmaps id (· = page) safe) : step.Unmaps id (· ∈ page :: rest) wanted :=
        unmaps.mono implied fun _ same => same ▸ List.mem_cons_self
      have there {safe wanted : Prop} (implied : wanted → safe) (step : Step)
          (unmaps : step.Unmaps id (· ∈ rest) safe) : step.Unmaps id (· ∈ page :: rest) wanted :=
        unmaps.mono implied fun _ member => List.mem_cons_of_mem _ member
      rw [removeAll, ensures_bind, ensures_attempt]
      -- Whatever came of this page the rest goes too, and the first failure is the one reported.
      have goesOn (first : Except PagingError Unit) (middle : Traced Machine) (safe : Prop)
          (well : first = .ok () → safe)
          (refused : ∀ cause, first = .error cause → ∃ failure, cause = .device failure)
          (removed : machine.Removed strict id page safe middle.state) :
          (do
            let later ← (removeAll id rest).attempt
            orFail first
            orFail later : Action PagingError Machine Unit).Ensures middle
            (fun _ (after : Traced Machine) =>
              machine.Through strict (Step.Unmaps id (· ∈ page :: rest) True) after.state)
            (fun cause (after : Traced Machine) =>
              machine.Through strict (Step.Unmaps id (· ∈ page :: rest) False) after.state ∧
                ∃ failure, cause = .device failure)
            (Excused strict) := by
        have through := removed.through
        have alive := through.live_of_unmaps live
        have lossy := through.mono (here False.elim)
        rw [ensures_bind, ensures_attempt]
        refine Ensures.mono (ih (sound.through through) alive) ?_ ?_ fun _ _ excused => excused
        · rintro _ ⟨(after : Machine), log⟩ more
          cases first with
          | ok =>
              exact (through.mono (here fun _ => well rfl)).trans (more.mono (there fun _ => trivial))
          | error cause => exact ⟨lossy.trans (more.mono (there False.elim)), refused cause rfl⟩
        · rintro cause ⟨(after : Machine), log⟩ ⟨more, later⟩
          cases first with
          | ok => exact ⟨lossy.trans (more.mono (there False.elim)), later⟩
          | error cause => exact ⟨lossy.trans (more.mono (there False.elim)), refused cause rfl⟩
      refine Ensures.mono (removePage_spec sound live)
        (fun _ middle removed => goesOn (.ok ()) middle True (fun _ => trivial) (by simp) removed) ?_
        fun _ _ panicked => panicked.1
      rintro cause middle ⟨removed, refused⟩
      refine goesOn (.error cause) middle False (by simp) ?_ removed
      rintro _ ⟨⟩
      exact refused

theorem frameOf_eq {space : Space} (found : machine.store.spaces[id]? = some space) :
    machine.view.frameOf (id, page) = space.catalog.frame? page := by
  rw [View.frameOf, record_eq found]
  rfl

theorem isPinned_of_frameOf {key : Nat × Nat} (found : machine.view.frameOf key = some frame) :
    machine.pool.isPinned frame = true ↔ machine.view.pins key ≠ 0 := by
  rw [View.pins, found, Option.bind_some, Pool.isPinned]
  simp only [view, Pool.holder]
  cases machine.pool.occupant? frame with
  | none => simp
  | some occupant => simp [Occupant.pinned, Occupant.holder, Nat.pos_iff_ne_zero]

theorem isPinned_iff {space : Space} (found : machine.store.spaces[id]? = some space) :
    (space.catalog.frame? page).any machine.pool.isPinned = true ↔
      machine.view.pins (id, page) ≠ 0 := by
  have here : machine.view.frameOf (id, page) = space.catalog.frame? page := frameOf_eq found
  cases inside : space.catalog.frame? page with
  | none => simp [View.pins_of_away (here.trans inside)]
  | some frame => exact isPinned_of_frameOf (here.trans inside)

def Loose (view : View) (id start length page : Nat) : Prop :=
  page ∈ pagesIn start length ∧ view.pins (id, page) = 0

/-- Unmapping a range is a check of what is asked for, a check that no page of it is pinned, and the
removal of its pages. -/
theorem ensures_unmapRange {space : Space} (found : machine.store.spaces[id]? = some space)
    {start length : Nat} {returns : Unit → Traced Machine → Prop}
    {fails : PagingError → Traced Machine → Prop} {panics : Panic → Traced Machine → Prop}
    (improper : ¬ (Aligned start ∧ IsUserRange start length) → fails .badAddress ⟨machine, log⟩)
    (proper : ∀ span, (Aligned start ∧ IsUserRange start length) →
      PageSpan.covering start length = .ok span →
        if ∀ page ∈ space.catalog.within span,
            ¬ (space.catalog.frame? page).any machine.pool.isPinned then
          (removeAll id (space.catalog.within span)).Ensures ⟨machine, log⟩ returns fails panics
        else fails .busy ⟨machine, log⟩) :
    (unmapRange id start length).Ensures ⟨machine, log⟩ returns fails panics := by
  rw [unmapRange, ensures_bind, ensures_require]
  split
  · rename_i asked
    obtain ⟨span, covered⟩ := PageSpan.exists_covering asked.2
    simp only [look, ensures_bind, ensures_look, ensures_orPanic, covered, ensures_space found,
      ensures_require]
    exact proper span asked covered
  · rename_i refused
    exact improper refused

theorem unmapRange_spec (sound : machine.Sound strict) (live : machine.view.live id = true)
    {start length : Nat} : (unmapRange id start length).Ensures ⟨machine, log⟩
      (fun _ (after : Traced Machine) => machine.Through strict
        (Step.Unmaps id (Loose machine.view id start length) True) after.state)
      (fun cause (after : Traced Machine) => machine.Through strict
          (Step.Unmaps id (Loose machine.view id start length) False) after.state ∧
        cause ≠ .outOfSwap)
      (Excused strict) := by
  obtain ⟨space, found⟩ := exists_space live
  refine ensures_unmapRange found (fun _ => ⟨.refl sound.shaped, by simp⟩) fun span asked covered => ?_
  split
  · rename_i unpinned
    have loose {safe : Prop} (step : Step)
        (unmaps : step.Unmaps id (· ∈ space.catalog.within span) safe) :
        step.Unmaps id (Loose machine.view id start length) safe := by
      refine unmaps.mono (fun holds => holds) fun page member => ⟨?_, ?_⟩
      · rw [pagesIn_eq covered, PageSpan.mem_pages_iff]
        exact (List.mem_filter.mp member).2
      · by_contra pinned
        exact unpinned page member ((isPinned_iff found).mpr pinned)
    exact Ensures.mono (removeAll_spec sound live _) (fun _ _ through => through.mono loose)
      (fun _ _ failed => ⟨failed.1.mono loose, by
        obtain ⟨failure, rfl⟩ := failed.2
        simp⟩) fun _ _ excused => excused
  · exact ⟨.refl sound.shaped, by simp⟩

theorem Sound.firm_of_unmaps {drops : Nat → Prop} {safe : Prop} {after : Machine}
    (sound : machine.Sound strict)
    (through : machine.Through strict (Step.Unmaps id drops safe) after)
    (free : ∀ page, drops page → machine.view.pins (id, page) = 0) :
    machine.view.Firm after.view ∧ after.view.pins = machine.view.pins := by
  refine View.firm_of_spared fun key => ?_
  by_cases dropped : key.1 = id ∧ drops key.2
  · have unpinned : machine.view.pins key = 0 := by
      obtain ⟨rfl, given⟩ := dropped
      exact free _ given
    refine ⟨?_, fun _ pinned => absurd unpinned pinned⟩
    obtain ⟨steps, moves, unmaps⟩ := through
    rw [unpinned]
    exact moves.path.pins_eq_zero sound.consistent
      (fun step member pins => (unmaps step member).tally_eq_zero) unpinned
  · exact sound.spared through fun step unmaps => unmaps.spares dropped

theorem removeRegion_spec (shaped : machine.Shaped strict) (live : machine.view.live id = true)
    {number : Nat} :
    (onSpace id (Action.update (·.removeRegion number)) : Action PagingError Machine Unit).Ensures
      ⟨machine, log⟩
      (fun _ (after : Traced Machine) => Moves strict machine [.forget (id, number)] after.state)
      (fun _ _ => False) fun _ _ => False := by
  obtain ⟨space, found⟩ := exists_space live
  rw [ensures_onSpace found, ensures_update]
  refine .single (.forget (id, number)) trivial ?_
    (shaped.keepDirectory found rfl)
  apply (view_withRegions found (space.regions.erase number) space.nextRegion).trans
  have erased (other : Nat) : (space.regions.erase number)[other]? =
      Function.update (space.regions[·]?) number none other := by
    rw [Std.ExtTreeMap.getElem?_erase, Function.update_apply]
    simp only [Nat.compare_eq_eq, eq_comm (a := other)]
  simp only [erased]
  exact View.ext rfl rfl rfl rfl rfl rfl rfl (within_space_update (fun _ => region_eq found) number none)
    (Function.update_eq_self_iff.mpr (nextRegion_eq found).symm) rfl rfl rfl rfl rfl

def forget (id number : Nat) (outcome : Except PagingError Unit) :
    Action PagingError Machine Unit := do
  onSpace id (Action.update (·.removeRegion number))
  Action.orFail outcome

theorem forget_spec {middle : Traced Machine} (shaped : middle.state.Shaped strict)
    (live : middle.state.view.live id = true) (number : Nat) (outcome : Except PagingError Unit) :
    (forget id number outcome).Ensures middle
      (fun _ after => outcome = .ok () ∧
        Moves strict middle.state [.forget (id, number)] after.state)
      (fun cause after => outcome = .error cause ∧
        Moves strict middle.state [.forget (id, number)] after.state)
      fun _ _ => False := by
  rw [forget, ensures_bind]
  refine Ensures.mono (removeRegion_spec shaped live) (fun _ after moves => ?_)
    (fun _ _ never => never.elim) fun _ _ never => never
  rw [ensures_orFail]
  cases outcome with
  | ok => exact ⟨rfl, moves⟩
  | error => exact ⟨rfl, moves⟩

/-- Unmapping a mapping is unmapping its range, after which it is forgotten unless one of its pages
is pinned. -/
theorem ensures_unmapFile {now : Traced Machine} {space : Space}
    (found : now.state.store.spaces[id]? = some space) {number : Nat}
    {returns : Unit → Traced Machine → Prop} {fails : PagingError → Traced Machine → Prop}
    {panics : Panic → Traced Machine → Prop}
    (unknown : space.regions[number]? = none → fails .notMapped now)
    (known : ∀ region, space.regions[number]? = some region →
      (unmapRange id region.start region.length).Ensures now
        (fun _ middle => (forget id number (.ok ())).Ensures middle returns fails panics)
        (fun cause middle =>
          if cause = .busy then fails .busy middle
          else (forget id number (.error cause)).Ensures middle returns fails panics)
        panics) :
    (unmapFile id number).Ensures now returns fails panics := by
  rw [unmapFile, ensures_bind]
  rw [ensures_space found]
  cases entered : space.regions[number]? with
  | none => exact unknown entered
  | some region =>
      dsimp only
      rw [ensures_bind, ensures_attempt]
      refine (known region entered).mono (fun _ _ forgets => forgets) ?_ fun _ _ broken => broken
      intro cause middle ends
      cases cause with
      | busy => exact ends
      | _ => exact ends

def LooseIn (view : View) (id number page : Nat) : Prop :=
  ∃ region, view.region (id, number) = some region ∧ Loose view id region.start region.length page

theorem unmapFile_spec (sound : machine.Sound strict) (live : machine.view.live id = true)
    {number : Nat} : (unmapFile id number).Ensures ⟨machine, log⟩
      (fun _ (after : Traced Machine) => machine.Through strict
        (Step.Unmaps id (LooseIn machine.view id number) True) after.state)
      (fun cause (after : Traced Machine) => machine.Through strict
          (Step.Unmaps id (LooseIn machine.view id number) False) after.state ∧
        cause ≠ .outOfSwap)
      (Excused strict) := by
  obtain ⟨space, found⟩ := exists_space live
  refine ensures_unmapFile found (fun _ => ⟨.refl sound.shaped, by simp⟩) fun region entered => ?_
  have recorded : machine.view.region (id, number) = some region := (region_eq found).trans entered
  have covers {safe : Prop} {after : Machine} (through : machine.Through strict
      (Step.Unmaps id (Loose machine.view id region.start region.length) safe) after) :
      machine.Through strict (Step.Unmaps id (LooseIn machine.view id number) safe) after :=
    through.mono fun _ unmaps => unmaps.mono (fun holds => holds) fun _ loose =>
      ⟨region, recorded, loose⟩
  refine Ensures.mono (unmapRange_spec sound live) ?_ ?_ fun _ _ excused => excused
  · intro _ middle through
    refine (forget_spec through.shaped (through.live_of_unmaps live) number (.ok ())).mono ?_ ?_
      fun _ _ never => never.elim
    · exact fun _ _ forgot => (covers through).trans (forgot.2.through rfl)
    · exact fun _ _ failed => by cases failed.1
  · rintro cause middle ⟨through, other⟩
    split
    · exact ⟨covers through, by simp⟩
    · refine (forget_spec through.shaped (through.live_of_unmaps live) number (.error cause)).mono ?_
        ?_ fun _ _ never => never.elim
      · exact fun _ _ returned => by cases returned.1
      · rintro _ _ ⟨⟨⟩, moves⟩
        exact ⟨(covers through).trans (moves.through rfl), other⟩

end Machine

end DemandPaging
