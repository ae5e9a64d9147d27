import DemandPaging.Machine.Eviction
import DemandPaging.Proofs.Machine

namespace DemandPaging

def Step.Evicts (key : Nat × Nat) : Step → Prop
  | .litter _ _ => True
  | .soil other | .flush other _ _ _ _ | .swapOut other _ _ | .fileOut other _ _ => other = key
  | _ => False

def Step.Tries (key : Nat × Nat) : Step → Prop
  | .litter _ _ => True
  | .soil other | .flush other _ _ _ _ => other = key
  | _ => False

def Step.Vacates (key : Nat × Nat) (frame : Nat) (window : Option FileWindow) : Step → Prop
  | .swapOut other place _ => other = key ∧ place = frame ∧ window = none
  | .fileOut other place saved => other = key ∧ place = frame ∧ window = some saved
  | _ => False

theorem Step.Tries.evicts {step : Step} {key : Nat × Nat} (tries : step.Tries key) :
    step.Evicts key := by
  cases step with
  | litter | soil | flush => exact tries
  | _ => exact tries.elim

theorem Step.Vacates.evicts {step : Step} {key : Nat × Nat} {frame : Nat}
    {window : Option FileWindow} (vacates : step.Vacates key frame window) : step.Evicts key := by
  cases step with
  | swapOut | fileOut => exact vacates.1
  | _ => exact vacates.elim

theorem Step.Evicts.addsNone {step : Step} {key : Nat × Nat} (evicts : step.Evicts key) :
    step.AddsNone := by
  cases step with
  | install => exact evicts.elim
  | _ => trivial

namespace Machine

open DemandPaging.Action

variable {strict : Prop} {machine middle after : Machine} {log : Array Event} {id page frame : Nat}

theorem Sound.live {record : PageRecord} (sound : machine.Sound strict)
    (found : machine.view.record (id, page) = some record) :
    machine.view.live id = true ∧ Aligned page ∧ IsUser page :=
  sound.consistent.placed found

/-! ## Records and directories -/

theorem putRecord_spec {ε : Type} (shaped : machine.Shaped strict)
    (live : machine.view.live id = true) {record : PageRecord} :
    (onCatalog id (Action.update (·.put page record)) : Action ε Machine Unit).Ensures ⟨machine, log⟩
      (fun _ after => after.state.view = machine.view.put (id, page) (some record) ∧
        after.state.Shaped strict)
      (fun _ _ => False) fun _ _ => False := by
  obtain ⟨space, found⟩ := exists_space live
  rw [ensures_onCatalog found, ensures_update]
  refine ⟨view_withCatalog found (funext fun other => ?_), ?_⟩
  · rw [Catalog.find?_put, Function.update_apply]
  · exact shaped.keepDirectory found rfl

theorem replaceRecord_spec {ε : Type} (shaped : machine.Shaped strict)
    (live : machine.view.live id = true) {old record : PageRecord}
    (recorded : machine.view.record (id, page) = some old) :
    (onCatalog id (Action.change (·.replace page record)) : Action ε Machine Unit).Ensures
      ⟨machine, log⟩
      (fun _ after => after.state.view = machine.view.put (id, page) (some record) ∧
        after.state.Shaped strict)
      (fun _ _ => False) fun _ _ => False := by
  obtain ⟨space, found⟩ := exists_space live
  have present : (space.catalog.find? page).isSome = true := by
    rw [← record_eq found, recorded]
    rfl
  have put : (onCatalog id (Action.update (·.put page record)) : Action ε Machine Unit).Ensures
      ⟨machine, log⟩ _ _ _ := putRecord_spec shaped live
  rw [ensures_onCatalog found, ensures_update] at put
  rw [ensures_onCatalog found, ensures_change, Catalog.replace, if_pos present]
  exact put

theorem removeRecord_spec {ε : Type} (shaped : machine.Shaped strict)
    (live : machine.view.live id = true) :
    (onCatalog id (Action.update (·.remove page)) : Action ε Machine Unit).Ensures ⟨machine, log⟩
      (fun _ after => after.state.view = machine.view.put (id, page) none ∧
        after.state.Shaped strict)
      (fun _ _ => False) fun _ _ => False := by
  obtain ⟨space, found⟩ := exists_space live
  rw [ensures_onCatalog found, ensures_update]
  refine ⟨view_withCatalog found (funext fun other => ?_), ?_⟩
  · rw [Catalog.find?_remove, Function.update_apply]
  · exact shaped.keepDirectory found rfl

theorem ensures_isModified (live : machine.view.live id = true) (aligned : Aligned page)
    (user : IsUser page) {returns : Bool → Traced Machine → Prop}
    {fails : PagingError → Traced Machine → Prop} {panics : Panic → Traced Machine → Prop} :
    (isModified id page frame).Ensures ⟨machine, log⟩ returns fails panics ↔
      returns ((machine.view.translation (id, page)).any (·.dirty) ||
        (machine.view.holder frame).any (·.written)) ⟨machine, log⟩ := by
  obtain ⟨space, found⟩ := exists_space live
  have kernel : machine.pool.isDirty frame =
      (machine.view.holder frame).any (·.written) := by
    simp only [Pool.isDirty, view, Pool.holder, Option.any_map]
    rfl
  simp only [isModified, look, ensures_bind, ensures_space found, ensures_orPanic,
    Directory.has_dirty_eq aligned user, ensures_look, ensures_pure, kernel, translation_eq found]

theorem release_spec {ε : Type} (shaped : machine.Shaped strict) {holder : Holder}
    (held : machine.view.holder frame = some holder) :
    (Paged.release frame : Action ε Machine Unit).Ensures ⟨machine, log⟩
      (fun _ (after : Traced Machine) =>
        after.state.view = machine.view.hold frame none ∧ after.state.Shaped strict)
      (fun _ _ => False) fun _ _ => False := by
  obtain ⟨pool, done, changed, bytes, tended⟩ := Pool.vacate_spec shaped.counted held
  rw [Paged.release, ensures_bind, ensures_changePool done, ensures_emit]
  exact ⟨view_withPool changed bytes tended.size, shaped.withPool tended⟩

theorem vacate_spec (shaped : machine.Shaped strict)
    (live : machine.view.live id = true) (aligned : Aligned page) (user : IsUser page)
    {holder : Holder} (held : machine.view.holder frame = some holder) :
    (vacate id page frame).Ensures ⟨machine, log⟩
      (fun _ after =>
        after.state.view = (machine.view.lead (id, page) none).hold frame none ∧
          after.state.Shaped strict)
      (fun _ _ => False) fun _ _ => False := by
  obtain ⟨space, found⟩ := exists_space live
  obtain ⟨directory, done, changed, tight⟩ := space.directory.unmap_spec aligned user
  have led := view_withDirectory found changed
  rw [vacate, ensures_bind, ensures_onSpace found, ensures_change]
  simp only [done, bind, Except.bind, pure, Except.pure]
  have same : Shaped strict (machine.withSpace id { space with directory := directory }) :=
    shaped.withSpace (tight (shaped.tight found))
  have still : (machine.withSpace id { space with directory := directory }).view.holder frame =
      some holder := by rw [led]; exact held
  refine Ensures.mono (release_spec same still) ?_ (fun _ _ never => never) fun _ _ never => never
  rintro _ after ⟨freed, shaped⟩
  exact ⟨by rw [freed, led], shaped⟩

/-! ## Saving a page -/

theorem Shaped.withSwap (shaped : machine.Shaped strict) {swap : SwapArea}
    (kept : swap.Kept) : (machine.withSwap swap).Shaped strict :=
  { shaped with slots := kept }

theorem Shaped.withStorage (shaped : machine.Shaped strict)
    {storage : Storage} (formed : machine.store.storage.Formed → storage.Formed) :
    (machine.withStorage storage).Shaped strict :=
  { shaped with formed := fun holds => formed (shaped.formed holds) }

theorem swapOut_spec (shaped : machine.Shaped strict) {contents : Page} :
    (swapOut contents).Ensures ⟨machine, log⟩
      (fun slot after => machine.view.used slot = false ∧
        after.state.view = (machine.view.stow slot contents).mark slot true ∧
        after.state.Shaped strict)
      (fun cause after =>
        machine.Through strict (fun step => ∃ slot junk, step = .litter slot junk) after.state ∧
          (cause = .outOfSwap → ∀ slot < machine.view.slots, machine.view.used slot = true))
      (Excused strict) := by
  rw [swapOut, ensures_bind, ensures_onSwap]
  refine Ensures.mono (SwapArea.reserve_spec shaped.slots) ?_ ?_ fun _ _ never => never.elim
  · rintro slot ⟨reserved, log⟩ ⟨free, kept, taken, pages, size⟩
    have inUse : reserved.inUse slot = true := by
      rw [taken, Function.update_self]
    rw [ensures_bind, ensures_attempt, ensures_onSwap]
    refine Ensures.mono (SwapArea.store_spec kept inUse contents) ?_ ?_ ?_
    · rintro _ ⟨⟨used, device⟩, log⟩ ⟨same, kept, written⟩
      cases same
      have filled := written.trans (congrArg (Function.update · slot contents) pages)
      have stored : (machine.withSwap ⟨reserved.used, device⟩).view =
          (machine.view.stow slot contents).mark slot true := view_withSwap taken filled size
      exact ⟨free, stored, shaped.withSwap kept⟩
    · rintro cause ⟨⟨used, device⟩, log⟩ ⟨⟨failure, rfl⟩, same, kept, junk, written⟩
      cases same
      dsimp only
      rw [ensures_bind, ensures_onSwap]
      refine Ensures.mono (SwapArea.release_spec kept inUse) ?_ (fun _ _ never => never.elim)
        fun _ _ never => never.elim
      rintro _ ⟨released, log⟩ ⟨kept, freed, unchanged, sizeReleased⟩
      have emptied : Function.update reserved.inUse slot false = machine.view.used := by
        rw [show reserved.inUse = _ from taken, Function.update_idem]
        exact Function.update_eq_self_iff.mpr free.symm
      have empty : released.inUse = machine.view.used := freed.trans emptied
      have filled := written.trans (congrArg (Function.update · slot junk) pages)
      have littered : (machine.withSwap released).view =
          machine.view.after (.litter slot junk) :=
        view_withSwap empty (unchanged.trans filled) (sizeReleased.trans size)
      exact ⟨.single (.litter slot junk) free littered (shaped.withSwap kept) ⟨slot, junk, rfl⟩,
        nofun⟩
    · rintro cause stored ⟨rfl, worn⟩ -
      exact .countOverflow (.inl worn)
  · rintro cause ⟨reserved, log⟩ ⟨same, full⟩
    cases same
    exact ⟨.refl (shaped.withSwap shaped.slots), fun _ => full⟩

theorem saveWindow_spec (shaped : machine.Shaped strict) {window : FileWindow}
    {contents : Page} : (onStorage (Storage.save window contents)).Ensures ⟨machine, log⟩
      (fun _ after => after.state.Shaped strict ∧
        ((window.length = 0 ∧ after.state.view = machine.view) ∨ 0 < window.length ∧
          ∃ layout, machine.view.layout window.file = some layout ∧
            layout.Takes window.offset window.length ∧
            after.state.view = machine.view.write window.file layout window.offset
              (contents.slice 0 window.length) window.length))
      (fun cause after => (∃ failure, cause = .device failure) ∧ after.state.Shaped strict ∧
        0 < window.length ∧ ∃ layout count, machine.view.layout window.file = some layout ∧
          count ≤ window.length ∧ layout.Takes window.offset count ∧
          after.state.view = machine.view.write window.file layout window.offset
            (contents.slice 0 window.length) count)
      (fun cause after => strict → machine.view.Fits window → after.state.Allowed cause) := by
  rw [ensures_onStorage]
  refine Ensures.mono (Storage.save_spec window contents) ?_ ?_ ?_
  · rintro _ ⟨storage, log⟩ (⟨empty, same⟩ | ⟨positive, layout, there, wrote⟩)
    · cases same
      exact ⟨shaped.withStorage id, .inl ⟨empty, rfl⟩⟩
    · exact ⟨shaped.withStorage wrote.formed,
        .inr ⟨positive, layout, there, wrote.takes, view_of_wrote wrote⟩⟩
  · rintro cause ⟨storage, log⟩ ⟨refused, positive, layout, count, there, few, wrote⟩
    exact ⟨refused, shaped.withStorage wrote.formed, positive, layout, count, there, few,
      wrote.takes, view_of_wrote wrote⟩
  · rintro cause after panicked holds fits
    obtain ⟨rfl, worn⟩ := panicked (shaped.formed holds) fits
    exact .countOverflow (.inr (.inl worn))

structure Departed (strict : Prop) (before : Machine) (key : Nat × Nat) (after : Machine) :
    Prop where
  through : before.Through strict (Step.Evicts key) after
  journal : after.view.journal = (before.view.writeBack? key).toList ++ before.view.journal

structure Tried (strict : Prop) (before : Machine) (key : Nat × Nat) (after : Machine) : Prop where
  through : before.Through strict (Step.Tries key) after
  journal : after.view.journal = (before.view.writeBack? key).toList ++ before.view.journal

theorem Tried.departed {key : Nat × Nat} (tried : machine.Tried strict key after) :
    machine.Departed strict key after :=
  ⟨tried.through.mono fun _ => Step.Tries.evicts, tried.journal⟩

def Left (strict : Prop) (before : Machine) (key : Nat × Nat) (frame : Nat)
    (window : Option FileWindow) (after : Machine) : Prop :=
  ∃ middle step, before.Through strict (Step.Tries key) middle ∧ Moves strict middle [step] after ∧
    step.Vacates key frame window

theorem Left.through {key : Nat × Nat} {window : Option FileWindow}
    (left : machine.Left strict key frame window after) :
    machine.Through strict (Step.Evicts key) after := by
  obtain ⟨middle, step, through, last, vacates⟩ := left
  exact (through.mono fun _ => Step.Tries.evicts).trans (last.through vacates.evicts)

theorem Left.after_tries {key : Nat × Nat} {window : Option FileWindow}
    (through : machine.Through strict (Step.Tries key) middle)
    (left : middle.Left strict key frame window after) :
    machine.Left strict key frame window after := by
  obtain ⟨saved, step, through', last, vacates⟩ := left
  exact ⟨saved, step, through.trans through', last, vacates⟩

def MovedOut (strict : Prop) (before : Machine) (key : Nat × Nat) (frame : Nat)
    (window : Option FileWindow) (dirty : Bool) (next : Residence) (after : Machine) : Prop :=
  match window with
  | none => ∃ slot, next = .inSwap slot ∧ before.view.used slot = false ∧
      after.view = (before.view.stow slot (before.view.contents frame)).mark slot true
  | some window => next = .inFile window ∧
      ((after.view = before.view ∧ (dirty = false ∨ window.length = 0)) ∨
        ∃ layout, before.view.Permits strict (.flush key frame window layout window.length) ∧
          after.view = before.view.after (.flush key frame window layout window.length))

theorem MovedOut.places {window : Option FileWindow} {dirty : Bool} {next : Residence}
    {key : Nat × Nat} (moved : machine.MovedOut strict key frame window dirty next after) :
    after.view.live = machine.view.live ∧ after.view.holder = machine.view.holder := by
  cases window with
  | none =>
      obtain ⟨slot, -, -, seen⟩ := moved
      rw [seen]
      exact ⟨rfl, rfl⟩
  | some window =>
      obtain ⟨-, ⟨same, -⟩ | ⟨layout, -, seen⟩⟩ := moved
      · rw [same]
        exact ⟨rfl, rfl⟩
      · rw [seen]
        exact ⟨rfl, rfl⟩

theorem MovedOut.leave {window : Option FileWindow} {dirty : Bool} {next : Residence}
    {key : Nat × Nat} (moved : machine.MovedOut strict key frame window dirty next middle)
    (shaped : machine.Shaped strict) (shapedMoved : middle.Shaped strict)
    (holds : machine.view.Holds key frame window) (free : machine.view.Unpinned frame)
    (clean : dirty = false → machine.view.modified key frame = false)
    (seen : after.view =
      ((middle.view.put key (some ⟨next, false⟩)).lead key none).hold frame none)
    (shapedAfter : after.Shaped strict) : machine.Left strict key frame window after := by
  have leaves (step : Step) {before : Machine} (kind : step.Vacates key frame window)
      (first : machine.Through strict (Step.Tries key) before)
      (permitted : before.view.Permits strict step) (same : after.view = before.view.after step) :
      machine.Left strict key frame window after :=
    ⟨before, step, first, .single step permitted same shapedAfter, kind⟩
  cases window with
  | none =>
      obtain ⟨slot, rfl, unused, seenMoved⟩ := moved
      exact leaves (.swapOut key frame slot) ⟨rfl, rfl, rfl⟩ (.refl shaped) ⟨holds, free, unused⟩
        (by rw [seen, seenMoved]; rfl)
  | some window =>
      obtain ⟨rfl, ⟨same, safe⟩ | ⟨layout, permitted, seenMoved⟩⟩ := moved
      · refine leaves (.fileOut key frame window) ⟨rfl, rfl, rfl⟩ (.still same shapedMoved)
          ⟨same ▸ holds, same ▸ free, ?_⟩ (by rw [seen]; rfl)
        rw [same]
        exact safe.imp clean fun empty i small => by omega
      · refine leaves (.fileOut key frame window) ⟨rfl, rfl, rfl⟩
          (.single _ permitted seenMoved shapedMoved rfl) ⟨?_, ?_, ?_⟩ (by rw [seen]; rfl)
        · rw [seenMoved]
          exact holds
        · rw [seenMoved]
          exact free
        · rw [seenMoved]
          exact .inr (View.saved_write _ frame window layout)

theorem MovedOut.journal {window : Option FileWindow} {dirty : Bool} {next : Residence}
    {key : Nat × Nat} (moved : machine.MovedOut strict key frame window dirty next after)
    (holds : machine.view.Holds key frame window)
    (clean : dirty = false → machine.view.modified key frame = false) :
    after.view.journal = (machine.view.writeBack? key).toList ++ machine.view.journal := by
  cases window with
  | none =>
      obtain ⟨slot, -, -, seen⟩ := moved
      rw [View.writeBack?_of_anonymous holds, seen]
      rfl
  | some window =>
      obtain ⟨-, ⟨same, safe⟩ | ⟨layout, permitted, seen⟩⟩ := moved
      · have spared : ¬ (0 < window.length ∧ machine.view.modified key frame = true) := by
          rcases safe with unmodified | empty
          · simp [clean unmodified]
          · omega
        rw [View.writeBack?_of_resident holds, if_neg spared, same]
        rfl
      · rw [View.writeBack?_of_flush permitted, seen]
        exact View.journal_after_flush ..

theorem moveOut_spec (sound : machine.Sound strict) {window : Option FileWindow}
    {dirty : Bool}
    (held : machine.view.record (id, page) = some ⟨.inFrame frame window, dirty⟩)
    (inside : frame < machine.pool.size) :
    (moveOut frame window dirty).Ensures ⟨machine, log⟩
      (fun next after => after.state.Shaped strict ∧
        machine.MovedOut strict (id, page) frame window dirty next after.state)
      (fun cause after => machine.Tried strict (id, page) after.state ∧
        machine.Warranted cause)
      (Excused strict) := by
  have holds : machine.view.Holds (id, page) frame window := ⟨dirty, held⟩
  rw [moveOut, ensures_bind, ensures_contents inside]
  cases window with
  | none =>
      rw [ensures_bind]
      refine Ensures.mono (swapOut_spec sound.shaped) ?_ ?_ fun _ _ excused => excused
      · rintro slot after ⟨free, seen, shaped⟩
        exact ⟨shaped, slot, rfl, free, seen⟩
      -- A slot may be left with junk in it, but no file is written to.
      · rintro cause after ⟨littered, full⟩
        refine ⟨⟨littered.mono ?_, ?_⟩, fun short => sound.consistent.crowded (full short) holds⟩
        · rintro _ ⟨slot, junk, rfl⟩
          trivial
        · obtain ⟨steps, ⟨path, -⟩, litters⟩ := littered
          rw [View.writeBack?_of_anonymous holds]
          refine path.keeps (motive := fun view => view.journal = machine.view.journal) litters ?_ rfl
          rintro view _ ⟨slot, junk, rfl⟩ - same
          exact same
  | some window =>
      dsimp only
      split
      · rename_i modified
        subst modified
        rw [ensures_bind]
        refine Ensures.mono (saveWindow_spec sound.shaped) ?_ ?_ ?_
        · rintro _ after ⟨shaped', ⟨empty, same⟩ | ⟨positive, layout, there, takes, seen⟩⟩
          · exact ⟨shaped', rfl, .inl ⟨same, .inr empty⟩⟩
          · exact ⟨shaped', rfl,
              .inr ⟨layout, ⟨held, there, positive, Nat.le_refl _, takes⟩, seen⟩⟩
        · rintro cause after ⟨refused, shaped', positive, layout, count, there, few, takes, seen⟩
          have permitted : machine.view.Permits strict
              (.flush (id, page) frame window layout count) := ⟨held, there, positive, few, takes⟩
          refine ⟨⟨.single _ permitted seen shaped' rfl, ?_⟩, warranted_of_device refused⟩
          rw [View.writeBack?_of_flush permitted, seen]
          exact machine.view.journal_after_flush (id, page) ..
        · intro cause after panicked lies
          exact panicked lies (sound.backed lies holds.backing)
      · rename_i clean
        have unmodified : dirty = false := by simpa using clean
        exact ⟨sound.shaped, rfl, .inl ⟨rfl, .inl unmodified⟩⟩

/-! ## Evicting a page -/

theorem mark_spec {ε : Type} (sound : machine.Sound strict) {window : Option FileWindow}
    {wasDirty dirty : Bool}
    (recorded : machine.view.record (id, page) = some ⟨.inFrame frame window, wasDirty⟩)
    (modified : machine.view.modified (id, page) frame = dirty) :
    (onCatalog id (Action.update (·.put page ⟨.inFrame frame window, dirty⟩)) :
      Action ε Machine Unit).Ensures ⟨machine, log⟩
      (fun _ marked => machine.Through strict (Step.Tries (id, page)) marked.state ∧
        marked.state.view = machine.view.put (id, page) (some ⟨.inFrame frame window, dirty⟩))
      (fun _ _ => False) fun _ _ => False := by
  refine Ensures.mono (putRecord_spec sound.shaped (sound.live recorded).1) ?_
    (fun _ _ never => never) fun _ _ never => never
  rintro _ marked ⟨seen, shaped⟩
  refine ⟨?_, seen⟩
  cases dirty with
  | true =>
      have soiled : marked.state.view = machine.view.after (.soil (id, page)) := by
        rw [seen]
        simp [View.after, recorded]
      exact .single (.soil (id, page)) ⟨frame, window, ⟨wasDirty, recorded⟩, modified⟩ soiled shaped
        rfl
  | false =>
      have unmodified : wasDirty = false := by
        simp only [View.modified, recorded, Bool.or_eq_false_iff] at modified
        simp_all
      subst unmodified
      refine .still ?_ shaped
      rw [seen, View.put, ← recorded, Function.update_eq_self]

theorem evict_spec (sound : machine.Sound strict) {window : Option FileWindow}
    (holds : machine.view.Holds (id, page) frame window)
    (free : machine.view.Unpinned frame) :
    (evict id page).Ensures ⟨machine, log⟩
      (fun _ after => machine.Departed strict (id, page) after.state ∧
        after.state.view.holder frame = none ∧
        machine.Left strict (id, page) frame window after.state)
      (fun cause after => machine.Tried strict (id, page) after.state ∧
        machine.Warranted cause)
      (Excused strict) := by
  obtain ⟨wasDirty, recorded⟩ := holds.recorded
  obtain ⟨live, aligned, user⟩ := sound.live recorded
  obtain ⟨space, found⟩ := exists_space live
  obtain ⟨pins, written, held⟩ := sound.consistent.exists_holder holds
  simp only [evict, ensures_bind, ensures_space found, ← record_eq found, recorded]
  rw [ensures_isModified live aligned user]
  generalize known : ((machine.view.translation (id, page)).any (·.dirty) ||
    (machine.view.holder frame).any (·.written) || wasDirty) = dirty
  have modified : machine.view.modified (id, page) frame = dirty := by
    rw [← known, View.modified, recorded]
    simp only [Option.any_some, Bool.or_comm, Bool.or_left_comm]
  -- The bits are folded into the record first, so what follows starts from the marked machine.
  refine Ensures.mono (mark_spec sound recorded modified) ?_ (fun _ _ never => never.elim)
    fun _ _ never => never.elim
  rintro _ ⟨(marked : Machine), log⟩ ⟨first, seen⟩
  have soundMarked := sound.through first
  have recordedMarked : marked.view.record (id, page) = some ⟨.inFrame frame window, dirty⟩ := by
    simp [seen, View.put]
  have holdsMarked : marked.view.Holds (id, page) frame window := ⟨dirty, recordedMarked⟩
  have heldMarked : marked.view.holder frame = some ⟨id, page, pins, written⟩ := by
    rw [seen]
    exact held
  have modifiedMarked : marked.view.modified (id, page) frame = dirty := by
    rw [View.modified, recordedMarked, seen]
    cases dirty with
    | true => rfl
    | false =>
        simp only [Bool.or_eq_false_iff] at known
        simpa [View.put] using known.1
  have clean (unmodified : dirty = false) : marked.view.modified (id, page) frame = false :=
    modifiedMarked.trans unmodified
  -- The mark only says what the bits have said, so the same write is due as before.
  have written : (marked.view.writeBack? (id, page)).toList ++ marked.view.journal =
      (machine.view.writeBack? (id, page)).toList ++ machine.view.journal := by
    have entered : marked.view.journal = machine.view.journal := by rw [seen]; rfl
    rw [entered]
    cases window with
    | none =>
        rw [View.writeBack?_of_anonymous holdsMarked, View.writeBack?_of_anonymous ⟨_, recorded⟩]
    | some window =>
        rw [View.writeBack?_of_resident holdsMarked, View.writeBack?_of_resident ⟨_, recorded⟩,
          modifiedMarked, modified]
  refine Ensures.mono (moveOut_spec soundMarked recordedMarked (Pool.lt_size_of_holder heldMarked))
    ?_ ?_ fun _ _ excused => excused
  · rintro next ⟨(moved : Machine), log⟩ ⟨shapedMoved, settled⟩
    obtain ⟨alive, holders⟩ := settled.places
    rw [ensures_emit]
    refine Ensures.mono (putRecord_spec shapedMoved (by rw [alive, seen]; exact live)) ?_
      (fun _ _ never => never.elim) fun _ _ never => never.elim
    rintro _ ⟨(put : Machine), log⟩ ⟨seenPut, shapedPut⟩
    refine Ensures.mono (vacate_spec shapedPut (by rw [seenPut]; simpa [View.put, alive, seen])
      aligned user (by rw [seenPut]; exact (congrFun holders frame).trans heldMarked)) ?_
      (fun _ _ never => never.elim) fun _ _ never => never.elim
    rintro _ ⟨(after : Machine), log⟩ ⟨seenAfter, shapedAfter⟩
    have left := (settled.leave soundMarked.shaped shapedMoved holdsMarked
      (by rw [seen]; exact free) clean (by rw [seenAfter, seenPut]) shapedAfter).after_tries first
    refine ⟨⟨left.through, ?_⟩, ?_, left⟩
    · have entered : after.view.journal = moved.view.journal := by rw [seenAfter, seenPut]; rfl
      rw [entered, settled.journal holdsMarked clean, written]
    · rw [seenAfter]
      exact Function.update_self ..
  · rintro cause after ⟨failed, warranted⟩
    exact ⟨⟨first.trans failed.through, failed.journal.trans written⟩,
      first.warranted (fun _ tries => tries.evicts.addsNone) warranted⟩

/-! ## Choosing a victim -/

structure Same (strict : Prop) (before after : Machine) : Prop where
  view : after.view = before.view
  shaped : after.Shaped strict

theorem takeAccessed_spec (shaped : machine.Shaped strict) (live : machine.view.live id = true)
    (aligned : Aligned page) (user : IsUser page) :
    (Paged.onStore (takeAccessed id page)).Ensures ⟨machine, log⟩
      (fun _ (after : Traced Machine) => machine.Same strict after.state)
      (fun _ _ => False) fun _ _ => False := by
  obtain ⟨space, found⟩ := exists_space live
  obtain ⟨accessed, directory, taken, same, tight⟩ :=
    space.directory.takeAccessed_spec aligned user
  have present : machine.store.spaces.contains id = true := live
  simp only [Paged.onStore, takeAccessed, ensures_within, ensures_bind, ensures_look,
    ensures_insist, present, if_true, Store.onSpace, Store.space, found, ensures_orPanic, taken,
    ensures_update, ensures_pure]
  exact ⟨view_withDirectory_same found same, shaped.withSpace (tight (shaped.tight found))⟩

def Evictable (machine : Machine) (victim : Victim) : Prop :=
  (∃ window, machine.view.Holds (victim.owner, victim.page) victim.frame window) ∧
    machine.view.Unpinned victim.frame

theorem exists_holds_of_holder {holder : Holder} (sound : machine.Sound strict)
    (held : machine.view.holder frame = some holder) :
    ∃ window, machine.view.Holds (holder.space, holder.page) frame window := by
  refine View.exists_holds (sound.consistent.tenanted.mpr ?_)
  simp [View.tenant, held]

theorem Shaped.alike {pool : Pool} (shaped : machine.Shaped strict)
    (alike : machine.pool.Alike pool) : machine.Same strict (machine.withPool pool) :=
  ⟨view_withPool alike.holder alike.page alike.size, shaped.withPool alike.tended⟩

theorem advance_spec (sound : machine.Sound strict) :
    (Paged.advance (reclaimerFor id)).Ensures ⟨machine, log⟩
      (fun victim? (after : Traced Machine) => machine.Same strict after.state ∧
        ∀ victim, victim? = some victim → machine.Evictable victim)
      (fun _ _ => False) fun _ _ => False := by
  have turns := machine.pool.alike_turned
  rw [Paged.ensures_advance sound.shaped.hand]
  cases found : machine.pool.occupant? machine.pool.hand with
  | none => exact ⟨sound.shaped.alike turns, nofun⟩
  | some occupant =>
      simp only
      split
      · exact ⟨sound.shaped.alike turns, nofun⟩
      · rename_i free
        have held : machine.view.holder machine.pool.hand = some occupant.holder := by
          simp [view, Pool.holder, found]
        obtain ⟨window, dirty, recorded⟩ := exists_holds_of_holder sound held
        obtain ⟨live, aligned, user⟩ := sound.live recorded
        have quiet := sound.shaped.alike (turns.trans (Pool.alike_forget found))
        refine Ensures.mono (Paged.ensures_onStore.mp
          (takeAccessed_spec quiet.shaped (quiet.view ▸ live) aligned user)) ?_
          (fun _ _ never => never) fun _ _ never => never
        rintro accessed after ⟨seen, shaped⟩
        refine ⟨⟨seen.trans quiet.view, shaped⟩, fun victim chosen => ?_⟩
        split at chosen
        · cases chosen
        · cases chosen
          refine ⟨⟨window, dirty, recorded⟩, fun holder here => ?_⟩
          rw [held] at here
          cases here
          simpa [Occupant.pinned, Occupant.holder] using free

theorem Sound.same {after : Machine} (sound : machine.Sound strict)
    (same : machine.Same strict after) : after.Sound strict :=
  ⟨same.view ▸ sound.consistent, same.view ▸ sound.backed, same.shaped⟩

theorem Same.through {middle after : Machine} {kind : Step → Prop}
    (same : machine.Same strict middle) (through : middle.Through strict kind after) :
    machine.Through strict kind after :=
  (Through.still same.view same.shaped).trans through

/-- The clock changes nothing that can be seen, and stops at a page that may be evicted. -/
theorem sweep_spec (sound : machine.Sound strict) (rounds : Nat) :
    (Paged.sweep (reclaimerFor id) rounds).Ensures ⟨machine, log⟩
      (fun victim (after : Traced Machine) => machine.Same strict after.state ∧
        machine.Evictable victim)
      (fun _ _ => False) (Excused strict) := by
  induction rounds generalizing machine log with
  | zero =>
      simp only [Paged.sweep, ensures_bind, Paged.ensures_pool, ensures_panic]
      exact fun _ => .everyFramePinned _
  | succ rounds ih =>
      rw [Paged.sweep, ensures_bind]
      refine Ensures.mono (advance_spec sound) ?_ (fun _ _ never => never) fun _ _ never => never.elim
      rintro victim? ⟨turned, log⟩ ⟨same, evictable⟩
      cases victim? with
      | some victim => exact ⟨same, evictable victim rfl⟩
      | none =>
          refine Ensures.mono (ih (sound.same same)) ?_ (fun _ _ never => never)
            fun _ _ excused => excused
          rintro victim after ⟨still, holds, free⟩
          refine ⟨⟨still.view.trans same.view, still.shaped⟩, ?_, ?_⟩
          · exact same.view ▸ holds
          · exact same.view ▸ free

def Evicted (strict : Prop) (before after : Machine) : Prop :=
  ∃ chosen victim, before.Same strict chosen ∧ chosen.Evictable victim ∧
    (evict victim.owner victim.page).Leads chosen after

theorem Evicted.evicts {after : Machine} (sound : machine.Sound strict)
    (evicted : machine.Evicted strict after) : ∃ key frame window,
      machine.view.Holds key frame window ∧ machine.Through strict (Step.Evicts key) after := by
  obtain ⟨chosen, victim, same, ⟨⟨window, holds⟩, free⟩, ran⟩ := evicted
  have departed : chosen.Departed strict (victim.owner, victim.page) after :=
    Ensures.of_leads ran fun _ => (evict_spec (sound.same same) holds free).mono
      (fun _ _ known => known.1) (fun _ _ known => known.1.departed) fun _ _ _ => trivial
  exact ⟨_, _, _, same.view ▸ holds, same.through departed.through⟩

def Freed (strict : Prop) (before : Machine) (frame : Nat) (after : Machine) : Prop :=
  ∃ key window, before.view.Holds key frame window ∧ before.view.Unpinned frame ∧
    before.Left strict key frame window after

def Stuck (strict : Prop) (before after : Machine) : Prop :=
  ∃ key frame window, before.view.Holds key frame window ∧ before.view.Unpinned frame ∧
    before.Through strict (Step.Tries key) after

theorem reclaim_spec (sound : machine.Sound strict) :
    (Paged.reclaim (reclaimerFor id)).Ensures ⟨machine, log⟩
      (fun frame (after : Traced Machine) => machine.Evicted strict after.state ∧
        machine.Freed strict frame after.state ∧
        after.state.view.holder frame = none ∧ frame < after.state.pool.size)
      (fun cause (after : Traced Machine) => machine.Stuck strict after.state ∧
        machine.Evicted strict after.state ∧ machine.Warranted cause) (Excused strict) := by
  simp only [Paged.reclaim, Paged.selectVictim, ensures_bind, Paged.ensures_pool, ensures_emit]
  refine Ensures.mono (sweep_spec sound _) ?_ (fun _ _ never => never.elim)
    fun _ _ excused => excused
  rintro ⟨frame, owner, page⟩ ⟨(chosen : Machine), log⟩ ⟨same, ⟨window, holds⟩, free⟩
  have soundChosen := sound.same same
  have holdsChosen : chosen.view.Holds (owner, page) frame window := same.view ▸ holds
  have freeChosen : chosen.view.Unpinned frame := same.view ▸ free
  obtain ⟨dirty, recorded⟩ := holdsChosen.recorded
  have present : chosen.store.spaces.contains owner = true := (soundChosen.live recorded).1
  obtain ⟨pins, written, held⟩ := sound.consistent.exists_holder holds
  have inside : frame < machine.pool.size := Pool.lt_size_of_holder held
  have ends (log : Array Event) : (evict owner page).Ensures ⟨chosen, log⟩
      (fun _ (after : Traced Machine) => (after.state.pool.occupant? frame).isNone = true ∧
        machine.Evicted strict after.state ∧ machine.Freed strict frame after.state ∧
        after.state.view.holder frame = none ∧ frame < after.state.pool.size)
      (fun cause (after : Traced Machine) => machine.Stuck strict after.state ∧
        machine.Evicted strict after.state ∧ machine.Warranted cause) (Excused strict) := by
    have evictable : chosen.Evictable ⟨frame, owner, page⟩ := ⟨⟨window, holdsChosen⟩, freeChosen⟩
    refine Ensures.mono (evict_spec soundChosen holdsChosen freeChosen).leads ?_ ?_
      fun _ _ excused => excused
    · rintro _ after ⟨⟨departed, vacant, left⟩, ran⟩
      have all := same.through departed.through
      have gone : (after.state.pool.occupant? frame).isNone = true := by
        simpa [view, Pool.holder] using vacant
      have freed : machine.Freed strict frame after.state :=
        ⟨_, window, holds, free, left.after_tries (.still same.view same.shaped)⟩
      exact ⟨gone, ⟨chosen, _, same, evictable, ran⟩, freed, vacant,
        Nat.lt_of_lt_of_eq inside all.frames.symm⟩
    · rintro cause after ⟨⟨tried, warranted⟩, ran⟩
      exact ⟨⟨_, frame, window, holds, free, same.through tried.through⟩,
        ⟨chosen, _, same, evictable, ran⟩, fun short => same.view ▸ warranted short⟩
  simp only [reclaimerFor]
  split
  all_goals
    simp only [ensures_bind, ensures_insist, look, ensures_look, present, if_true, ensures_emit]
    refine (ends _).mono ?_ (fun _ _ known => known) fun _ _ excused => excused
    rintro _ after ⟨gone, known⟩
    rw [if_pos gone, ensures_pure]
    exact known

def Cleared (strict : Prop) (before after : Machine) : Prop :=
  after = before ∨ before.Evicted strict after

def Room (strict : Prop) (before : Machine) (frame : Nat) (after : Machine) : Prop :=
  (before.pool.LowestFree frame ∧ after = before) ∨
    before.pool.Full ∧ before.Freed strict frame after

structure Refused (strict : Prop) (before : Traced Machine) (id : Nat) (cause : PagingError)
    (after : Traced Machine) : Prop where
  full : before.state.pool.Full
  ran : Paged.reclaim (reclaimerFor id) before = .error (.failed cause) after
  stuck : before.state.Stuck strict after.state
  evicted : before.state.Evicted strict after.state

theorem Shaped.occupy_eq (shaped : machine.Shaped strict) (inside : frame < machine.pool.size)
    (free : machine.view.holder frame = none) (owner page : Nat) (clear : Bool) :
    machine.pool.occupy frame owner page clear = .ok (machine.pool.lend frame owner page clear) := by
  have small : machine.pool.size < wordLimit := Nat.lt_of_le_of_lt shaped.narrow (by decide)
  exact Pool.occupy_eq inside (shaped.counted.countable inside free small) owner page clear

theorem claim_spec (sound : machine.Sound strict) {clear : Bool} :
    (Paged.claim (reclaimerFor id) id page clear).Ensures ⟨machine, log⟩
      (fun frame (after : Traced Machine) => ∃ middle : Machine,
        machine.Cleared strict middle ∧ machine.Room strict frame middle ∧
          middle.view.holder frame = none ∧ frame < middle.pool.size ∧
          after.state = middle.withPool (middle.pool.lend frame id page clear))
      (fun cause (after : Traced Machine) => Refused strict ⟨machine, log⟩ id cause after ∧
        machine.Warranted cause) (Excused strict) := by
  simp only [Paged.claim, ensures_bind, Paged.ensures_pool]
  cases lowest : machine.pool.lowestFree? with
  | some frame =>
      have free := Pool.lowestFree?_spec lowest
      have taken := sound.shaped.occupy_eq free.inside free.free id page clear
      rw [ensures_bind, ensures_pure, ensures_bind, ensures_changePool taken, ensures_bind,
        ensures_emit]
      exact ⟨machine, .inl rfl, .inl ⟨free, rfl⟩, free.free, free.inside, rfl⟩
  | none =>
      have full := sound.shaped.counted.full lowest
      rw [ensures_bind]
      refine Ensures.mono (reclaim_spec sound).known ?_ ?_ fun _ _ excused => excused.1
      · rintro frame ⟨(middle : Machine), log⟩ ⟨⟨evicted, freed, vacant, inside⟩, -⟩
        obtain ⟨key, window, holds, free, left⟩ := freed
        have taken := left.through.shaped.occupy_eq inside vacant id page clear
        rw [ensures_bind, ensures_changePool taken, ensures_bind, ensures_emit]
        exact ⟨middle, .inr evicted, .inr ⟨full, key, window, holds, free, left⟩, vacant, inside, rfl⟩
      · rintro cause after ⟨⟨stuck, evicted, warranted⟩, ran⟩
        exact ⟨⟨full, ran, stuck, evicted⟩, warranted⟩

end Machine

end DemandPaging
