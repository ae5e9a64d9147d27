import DemandPaging.Machine.Fault
import DemandPaging.Proofs.Machine.Eviction

namespace DemandPaging

def Step.Paging : Step → Prop
  | .scribble _ _ | .litter _ _ | .soil _ | .flush _ _ _ _ _ | .swapOut _ _ _ | .fileOut _ _ _
  | .bringIn _ _ _ | .pin _ _ | .unpin _ _ => True
  | _ => False

def Step.MakesRoom : Step → Prop
  | .scribble _ _ | .litter _ _ | .soil _ | .flush _ _ _ _ _ | .swapOut _ _ _ | .fileOut _ _ _ =>
    True
  | _ => False

theorem Step.Evicts.makesRoom {step : Step} {key : Nat × Nat} (evicts : step.Evicts key) :
    step.MakesRoom := by
  cases step <;> trivial

theorem Step.MakesRoom.paging {step : Step} (room : step.MakesRoom) : step.Paging := by
  cases step <;> trivial

theorem Step.MakesRoom.spares {step : Step} (room : step.MakesRoom) (key : Nat × Nat) :
    step.Spares key := by
  cases step with
  | scribble | litter | soil | flush | swapOut | fileOut => exact ⟨fun _ => rfl, nofun, trivial⟩
  | _ => exact room.elim

theorem Step.Paging.addsNone {step : Step} (paging : step.Paging) : step.AddsNone := by
  cases step with
  | install => exact paging.elim
  | _ => trivial

namespace View

variable {strict : Prop} {view : View} {key other : Nat × Nat} {frame : Nat}

theorem record_of_evicts {step : Step} (evicts : step.Evicts key) (distinct : other ≠ key) :
    (view.after step).record other = view.record other := by
  cases step with
  | soil | flush | swapOut | fileOut =>
      cases evicts
      simp [after, put, releaseFrame, Residence.frame?, lead, hold, distinct, write, overwrite,
        mark, stow]
  | litter => rfl
  | _ => exact evicts.elim

def trial (view : View) (key : Nat × Nat) (frame : Nat) (contents : Page) : View :=
  (view.fill frame contents).hold frame (some ⟨key.1, key.2, 0, false⟩)

theorem hold_none_trial (free : view.holder frame = none) (contents : Page) :
    (view.trial key frame contents).hold frame none = view.after (.scribble frame contents) := by
  simp only [trial, hold, fill, after, Function.update_idem]
  rw [Function.update_eq_self_iff.mpr free.symm]

/-- A page is brought in bit by bit: its contents come first, and its record last. -/
theorem after_bringIn {residence : Residence} :
    view.after (.bringIn key frame residence) =
      (((((view.trial key frame (view.image residence)).lead key
        (some ⟨frame, false⟩)).releaseSlot residence).hold frame
        (some ⟨key.1, key.2, 1, false⟩)).put key
        (some ⟨.inFrame frame residence.window?, false⟩)) := by
  cases residence <;>
    simp only [after, trial, releaseSlot, Residence.slot?, Option.elim_none, Option.elim_some,
      hold, fill, lead, put, mark, Function.update_idem]

end View

theorem Path.record_of_evicts {strict : Prop} {first last : View} {steps : List Step}
    {key other : Nat × Nat} (path : Path strict first steps last)
    (evicts : ∀ step ∈ steps, step.Evicts key) (distinct : other ≠ key) :
    last.record other = first.record other := by
  induction path with
  | nil => rfl
  | cons permitted later ih =>
      rw [ih fun step member => evicts step (List.mem_cons_of_mem _ member)]
      exact View.record_of_evicts (evicts _ List.mem_cons_self) distinct

theorem Step.Paging.inner {step : Step} (paging : step.Paging) : step.Inner := by
  cases step with
  | create | destroy => exact paging.elim
  | _ => trivial

namespace Machine

open DemandPaging.Action

variable {strict : Prop} {machine middle : Machine} {log : Array Event} {id page frame : Nat}

theorem Through.live {after : Machine} (through : machine.Through strict Step.Paging after) :
    after.view.live = machine.view.live :=
  through.live_eq fun _ => Step.Paging.inner

/-! ## Filling a frame -/

structure Trying (strict : Prop) (middle : Machine) (key : Nat × Nat) (frame : Nat)
    (contents : Page) (machine : Machine) : Prop where
  view : machine.view = middle.view.trial key frame contents
  shaped : machine.Shaped strict

theorem Trying.inside {key : Nat × Nat} {contents : Page}
    (trying : middle.Trying strict key frame contents machine) : frame < machine.pool.size := by
  have held : machine.view.holder frame = some ⟨key.1, key.2, 0, false⟩ := by
    rw [trying.view]
    exact Function.update_self ..
  exact Pool.lt_size_of_holder held

theorem view_of_edit (inside : frame < machine.pool.size) (f : Page → Page) :
    (machine.withPool (machine.pool.edit frame f)).view =
      machine.view.fill frame (f (machine.view.contents frame)) :=
  view_withPool (Pool.holder_edit f) (Pool.page_edit inside f) (Pool.size_edit f)

theorem Shaped.edit (shaped : machine.Shaped strict) (f : Page → Page) :
    (machine.withPool (machine.pool.edit frame f)).Shaped strict :=
  shaped.withPool (Pool.tended_edit f)

theorem Trying.filled {key : Nat × Nat} {contents : Page}
    (trying : middle.Trying strict key frame contents machine) :
    machine.view.contents frame = contents := by
  rw [trying.view]
  exact Function.update_self ..

theorem Trying.edit {key : Nat × Nat} {contents : Page}
    (trying : middle.Trying strict key frame contents machine) (f : Page → Page) :
    middle.Trying strict key frame (f contents) (machine.withPool (machine.pool.edit frame f)) := by
  refine ⟨(view_of_edit trying.inside f).trans ?_, trying.shaped.edit f⟩
  rw [trying.filled, trying.view]
  simp only [View.trial, View.fill, View.hold, Function.update_idem]

theorem transferTo_spec {key : Nat × Nat} {contents : Page}
    (trying : middle.Trying strict key frame contents machine) {transfer : Transfer}
    (short : transfer.bytes.length ≤ 4096) :
    (transferTo frame transfer).Ensures ⟨machine, log⟩
      (fun failure after => failure = transfer.failure ∧
        middle.Trying strict key frame (contents.overlay 0 transfer.bytes) after.state)
      (fun _ _ => False) (Excused strict) := by
  have laid : (machine.pool.page frame).lay 0 transfer.bytes = .ok _ :=
    Block.lay_eq _ (by rwa [Nat.zero_add])
  rw [transferTo, ensures_bind,
    ensures_changePool (Pool.rewrite_eq trying.inside (·.overlay 0 transfer.bytes) laid)]
  exact ⟨rfl, trying.edit (·.overlay 0 transfer.bytes)⟩

theorem overlay_eq_windowPage {view : View} {window : FileWindow} {bytes : Bytes}
    (read : ∀ i : Nat, bytes[i]? = (view.layout window.file).bind fun layout =>
      if i < Storage.available layout.length window.offset window.length then
        some (view.byte (layout.bank, layout.origin + (window.offset + i)))
      else none) :
    (Block.zero 4096).overlay 0 bytes = view.windowPage window := by
  apply Vector.ext
  intro i small
  simp only [Block.getElem_overlay, Nat.zero_le, if_true, Nat.sub_zero, read i, View.windowPage,
    Vector.getElem_ofFn, View.backed, View.fileByte, Block.zero, Vector.getElem_replicate]
  rcases Option.eq_none_or_eq_some (view.layout window.file) with there | ⟨layout, there⟩
  · simp [there]
  · simp only [there, Option.bind_some, Option.elim_some]
    split <;> rfl

theorem fill_spec {contents : Page} {residence : Residence} {dirty : Bool}
    (trying : middle.Trying strict (id, page) frame contents machine)
    (sound : middle.Sound strict)
    (recorded : middle.view.record (id, page) = some ⟨residence, dirty⟩)
    (away : residence.frame? = none)
    (clear : residence.slot? = none → contents = Block.zero 4096) :
    (fill frame residence).Ensures ⟨machine, log⟩
      (fun failure (after : Traced Machine) => ∃ loaded,
        middle.Trying strict (id, page) frame loaded after.state ∧
          (failure = none → loaded = middle.view.image residence))
      (fun _ _ => False) (Excused strict) := by
  unfold fill
  rw [ensures_bind, ensures_contents trying.inside]
  cases residence with
  | untouched => exact ⟨contents, trying, fun _ => clear rfl⟩
  | inFrame => cases away
  | inSwap slot =>
      have taken : machine.store.swap.inUse slot = true := by
        have used : middle.view.used slot = true :=
          sound.consistent.stored.mpr ⟨(id, page), by simp [View.slotOf, recorded, Residence.slot?]⟩
        have same : machine.view.used = middle.view.used := by rw [trying.view]; rfl
        rw [← same] at used
        exact used
      dsimp only
      rw [ensures_bind, ensures_onSwap]
      refine Ensures.mono (SwapArea.fetch_spec trying.shaped.slots taken) ?_
        (fun _ _ never => never) ?_
      · rintro transfer ⟨⟨used, device⟩, log⟩ ⟨same, kept, medium, begun, whole⟩
        cases same
        have pages : SwapArea.page ⟨machine.store.swap.used, device⟩ = machine.store.swap.page :=
          SwapArea.page_congr medium
        have still : middle.Trying strict (id, page) frame contents
            (machine.withSwap ⟨machine.store.swap.used, device⟩) :=
          ⟨(view_withSwap rfl pages rfl).trans trying.view, trying.shaped.withSwap kept⟩
        have short : transfer.bytes.length ≤ 4096 := by simpa using begun.length_le
        refine (transferTo_spec still short).mono ?_ (fun _ _ never => never) fun _ _ panics => panics
        rintro _ after ⟨rfl, laid⟩
        refine ⟨_, laid, fun complete => ?_⟩
        rw [whole complete, Block.overlay_toList]
        exact congrFun (congrArg View.slot trying.view) slot
      · rintro cause after ⟨rfl, worn⟩ -
        exact .countOverflow (.inl worn)
  | inFile window =>
      have same : middle.view.layout = machine.view.layout := by rw [trying.view]; rfl
      have sameByte : middle.view.byte = machine.view.byte := by rw [trying.view]; rfl
      dsimp only
      rw [ensures_bind, ensures_onStorage]
      refine Ensures.mono (Storage.load_spec window) ?_ (fun _ _ never => never) ?_
      · rintro transfer ⟨storage, log⟩ ⟨idle, short, read⟩
        have still : middle.Trying strict (id, page) frame contents
            (machine.withStorage storage) :=
          ⟨(view_of_idle idle).trans trying.view, trying.shaped.withStorage idle.formed⟩
        refine (transferTo_spec still (Nat.le_trans short window.short)).mono ?_
          (fun _ _ never => never) fun _ _ panics => panics
        rintro _ after ⟨rfl, laid⟩
        refine ⟨_, laid, fun complete => ?_⟩
        rw [clear rfl]
        apply overlay_eq_windowPage
        intro i
        rw [same, sameByte]
        exact read complete i
      -- The window lies in its file, so only a count of transfers can be full.
      · intro cause after panicked strict
        obtain ⟨rfl, worn⟩ := panicked (trying.shaped.formed strict) (by
          rcases sound.backed strict (View.backing_of_record recorded) with empty | ⟨layout, there, -⟩
          · exact .inl empty
          · rw [same] at there
            exact .inr (Option.isSome_iff_exists.mpr ⟨layout, there⟩))
        exact .countOverflow (.inr (.inl worn))

/-! ## Bringing a page in -/

theorem abandon_spec {contents : Page} {report : Event} {cause : PagingError} {α : Type}
    (trying : middle.Trying strict (id, page) frame contents machine)
    (free : middle.view.holder frame = none) :
    (abandon frame report cause : Action PagingError Machine α).Ensures ⟨machine, log⟩
      (fun _ _ => False)
      (fun failure after =>
        failure = cause ∧ Moves strict middle [.scribble frame contents] after.state)
      (Excused strict) := by
  have held : machine.view.holder frame = some ⟨id, page, 0, false⟩ := by
    rw [trying.view]
    exact Function.update_self ..
  simp only [abandon, ensures_bind, ensures_emit]
  refine Ensures.mono (release_spec trying.shaped held) ?_ (fun _ _ never => never.elim)
    fun _ _ never => never.elim
  rintro _ after ⟨seen, shaped⟩
  refine ⟨rfl, .single _ free ?_ shaped⟩
  rw [seen, trying.view, View.hold_none_trial free]

theorem load_spec {contents : Page} {residence : Residence} {dirty : Bool}
    (trying : middle.Trying strict (id, page) frame contents machine)
    (sound : middle.Sound strict) (free : middle.view.holder frame = none)
    (recorded : middle.view.record (id, page) = some ⟨residence, dirty⟩)
    (away : residence.frame? = none)
    (clear : residence.slot? = none → contents = Block.zero 4096) :
    (load id page frame residence).Ensures ⟨machine, log⟩
      (fun _ (after : Traced Machine) =>
        middle.Trying strict (id, page) frame (middle.view.image residence) after.state)
      (fun cause (after : Traced Machine) => cause ≠ .outOfSwap ∧
        ∃ junk, Moves strict middle [.scribble frame junk] after.state)
      (Excused strict) := by
  rw [load, ensures_bind]
  refine Ensures.mono (fill_spec trying sound recorded away clear) ?_ (fun _ _ never => never.elim)
    fun _ _ excused => excused
  rintro failure after ⟨loaded, still, whole⟩
  cases failure with
  | none =>
      rw [ensures_pure]
      exact whole rfl ▸ still
  | some cause =>
      exact Ensures.mono (abandon_spec still free) (fun _ _ never => never.elim)
        (fun _ _ failed => ⟨by simp [failed.1], loaded, failed.2⟩) fun _ _ excused => excused

theorem lead_spec {contents : Page}
    (trying : middle.Trying strict (id, page) frame contents machine)
    (live : middle.view.live id = true) (aligned : Aligned page) (user : IsUser page)
    (free : middle.view.holder frame = none)
    (unmapped : middle.view.translation (id, page) = none) :
    (lead id page frame).Ensures ⟨machine, log⟩
      (fun _ (after : Traced Machine) => after.state.Shaped strict ∧ after.state.view =
        (middle.view.trial (id, page) frame contents).lead (id, page) (some ⟨frame, false⟩))
      (fun cause (after : Traced Machine) => cause ≠ .outOfSwap ∧
        ∃ junk, Moves strict middle [.scribble frame junk] after.state)
      (Excused strict) := by
  have liveHere : machine.view.live id = true := by rw [trying.view]; exact live
  obtain ⟨space, found⟩ := exists_space liveHere
  have small : frame < Entry.frameLimit := Nat.lt_of_lt_of_le trying.inside trying.shaped.narrow
  have absent : space.directory.translation page = none := by
    rw [← translation_eq found, trying.view]
    exact unmapped
  rw [lead, ensures_bind, install, ensures_onSpace found]
  simp only [ensures_bind, ensures_look, ensures_orPanic]
  rcases Directory.map_spec aligned user small absent true with
    ⟨directory, mapped, changed, tight⟩ | ⟨directory, refused, same, tight⟩
  · simp only [mapped, ensures_update, ensures_pure, if_true]
    refine ⟨trying.shaped.withSpace (tight (trying.shaped.tight found)), ?_⟩
    rw [view_withDirectory found changed, trying.view]
  · simp only [refused, ensures_update, ensures_pure, Bool.false_eq_true, if_false]
    have still : middle.Trying strict (id, page) frame contents
        (machine.withSpace id { space with directory := directory }) := by
      exact ⟨(view_withDirectory_same found same).trans trying.view,
        trying.shaped.withSpace (tight (trying.shaped.tight found))⟩
    exact Ensures.mono (abandon_spec still free) (fun _ _ never => never.elim)
      (fun _ _ failed => ⟨by simp [failed.1], contents, failed.2⟩) fun _ _ excused => excused

theorem releaseSlot_spec {residence : Residence} (shaped : machine.Shaped strict)
    (taken : ∀ slot, residence.slot? = some slot → machine.view.used slot = true) :
    (releaseSlot residence).Ensures ⟨machine, log⟩
      (fun _ (after : Traced Machine) => after.state.Shaped strict ∧
        after.state.view = machine.view.releaseSlot residence)
      (fun _ _ => False) fun _ _ => False := by
  cases residence with
  | inSwap slot =>
      rw [releaseSlot, ensures_onSwap]
      refine Ensures.mono (SwapArea.release_spec shaped.slots (taken slot rfl)) ?_
        (fun _ _ never => never) fun _ _ never => never
      rintro _ ⟨area, log⟩ ⟨kept, emptied, pages, size⟩
      exact ⟨shaped.withSwap kept, view_withSwap emptied pages size⟩
  | untouched | inFrame | inFile => exact ⟨shaped, rfl⟩

theorem view_of_amended {pool : Pool} {f : Holder → Holder}
    (amended : Pool.Amended machine.pool pool frame f) :
    (machine.withPool pool).view =
      machine.view.hold frame ((machine.view.holder frame).map f) :=
  view_withPool amended.holder amended.page amended.size

theorem pinFrame_spec {holder : Holder} (shaped : machine.Shaped strict)
    (held : machine.view.holder frame = some holder) :
    (Paged.changePool (·.pin frame) : Action PagingError Machine Unit).Ensures ⟨machine, log⟩
      (fun _ (after : Traced Machine) => after.state.Shaped strict ∧ after.state.view =
        machine.view.hold frame (some { holder with pins := holder.pins + 1 }))
      (fun _ _ => False) (Excused strict) := by
  rcases Pool.pin_spec held with refused | ⟨pool, done, amended⟩
  · rw [Paged.changePool, ensures_change]
    simp only [refused]
    exact fun _ => .pinOverflow frame
  · rw [ensures_changePool done]
    refine ⟨shaped.withPool amended.toTended, ?_⟩
    rw [view_of_amended amended, held, Option.map_some]

theorem Cleared.elsewhere {middle : Machine} (sound : machine.Sound strict)
    (cleared : machine.Cleared strict middle) {record : PageRecord}
    (recorded : machine.view.record (id, page) = some record)
    (away : record.residence.frame? = none) : machine.Through strict Step.MakesRoom middle ∧
      middle.view.record (id, page) = some record := by
  rcases cleared with rfl | evicted
  · exact ⟨.refl sound.shaped, recorded⟩
  obtain ⟨victim, frame, window, holds, steps, moves, evicts⟩ := evicted.evicts sound
  refine ⟨⟨steps, moves, fun step member => (evicts step member).makesRoom⟩, ?_⟩
  rw [moves.path.record_of_evicts evicts, recorded]
  exact (holds.ne_of_away (View.frameOf_of_away recorded away)).symm

theorem bringIn_spec (sound : machine.Sound strict) {residence : Residence} {dirty : Bool}
    (recorded : machine.view.record (id, page) = some ⟨residence, dirty⟩)
    (away : residence.frame? = none) :
    (bringIn id page residence).Ensures ⟨machine, log⟩
      (fun frame (after : Traced Machine) => ∃ middle, machine.Cleared strict middle ∧
        machine.Room strict frame middle ∧
        Moves strict middle [.bringIn (id, page) frame residence] after.state)
      (fun cause (after : Traced Machine) => (Refused strict ⟨machine, log⟩ id cause after ∨
        ∃ middle frame junk, machine.Cleared strict middle ∧ machine.Room strict frame middle ∧
          Moves strict middle [.scribble frame junk] after.state) ∧ machine.Warranted cause)
      (Excused strict) := by
  rw [bringIn, ensures_bind]
  refine Ensures.mono (claim_spec sound) ?_
    (fun _ _ failed => ⟨.inl failed.1, failed.2⟩) fun _ _ excused => excused
  · rintro frame ⟨claimed, _⟩ ⟨middle, cleared, room, free, inside, rfl⟩
    obtain ⟨through, recorded'⟩ := cleared.elsewhere sound recorded away
    have soundMiddle := sound.through through
    obtain ⟨live, aligned, user⟩ := soundMiddle.live recorded'
    obtain ⟨held, filled, tended⟩ := Pool.lend_spec inside free id page
      residence.slot?.isNone
    have trying : middle.Trying strict (id, page) frame
        (if residence.slot?.isNone then Block.zero 4096 else middle.view.contents frame)
        (middle.withPool (middle.pool.lend frame id page residence.slot?.isNone)) :=
      ⟨view_withPool held filled tended.size, soundMiddle.shaped.withPool tended⟩
    have unmapped : middle.view.translation (id, page) = none :=
      soundMiddle.consistent.unmapped (View.frameOf_of_away recorded' away)
    -- Whatever fails from here on has filled no more than the frame, which is free again.
    have givesUp (cause : PagingError) (after : Traced Machine) (failed : cause ≠ .outOfSwap ∧
        ∃ junk, Moves strict middle [.scribble frame junk] after.state) :
        (Refused strict ⟨machine, log⟩ id cause after ∨ ∃ middle frame junk,
          machine.Cleared strict middle ∧ machine.Room strict frame middle ∧
            Moves strict middle [.scribble frame junk] after.state) ∧ machine.Warranted cause := by
      obtain ⟨other, junk, last⟩ := failed
      exact ⟨.inr ⟨middle, frame, junk, cleared, room, last⟩, fun short => absurd short other⟩
    rw [ensures_bind]
    refine Ensures.mono (load_spec trying soundMiddle free recorded' away ?_) ?_
      givesUp fun _ _ excused => excused
    · intro clear
      rw [clear]
      rfl
    rintro _ ⟨(loaded : Machine), _⟩ still
    rw [ensures_bind]
    refine Ensures.mono (lead_spec still live aligned user free unmapped) ?_
      givesUp fun _ _ excused => excused
    rintro _ ⟨(led : Machine), _⟩ ⟨shapedLed, seenLed⟩
    rw [ensures_bind]
    refine Ensures.mono (releaseSlot_spec shapedLed fun slot taken => ?_) ?_
      (fun _ _ never => never.elim) fun _ _ never => never.elim
    · rw [seenLed]
      exact soundMiddle.consistent.stored.mpr ⟨(id, page), by simp [View.slotOf, recorded', taken]⟩
    rintro _ ⟨(released : Machine), _⟩ ⟨shapedReleased, seenReleased⟩
    have heldReleased : released.view.holder frame = some ⟨id, page, 0, false⟩ := by
      rw [seenReleased, seenLed]
      cases residence <;> exact Function.update_self ..
    rw [ensures_bind]
    refine Ensures.mono (pinFrame_spec shapedReleased heldReleased) ?_
      (fun _ _ never => never.elim) fun _ _ excused => excused
    rintro _ ⟨(pinned : Machine), _⟩ ⟨shapedPinned, seenPinned⟩
    have livePinned : pinned.view.live id = true := by
      rw [seenPinned, seenReleased, seenLed]
      cases residence <;> exact live
    have recordedPinned : pinned.view.record (id, page) = some ⟨residence, dirty⟩ := by
      rw [seenPinned, seenReleased, seenLed]
      cases residence <;> exact recorded'
    rw [ensures_bind]
    refine Ensures.mono (replaceRecord_spec shapedPinned livePinned recordedPinned) ?_
      (fun _ _ never => never.elim) fun _ _ never => never.elim
    rintro _ ⟨(put : Machine), _⟩ ⟨seenPut, shapedPut⟩
    rw [ensures_bind, ensures_emit, ensures_pure]
    -- Nothing can fail any more, and what was done since the frame was free is a single step.
    refine ⟨middle, cleared, room, .single _ ⟨⟨dirty, recorded'⟩, away, free⟩ ?_ shapedPut⟩
    rw [seenPut, seenPinned, seenReleased, seenLed]
    exact View.after_bringIn.symm

/-! ## Faults -/

structure FaultedIn (strict : Prop) (before : Machine) (key : Nat × Nat) (frame more : Nat)
    (after : Machine) : Prop where
  through : before.Through strict Step.Paging after
  holds : ∃ window, after.view.Holds key frame window
  fresh : ∀ window dirty, before.view.record key = some ⟨.inFile window, dirty⟩ →
    after.view.contents frame = after.view.windowPage window
  firm : before.view.Firm after.view
  pins : after.view.pins = Function.update before.view.pins key (before.view.pins key + more)

structure Settled (strict : Prop) (before after : Machine) : Prop where
  through : before.Through strict Step.Paging after
  firm : before.view.Firm after.view
  pins : after.view.pins = before.view.pins

structure Failed (strict : Prop) (before : Machine) (cause : PagingError) (after : Machine) : Prop
    extends Settled strict before after where
  warranted : before.Warranted cause

theorem Settled.still {after : Machine} (seen : after.view = machine.view)
    (shaped : after.Shaped strict) : machine.Settled strict after :=
  ⟨.still seen shaped, seen ▸ .refl _, by rw [seen]⟩

theorem Settled.trans {after : Machine} (first : machine.Settled strict middle)
    (second : middle.Settled strict after) : machine.Settled strict after :=
  ⟨first.through.trans second.through, first.firm.trans second.firm, second.pins.trans first.pins⟩

theorem Failed.refl (shaped : machine.Shaped strict) {cause : PagingError}
    (other : cause ≠ .outOfSwap) : machine.Failed strict cause machine :=
  ⟨.still rfl shaped, fun short => absurd short other⟩

theorem Settled.fail {after : Machine} {cause : PagingError} (first : machine.Settled strict middle)
    (failed : middle.Failed strict cause after) : machine.Failed strict cause after :=
  ⟨first.trans failed.toSettled,
    first.through.warranted (fun _ => Step.Paging.addsNone) failed.warranted⟩

theorem Sound.settled (sound : machine.Sound strict) {after : Machine}
    (through : machine.Through strict Step.MakesRoom after) : machine.Settled strict after := by
  obtain ⟨firm, pins⟩ := sound.calm through fun _ => Step.MakesRoom.spares
  exact ⟨through.mono fun _ => Step.MakesRoom.paging, firm, pins⟩

theorem FaultedIn.settled {key : Nat × Nat} {after : Machine}
    (faulted : machine.FaultedIn strict key frame 0 after) : machine.Settled strict after :=
  ⟨faulted.through, faulted.firm, by rw [faulted.pins, Nat.add_zero, Function.update_eq_self]⟩

theorem FaultedIn.of_bringIn (sound : machine.Sound strict) {middle after : Machine}
    {residence : Residence} {dirty : Bool}
    (recorded : machine.view.record (id, page) = some ⟨residence, dirty⟩)
    (away : residence.frame? = none) (cleared : machine.Cleared strict middle)
    (last : Moves strict middle [.bringIn (id, page) frame residence] after) :
    machine.FaultedIn strict (id, page) frame 1 after := by
  obtain ⟨through, -⟩ := cleared.elsewhere sound recorded away
  obtain ⟨permitted, seen⟩ := last.path.of_single
  have soundMiddle := sound.through through
  obtain ⟨through', firm, pins⟩ := sound.settled through
  refine ⟨through'.trans (last.through trivial), ⟨residence.window?, false, ?_⟩, ?_, ?_, ?_⟩
  · rw [seen, View.record_after_bringIn, Function.update_self]
  · intro window other outside
    rw [recorded] at outside
    cases outside
    rw [seen, View.contents_after_bringIn, Function.update_self]
    rfl
  · rw [seen]
    exact firm.trans (soundMiddle.consistent.firm_after trivial permitted)
  · rw [seen, View.pins_after soundMiddle.consistent permitted, Step.tally, pins]

theorem pinPage_spec (sound : machine.Sound strict) (live : machine.view.live id = true)
    (aligned : Aligned page) :
    (pinPage id page).Ensures ⟨machine, log⟩
      (fun frame (after : Traced Machine) =>
        machine.FaultedIn strict (id, page) frame 1 after.state)
      (fun cause (after : Traced Machine) => machine.Failed strict cause after.state)
      (Excused strict) := by
  obtain ⟨space, found⟩ := exists_space live
  simp only [pinPage, ensures_bind, ensures_insist, if_pos aligned, ensures_space found,
    ← record_eq found]
  rcases recorded : machine.view.record (id, page) with _ | ⟨residence, dirty⟩
  · exact .refl sound.shaped (by simp)
  have comesIn (away : residence.frame? = none) :
      (bringIn id page residence).Ensures ⟨machine, log⟩
        (fun frame (after : Traced Machine) =>
          machine.FaultedIn strict (id, page) frame 1 after.state)
        (fun cause (after : Traced Machine) => machine.Failed strict cause after.state)
        (Excused strict) := by
    refine Ensures.mono (bringIn_spec sound recorded away) ?_ ?_ fun _ _ excused => excused
    · rintro frame after ⟨middle, cleared, -, last⟩
      exact .of_bringIn sound recorded away cleared last
    · rintro cause after ⟨refused | ⟨middle, frame, junk, cleared, -, last⟩, warranted⟩
      · have cleared : machine.Cleared strict after.state := .inr refused.evicted
        obtain ⟨through, -⟩ := cleared.elsewhere sound recorded away
        exact ⟨sound.settled through, warranted⟩
      · obtain ⟨through, -⟩ := cleared.elsewhere sound recorded away
        exact ⟨sound.settled (through.trans (last.through trivial)), warranted⟩
  cases residence with
  | inFrame frame window =>
      have holds : machine.view.Holds (id, page) frame window := ⟨dirty, recorded⟩
      obtain ⟨pins, written, held⟩ := sound.consistent.exists_holder holds
      rw [ensures_bind]
      refine Ensures.mono (pinFrame_spec sound.shaped held) ?_ (fun _ _ never => never.elim)
        fun _ _ excused => excused
      rintro _ ⟨(after : Machine), log⟩ ⟨shaped, seen⟩
      have permitted : machine.view.Permits strict (.pin (id, page) frame) := ⟨window, holds⟩
      have pinned : after.view = machine.view.after (.pin (id, page) frame) := by
        rw [seen, View.after, held, Option.map_some]
      refine ⟨.single (.pin (id, page) frame) permitted pinned shaped trivial,
        ⟨window, dirty, ?_⟩, ?_, ?_, ?_⟩
      · rw [seen]
        exact recorded
      · intro lies other away
        rw [recorded] at away
        cases away
      · rw [pinned]
        exact sound.consistent.firm_after trivial permitted
      · rw [pinned, View.pins_after sound.consistent permitted, Step.tally]
  | untouched | inSwap | inFile => exact comesIn rfl

theorem faultIn_spec (sound : machine.Sound strict) (live : machine.view.live id = true)
    {address : Nat} : (faultIn id address).Ensures ⟨machine, log⟩
      (fun frame (after : Traced Machine) => IsUser address ∧
        machine.FaultedIn strict (id, pageOf address) frame 1 after.state)
      (fun cause (after : Traced Machine) => machine.Failed strict cause after.state)
      (Excused strict) := by
  rw [faultIn, ensures_bind, ensures_require]
  split
  · rename_i user
    exact Ensures.mono (pinPage_spec sound live (aligned_pageOf _)) (fun _ _ faulted => ⟨user, faulted⟩)
      (fun _ _ failed => failed) fun _ _ excused => excused
  · exact .refl sound.shaped (by simp)

/-! ## Giving back pins -/

theorem releasePin_spec (shaped : machine.Shaped strict) (live : machine.view.live id = true)
    {window : Option FileWindow} (holds : machine.view.Holds (id, page) frame window)
    {holder : Holder} (held : machine.view.holder frame = some holder) (write : Option Bool) :
    (releasePin id page frame write).Ensures ⟨machine, log⟩
      (fun _ (after : Traced Machine) => after.state.Shaped strict ∧ after.state.view =
        machine.view.hold frame (some { holder with
          written := write.getD false || holder.written, pins := holder.pins - 1 }))
      (fun _ _ => False) fun _ _ => False := by
  obtain ⟨space, found⟩ := exists_space live
  have inside : space.catalog.frame? page = some frame := by
    have here := holds.frameOf
    rwa [View.frameOf, record_eq found] at here
  obtain ⟨pool, done, amended⟩ := Pool.finish_spec held write
  rw [releasePin, ensures_bind, ensures_space found, if_pos inside, ensures_changePool done]
  refine ⟨shaped.withPool amended.toTended, ?_⟩
  rw [view_of_amended amended, held, Option.map_some]

theorem giveBack_spec (shaped : machine.Shaped strict) (live : machine.view.live id = true)
    {window : Option FileWindow} (holds : machine.view.Holds (id, page) frame window)
    {holder : Holder} (held : machine.view.holder frame = some holder) {write : Option Bool}
    (clean : write.getD false = false) :
    (releasePin id page frame write).Ensures ⟨machine, log⟩
      (fun _ (after : Traced Machine) =>
        Moves strict machine [.unpin (id, page) frame] after.state)
      (fun _ _ => False) fun _ _ => False := by
  refine Ensures.mono (releasePin_spec shaped live holds held write) ?_
    (fun _ _ never => never) fun _ _ never => never
  rintro _ ⟨(after : Machine), log⟩ ⟨shaped, seen⟩
  refine .single (.unpin (id, page) frame) ⟨window, holds⟩ ?_ shaped
  rw [seen, View.after, held, clean]
  rfl

theorem FaultedIn.pins_back {key : Nat × Nat} {after : Machine}
    (faulted : machine.FaultedIn strict key frame 1 after) :
    Function.update after.view.pins key (after.view.pins key - 1) = machine.view.pins := by
  rw [faulted.pins, Function.update_idem, Function.update_self, Nat.add_sub_cancel,
    Function.update_eq_self]

theorem FaultedIn.unpin {key : Nat × Nat} {after : Machine} (sound : machine.Sound strict)
    (faulted : machine.FaultedIn strict key frame 1 middle)
    (last : Moves strict middle [.unpin key frame] after) :
    machine.FaultedIn strict key frame 0 after := by
  obtain ⟨permitted, seen⟩ := last.path.of_single
  have soundMiddle := sound.through faulted.through
  have pins : after.view.pins = machine.view.pins := by
    rw [seen, View.pins_after soundMiddle.consistent permitted]
    exact faulted.pins_back
  refine ⟨faulted.through.trans (last.through trivial), seen ▸ faulted.holds,
    seen ▸ faulted.fresh, ?_, ?_⟩
  · exact faulted.firm.settle (by rw [seen]; rfl) (by rw [seen]; rfl) pins
  · rw [pins, Nat.add_zero, Function.update_eq_self]

theorem resolveFault_spec (sound : machine.Sound strict) (live : machine.view.live id = true)
    {address : Nat} : (resolveFault id address).Ensures ⟨machine, log⟩
      (fun _ (after : Traced Machine) => IsUser address ∧
        ∃ frame, machine.FaultedIn strict (id, pageOf address) frame 0 after.state)
      (fun cause (after : Traced Machine) => machine.Failed strict cause after.state)
      (Excused strict) := by
  rw [resolveFault, ensures_bind]
  refine Ensures.mono (faultIn_spec sound live) ?_ (fun _ _ failed => failed)
    fun _ _ excused => excused
  rintro frame ⟨(resident : Machine), log⟩ ⟨user, faulted⟩
  have soundResident := sound.through faulted.through
  obtain ⟨window, holds⟩ := faulted.holds
  obtain ⟨pins, written, held⟩ := soundResident.consistent.exists_holder holds
  exact Ensures.mono (giveBack_spec soundResident.shaped (faulted.through.live ▸ live) holds held rfl)
    (fun _ _ last => ⟨user, frame, faulted.unpin sound last⟩) (fun _ _ never => never.elim)
    fun _ _ never => never.elim

end Machine

end DemandPaging
