import DemandPaging.Proofs.Machine.Displacement
import DemandPaging.Proofs.Run

/-!
# Faulting in a page

Main statement: `faults_all_or_nothing`, what becomes of a page that is faulted in, and of all
others. The page is in a frame, pinned once more than before (`Machine.Arrived`), or it is left as it
was (`Machine.Denied`). At most one other page is moved, and only for want of a free frame
(`Machine.Ousted`).
-/

namespace DemandPaging

def View.SameBut (before : View) (keys : List (Nat × Nat)) (after : View) : Prop :=
  ∀ other ∉ keys, after.record other = before.record other ∧
    after.translation other = before.translation other

namespace Machine

open DemandPaging.Action

/-- No frame was free, and an unpinned page has been moved out of `frame`. -/
structure Ousted (before : Machine) (key victim : Nat × Nat) (frame : Nat) (after : View) :
    Prop where
  away : before.view.frameOf key = none
  full : before.pool.Full
  distinct : victim ≠ key
  unpinned : before.view.Unpinned frame
  moved : ∃ window residence, before.view.Holds victim frame window ∧
    after.record victim = some ⟨residence, false⟩ ∧ residence.Outside window
  unmapped : after.translation victim = none
  others : before.view.SameBut [key, victim] after

/-- A page has come to be in a frame, or was there, and has one pin more. -/
structure Arrived (before : Traced Machine) (key : Nat × Nat) (frame : Nat)
    (after : Traced Machine) : Prop where
  recorded : ∃ residence dirty dirty',
    before.state.view.record key = some ⟨residence, dirty⟩ ∧
    after.state.view.record key = some ⟨.inFrame frame residence.window?, dirty'⟩ ∧
    ∀ slot, residence.slot? = some slot → after.state.view.used slot = false
  mapped : after.state.view.target key = some frame
  pinned : ∃ written, after.state.view.holder = Function.update before.state.view.holder frame
    (some ⟨key.1, key.2, before.state.view.pins key + 1, written⟩)
  others : before.state.view.SameBut [key] after.state.view ∨
    ∃ victim, before.state.Ousted key victim frame after.state.view
  /-- For a page that was resident, its pin is all that differs. -/
  still : before.state.view.frameOf key ≠ none →
    ∃ occupant, before.state.pool.occupant? frame = some occupant ∧
      after = ⟨before.state.withPool (before.state.pool.setOccupant frame
        (some { occupant with pins := occupant.pins + 1 })), before.log⟩

/-- An eviction has failed. Nothing has been moved, and nothing is counted differently. -/
structure Balked (before after : Machine) : Prop where
  unmoved : ∃ victim frame window, before.view.Holds victim frame window ∧
    before.view.Unpinned frame ∧ before.view.Unmoved victim after.view
  usage : after.usage = before.usage

/-- A page could not be brought in, and is where it was. -/
structure Denied (before : Traced Machine) (id page : Nat) (cause : PagingError)
    (after : Traced Machine) : Prop where
  record : after.state.view.record (id, page) = before.state.view.record (id, page)
  translation : after.state.view.translation (id, page) = before.state.view.translation (id, page)
  stored : ∀ slot, before.state.view.slotOf (id, page) = some slot →
    after.state.view.used slot = true ∧ after.state.view.slot slot = before.state.view.slot slot
  others :
    (before.state.view.SameBut [] after.state.view ∧
      after.state.view.holder = before.state.view.holder) ∨
    (∃ victim frame, before.state.Ousted (id, page) victim frame after.state.view ∧
      after.state.view.holder = Function.update before.state.view.holder frame none) ∨
    (before.state.view.frameOf (id, page) = none ∧ before.state.pool.Full ∧
      Paged.reclaim (reclaimerFor id) before = .error (.failed cause) after ∧
      before.state.Balked after.state)

variable {strict : Prop} {machine middle after : Machine} {before : Traced Machine}
  {log : Array Event} {id page frame : Nat} {key victim : Nat × Nat}

/-! ## Room for a page -/

theorem Room.settle (room : machine.Room strict frame middle) :
    machine.pool.LowestFree frame ∧ middle = machine ∨ machine.pool.Full ∧
      ∃ victim, machine.view.Displaced victim frame middle.view := by
  rcases room with free | ⟨full, victim, window, -, -, left⟩
  · exact .inl free
  · exact .inr ⟨full, victim, left.displaced⟩

theorem Ousted.of_displaced {later : View} (full : machine.pool.Full)
    (away : machine.view.frameOf key = none)
    (displaced : machine.view.Displaced victim frame middle.view)
    (same : middle.view.SameBut [key] later) : machine.Ousted key victim frame later := by
  obtain ⟨window, residence, holds, recorded, outside⟩ := displaced.moved
  have distinct := holds.ne_of_away away
  obtain ⟨record, translation⟩ := same victim (by simpa using distinct)
  refine ⟨away, full, distinct, displaced.unpinned,
    ⟨window, residence, holds, record.trans recorded, outside⟩, ?_, fun other spared => ?_⟩
  · rw [translation, displaced.translation, Function.update_self]
  · simp only [List.mem_cons, List.not_mem_nil, or_false, not_or] at spared
    obtain ⟨record, translation⟩ := same other (by simpa using spared.1)
    rw [record, translation, displaced.translation, Function.update_of_ne spared.2]
    exact ⟨displaced.others other spared.2, rfl⟩

theorem Stuck.balked (sound : machine.Sound strict) (stuck : machine.Stuck strict after) :
    machine.Balked after := by
  obtain ⟨victim, frame, window, holds, free, through⟩ := stuck
  have unmoved := through.unmoved
  have frames : after.view.frames = machine.view.frames := by rw [unmoved.rest]
  have slots : after.view.slots = machine.view.slots := by rw [unmoved.rest]
  exact ⟨⟨victim, frame, window, holds, free, unmoved⟩,
    sound.shaped.usage_eq (sound.through through).shaped frames slots unmoved.holder unmoved.used⟩

/-! ## The ends of a fault -/

theorem Sound.taken (sound : machine.Sound strict) {slot : Nat}
    (stored : machine.view.slotOf key = some slot) : machine.view.used slot = true :=
  sound.consistent.stored.mpr ⟨key, stored⟩

theorem Denied.refl (sound : before.state.Sound strict) (id page : Nat) (cause : PagingError) :
    Denied before id page cause before :=
  ⟨rfl, rfl, fun _ stored => ⟨sound.taken stored, rfl⟩, .inl ⟨fun _ _ => ⟨rfl, rfl⟩, rfl⟩⟩

theorem Denied.of_refused (sound : machine.Sound strict) {cause : PagingError}
    {after : Traced Machine} (away : machine.view.frameOf (id, page) = none)
    (refused : Refused strict ⟨machine, log⟩ id cause after) :
    Denied ⟨machine, log⟩ id page cause after := by
  have balked := refused.stuck.balked sound
  obtain ⟨victim, frame, window, holds, -, unmoved⟩ := balked.unmoved
  have distinct := (holds.ne_of_away away).symm
  refine ⟨unmoved.others _ distinct, congrFun unmoved.translation _, fun slot stored => ?_,
    .inr (.inr ⟨away, refused.full, refused.ran, balked⟩)⟩
  have taken := sound.taken stored
  exact ⟨unmoved.used ▸ taken, unmoved.slot slot taken⟩

theorem Denied.of_scribble (sound : machine.Sound strict) {cause : PagingError} {junk : Page}
    {after : Traced Machine} (away : machine.view.frameOf (id, page) = none)
    (room : machine.Room strict frame middle)
    (last : Moves strict middle [.scribble frame junk] after.state) :
    Denied ⟨machine, log⟩ id page cause after := by
  obtain ⟨-, seen⟩ := last.path.of_single
  rcases room.settle with ⟨-, rfl⟩ | ⟨full, victim, displaced⟩
  · refine ⟨by rw [seen]; rfl, by rw [seen]; rfl, fun slot stored => ?_,
      .inl ⟨fun _ _ => ?_, by rw [seen]; rfl⟩⟩
    · rw [seen]
      exact ⟨sound.taken stored, rfl⟩
    · rw [seen]
      exact ⟨rfl, rfl⟩
  · have ousted : machine.Ousted (id, page) victim frame after.state.view :=
      .of_displaced full away displaced fun _ _ => by rw [seen]; exact ⟨rfl, rfl⟩
    have distinct := ousted.distinct.symm
    refine ⟨?_, ?_, fun slot stored => ?_, .inr (.inl ⟨victim, frame, ousted, ?_⟩)⟩
    · rw [seen]
      exact displaced.others _ distinct
    · rw [seen]
      exact (congrFun displaced.translation _).trans (Function.update_of_ne distinct ..)
    · rw [seen]
      exact displaced.slots slot (sound.taken stored)
    · rw [seen]
      exact displaced.holder

theorem Arrived.of_bringIn {residence : Residence} {dirty : Bool} {after : Traced Machine}
    (recorded : machine.view.record (id, page) = some ⟨residence, dirty⟩)
    (away : residence.frame? = none) (room : machine.Room strict frame middle)
    (last : Moves strict middle [.bringIn (id, page) frame residence] after.state) :
    Arrived ⟨machine, log⟩ (id, page) frame after := by
  obtain ⟨-, seen⟩ := last.path.of_single
  have absent := View.frameOf_of_away recorded away
  have same : middle.view.SameBut [(id, page)] after.state.view := by
    intro other spared
    have distinct : other ≠ (id, page) := by simpa using spared
    rw [seen, View.record_after_bringIn, View.translation_after_bringIn,
      Function.update_of_ne distinct, Function.update_of_ne distinct]
    exact ⟨rfl, rfl⟩
  refine ⟨⟨residence, dirty, false, recorded, ?_, fun slot lies => ?_⟩, ?_, ⟨false, ?_⟩, ?_,
    fun resident => absurd absent resident⟩
  · rw [seen, View.record_after_bringIn, Function.update_self]
  · rw [seen]
    cases residence with
    | inSwap =>
        cases lies
        exact Function.update_self ..
    | untouched | inFrame | inFile => cases lies
  · rw [View.target, seen, View.translation_after_bringIn, Function.update_self]
    rfl
  · rw [seen, View.holder_after_bringIn, View.pins_of_away absent]
    rcases room.settle with ⟨-, rfl⟩ | ⟨-, victim, displaced⟩
    · rfl
    · rw [displaced.holder, Function.update_idem]
  · rcases room.settle with ⟨-, rfl⟩ | ⟨full, victim, displaced⟩
    · exact .inl same
    · exact .inr ⟨victim, .of_displaced full absent displaced same⟩

theorem pin_arrives (sound : machine.Sound strict) {window : Option FileWindow}
    (holds : machine.view.Holds (id, page) frame window) :
    (Paged.changePool (·.pin frame) : Action PagingError Machine Unit).Ensures ⟨machine, log⟩
      (fun _ after => Arrived ⟨machine, log⟩ (id, page) frame after) (fun _ _ => False)
      fun _ _ => True := by
  obtain ⟨pins, written, held⟩ := sound.consistent.exists_holder holds
  rcases Pool.pin_spec held with refused | ⟨pool, done, amended⟩
  · rw [Paged.changePool, ensures_change]
    simp only [refused]
    trivial
  · obtain ⟨dirty, recorded⟩ := holds.recorded
    rw [ensures_changePool done]
    refine ⟨⟨_, dirty, dirty, recorded, recorded, fun slot lies => ?_⟩, ?_, ⟨written, ?_⟩,
      .inl fun _ _ => ⟨rfl, rfl⟩, fun _ => ?_⟩
    · cases lies
    · exact (sound.consistent.translated _).trans holds.frameOf
    · rw [View.pins_of_held holds.frameOf held]
      refine amended.holder.trans ?_
      rw [show machine.pool.holder frame = _ from held, Option.map_some]
      rfl
    · obtain ⟨occupant, next, found, pinned, rfl⟩ := Pool.amend_ok done
      refine ⟨occupant, found, ?_⟩
      split at pinned
      · cases pinned
        rfl
      · cases pinned

theorem pinPage_ends (sound : machine.Sound strict) (live : machine.view.live id = true)
    (aligned : Aligned page) :
    (pinPage id page).Ensures ⟨machine, log⟩
      (fun frame after => Arrived ⟨machine, log⟩ (id, page) frame after)
      (fun cause after => Denied ⟨machine, log⟩ id page cause after) fun _ _ => True := by
  obtain ⟨space, found⟩ := exists_space live
  simp only [pinPage, ensures_bind, ensures_insist, if_pos aligned, ensures_space found,
    ← record_eq found]
  rcases recorded : machine.view.record (id, page) with _ | ⟨residence, dirty⟩
  · exact .refl sound id page _
  have comesIn (away : residence.frame? = none) :
      (bringIn id page residence).Ensures ⟨machine, log⟩
        (fun frame after => Arrived ⟨machine, log⟩ (id, page) frame after)
        (fun cause after => Denied ⟨machine, log⟩ id page cause after) fun _ _ => True := by
    have absent := View.frameOf_of_away recorded away
    refine Ensures.mono (bringIn_spec sound recorded away) ?_ ?_ fun _ _ _ => trivial
    · rintro frame after ⟨middle, -, room, last⟩
      exact .of_bringIn recorded away room last
    · rintro cause after ⟨refused | ⟨middle, frame, junk, -, room, last⟩, -⟩
      · exact .of_refused sound absent refused
      · exact .of_scribble sound absent room last
  cases residence with
  | inFrame frame window =>
      rw [ensures_bind]
      exact Ensures.mono (pin_arrives sound ⟨dirty, recorded⟩) (fun _ _ arrived => arrived)
        (fun _ _ never => never.elim) fun _ _ _ => trivial
  | untouched | inSwap | inFile => exact comesIn rfl

theorem faultIn_ends (sound : machine.Sound strict) (live : machine.view.live id = true)
    (address : Nat) : (faultIn id address).Ensures ⟨machine, log⟩
      (fun frame after => Arrived ⟨machine, log⟩ (id, pageOf address) frame after)
      (fun cause after => Denied ⟨machine, log⟩ id (pageOf address) cause after)
      fun _ _ => True := by
  rw [faultIn, ensures_bind, ensures_require]
  split
  · exact pinPage_ends sound live (aligned_pageOf _)
  · exact .refl sound id _ _

/-- If no frame is free and none can be reclaimed, the fault fails with what reclaiming it did. -/
theorem faultIn_refused (sound : machine.Sound strict) {record : PageRecord} {address : Nat}
    {cause : PagingError} {after : Traced Machine}
    (recorded : machine.view.record (id, pageOf address) = some record)
    (away : record.residence.frame? = none) (full : machine.pool.Full)
    (ran : Paged.reclaim (reclaimerFor id) ⟨machine, log⟩ = .error (.failed cause) after) :
    faultIn id address ⟨machine, log⟩ = .error (.failed cause) after := by
  obtain ⟨live, -, user⟩ := sound.live recorded
  obtain ⟨space, found⟩ := exists_space live
  have crowded : machine.pool.lowestFree? = none := by
    by_contra vacant
    obtain ⟨frame, lowest⟩ := Option.ne_none_iff_exists'.mp vacant
    have free := Pool.lowestFree?_spec lowest
    exact full frame free.inside free.free
  have fails (residence : Residence) :
      (bringIn id (pageOf address) residence).Ensures ⟨machine, log⟩ (fun _ _ => False)
        (fun failure last => failure = cause ∧ last = after) fun _ _ => False := by
    simp only [bringIn, Paged.claim, ensures_bind, Paged.ensures_pool, crowded]
    simp only [Ensures, ran, and_self]
  apply Ensures.refused
  rw [faultIn, ensures_bind, ensures_require, if_pos (user_of_pageOf user)]
  simp only [pinPage, ensures_bind, ensures_insist, if_pos (aligned_pageOf address),
    ensures_space found, ← record_eq found, recorded]
  obtain ⟨residence, dirty⟩ := record
  cases residence with
  | inFrame => cases away
  | untouched | inSwap | inFile => exact fails _

end Machine

/-- A fault brings its page in and pins it, or leaves it as it was. If an eviction fails, so does
the fault, and nothing has been moved. -/
theorem faults_all_or_nothing {settings : Settings} {device : Device} {storage : Storage}
    {first now : Traced Machine} (started : Machine.start settings device storage = .ok first)
    (run : Run (fun before operation _ => operation.Addressed before) first now) {id : Nat}
    (live : now.state.view.live id = true) (address : Nat) :
    (Machine.faultIn id address).Ensures now
      (fun frame after => Machine.Arrived now (id, pageOf address) frame after)
      (fun cause after => Machine.Denied now id (pageOf address) cause after)
      (fun _ _ => True) ∧
    ∀ (record : PageRecord) (cause : PagingError) (after : Traced Machine),
      now.state.view.record (id, pageOf address) = some record →
      record.residence.frame? = none → now.state.pool.Full →
      Paged.reclaim (Machine.reclaimerFor id) now = .error (.failed cause) after →
      Machine.faultIn id address now = .error (.failed cause) after ∧
        now.state.Balked after.state := by
  have sound := run.sound_of_started started
  refine ⟨Machine.faultIn_ends sound live address, ?_⟩
  intro record cause after recorded away full ran
  refine ⟨Machine.faultIn_refused sound recorded away full ran, ?_⟩
  obtain ⟨stuck, -, -⟩ := (Machine.reclaim_spec sound).failed ran
  exact stuck.balked sound

/-- The second of three pages is evicted for the third if there is a slot for it, the first being
pinned. -/
theorem faults_all_or_nothing_of_three_pages :
    (∃ (device : Device) (first now after : Traced Machine),
      Machine.start ⟨2⟩ device {} = .ok first ∧
      Run (fun before operation _ => operation.Addressed before) first now ∧
      Machine.Arrived now (1, 8192) 1 after ∧
      after.state.view.record (1, 4096) = some ⟨.inSwap 0, false⟩) ∧
    ∃ (device : Device) (first now after : Traced Machine),
      Machine.start ⟨2⟩ device {} = .ok first ∧
      Run (fun before operation _ => operation.Addressed before) first now ∧
      Machine.faultIn 1 8200 now = .error (.failed .outOfSwap) after ∧
      now.state.Balked after.state := by
  let operations : List Operation := [.createSpace none {}, .addZeros 1 0, .addZeros 1 4096,
    .addZeros 1 8192, .faultIn 1 0, .resolveFault 1 4096]
  constructor
  · have ends : ((Operation.trial 2 1 {} operations).bind fun ends =>
        match Machine.faultIn 1 8200 ends.2 with
        | .ok frame after =>
          some ((Machine.view ends.2.state).live 1, frame,
            (Machine.view after.state).record (1, 4096))
        | .error _ _ => none) = some (true, 1, some ⟨.inSwap 0, false⟩) := by
      decide +kernel
    obtain ⟨⟨first, now⟩, tried, faulted⟩ := Option.bind_eq_some_iff.mp ends
    obtain ⟨device, started, run⟩ := Operation.trial_runs tried
    split at faulted
    · rename_i frame after ran
      simp only [Option.some.injEq, Prod.mk.injEq] at faulted
      obtain ⟨live, rfl, evicted⟩ := faulted
      exact ⟨device, first, now, after, started, run,
        (faults_all_or_nothing started run live 8200).1.returned ran, evicted⟩
    · cases faulted
  · have ends : ((Operation.trial 2 0 {} operations).bind fun ends =>
        match Paged.reclaim (Machine.reclaimerFor 1) ends.2 with
        | .error (.failed cause) _ =>
          some ((Machine.view ends.2.state).live 1, (Machine.view ends.2.state).record (1, 8192),
            ends.2.state.pool.lowestFree?, cause)
        | _ => none) = some (true, some ⟨.untouched, false⟩, none, .outOfSwap) := by
      decide +kernel
    obtain ⟨⟨first, now⟩, tried, refused⟩ := Option.bind_eq_some_iff.mp ends
    obtain ⟨device, started, run⟩ := Operation.trial_runs tried
    split at refused
    · rename_i cause after ran
      simp only [Option.some.injEq, Prod.mk.injEq] at refused
      obtain ⟨live, recorded, crowded, rfl⟩ := refused
      have full : now.state.pool.Full := (run.sound_of_started started).shaped.counted.full crowded
      exact ⟨device, first, now, after, started, run,
        (faults_all_or_nothing started run live 8200).2 _ _ _ recorded rfl full ran⟩
    · cases refused

end DemandPaging
