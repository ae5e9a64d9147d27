import DemandPaging.Proofs.PinLedger

/-!
# Pinned pages stay

A pinned page is in its frame until its pins are given back or its space is destroyed, and holds
what is stored in it, whatever other operations do for want of frames or on their way out of a
failure (`pinned_stays`). Unmapping it is refused.
-/

namespace DemandPaging

/-! ## Recorded mappings -/

def View.Regioned (view : View) : Prop :=
  ∀ ⦃key region⦄, view.region key = some region →
    Aligned region.start ∧ IsUserRange region.start region.length

theorem View.Regioned.after {strict : Prop} {view : View} {step : Step} (regioned : view.Regioned)
    (permitted : view.Permits strict step) : (view.after step).Regioned := by
  intro key region found
  cases step with
  | enter other entered =>
      simp only [View.after, Function.update_apply] at found
      split at found
      · cases found
        exact permitted.2.2
      · exact regioned found
  | forget other =>
      simp only [View.after, Function.update_apply] at found
      split at found
      · cases found
      · exact regioned found
  | destroy id =>
      simp only [View.after] at found
      split at found
      · cases found
      · exact regioned found
  | bringIn other frame residence => cases residence <;> exact regioned found
  | drop other record saved =>
      obtain ⟨residence, dirty⟩ := record
      cases residence <;> exact regioned found
  | _ => exact regioned found

theorem Path.regioned {strict : Prop} {first last : View} {steps : List Step}
    (path : Path strict first steps last) (regioned : first.Regioned) : last.Regioned := by
  induction path with
  | nil => exact regioned
  | cons permitted later ih => exact ih (regioned.after permitted)

theorem Machine.start_regioned {settings : Settings} {device : Device} {storage : Storage}
    {first : Traced Machine} (started : start settings device storage = .ok first) :
    first.state.view.Regioned := by
  obtain ⟨-, same⟩ := start_ok started
  intro key region found
  simp [same, view] at found

/-! ## Unmapping is refused -/

namespace Machine

open DemandPaging.Action

variable {machine : Machine} {log : Array Event} {id page : Nat} {space : Space}

theorem unmapRange_busy (found : machine.store.spaces[id]? = some space) {start length : Nat}
    (aligned : Aligned start) (user : IsUserRange start length) (covered : page ∈ pagesIn start length)
    (pinned : machine.view.pins (id, page) ≠ 0) :
    unmapRange id start length ⟨machine, log⟩ = .error (.failed .busy) ⟨machine, log⟩ := by
  obtain ⟨span, covers⟩ := PageSpan.exists_covering user
  have listed : page ∈ space.catalog.within span := by
    obtain ⟨frame, inside⟩ := View.resident_of_pins pinned
    rw [frameOf_eq found] at inside
    obtain ⟨record, recorded, -⟩ := Option.bind_eq_some_iff.mp inside
    refine List.mem_filter.mpr ⟨(space.catalog.mem_pages_iff page).mpr (by simp [recorded]), ?_⟩
    rwa [← PageSpan.mem_pages_iff, ← pagesIn_eq covers]
  apply Ensures.refused
  rw [unmapRange, ensures_bind, ensures_require, if_pos ⟨aligned, user⟩]
  simp only [look, ensures_bind, ensures_look, ensures_orPanic, covers, ensures_space found,
    ensures_require]
  rw [if_neg fun unpinned => unpinned page listed ((isPinned_iff found).mpr pinned)]
  exact ⟨trivial, trivial⟩

theorem unmapFile_busy (found : machine.store.spaces[id]? = some space) {number : Nat}
    {region : Region} (entered : space.regions[number]? = some region)
    (aligned : Aligned region.start) (user : IsUserRange region.start region.length)
    (covered : page ∈ pagesIn region.start region.length)
    (pinned : machine.view.pins (id, page) ≠ 0) :
    unmapFile id number ⟨machine, log⟩ = .error (.failed .busy) ⟨machine, log⟩ := by
  apply Ensures.refused
  rw [unmapFile, ensures_bind, ensures_space found, entered]
  dsimp only
  rw [ensures_bind, ensures_attempt, Ensures, unmapRange_busy found aligned user covered pinned]
  exact ⟨rfl, rfl⟩

end Machine

/-! ## Runs -/

/-- Nothing is done to a pinned page that takes its last pin. -/
def Operation.LeavesPinned (id frame : Nat) (before : Machine) (operation : Operation)
    (after : Machine) : Prop :=
  operation.Addressed before ∧ operation ≠ .destroySpace id ∧
    ∀ start length, operation = .unpinRange id start length → after.pool.isPinned frame = true

theorem Operation.Accounted.stays_pinned {operation : Operation} {before after : Machine}
    {outcome : Except PagingError Unit} {stop id page frame : Nat}
    (accounted : operation.Accounted before outcome stop after)
    (leaves : operation.LeavesPinned id frame before after)
    (found : before.view.frameOf (id, page) = some frame)
    (pinned : before.view.pins (id, page) ≠ 0) :
    after.view.frameOf (id, page) = some frame ∧ after.view.pins (id, page) ≠ 0 := by
  obtain ⟨-, spared, unpins⟩ := leaves
  obtain ⟨stays, -⟩ := accounted.stays spared found pinned
  refine ⟨stays, ?_⟩
  by_cases asked : ∃ start length, operation = .unpinRange id start length
  · obtain ⟨start, length, same⟩ := asked
    exact (Machine.isPinned_of_frameOf stays).mp (unpins start length same)
  · have retains : operation.Retains (id, page) outcome :=
      ⟨spared, fun start length same => absurd ⟨start, length, same⟩ asked⟩
    have kept : after.view.record (id, page) ≠ none := by
      intro absent
      simp [View.frameOf, absent] at stays
    have more : operation.tally outcome after before.view.pins (id, page) =
        before.view.pins (id, page) + operation.tally outcome after (fun _ => 0) (id, page) :=
      Operation.tally_add retains kept (Nat.add_zero _).symm
    rw [accounted.pins]
    omega

/-- A page is in a frame, pinned, and stays there for now. -/
structure Pinned (id page frame : Nat) (now : Traced Machine) : Prop where
  resident : ∃ space, now.state.store.spaces[id]? = some space ∧
    space.catalog.frame? page = some frame ∧ space.directory.frame? page = .ok (some frame)
  occupied : ∃ occupant, now.state.pool.occupant? frame = some occupant ∧ occupant.owner = id ∧
    occupant.page = page ∧ 0 < occupant.pins
  /-- The next operation changes the frame only by what it stores in the page. -/
  unwritten : ∀ {operation : Operation} {outcome : Except PagingError Unit} {after : Traced Machine},
    operation.Addressed now.state → operation ≠ .destroySpace id →
    operation.Ends now outcome after → ∃ stop, operation.Stops now outcome stop after ∧
      ∀ i < pageSize, (after.state.view.contents frame)[i]? =
        operation.stored (fun _ i => (now.state.view.contents frame)[i]?) stop (id, page) i
  rangeBusy : ∀ {start length : Nat}, Aligned start → IsUserRange start length →
    page ∈ Machine.pagesIn start length →
    (Operation.unmapRange id start length).perform now = .error (.failed .busy) now
  fileBusy : ∀ {space : Space} {number : Nat} {region : Region},
    now.state.store.spaces[id]? = some space → space.regions[number]? = some region →
    page ∈ Machine.pagesIn region.start region.length →
    (Operation.unmapFile id number).perform now = .error (.failed .busy) now

theorem Machine.Sound.pinned {now : Traced Machine} {id page frame : Nat}
    (sound : now.state.Sound False) (regioned : now.state.view.Regioned)
    (found : now.state.view.frameOf (id, page) = some frame)
    (pinned : now.state.view.pins (id, page) ≠ 0) : Pinned id page frame now := by
  obtain ⟨window, dirty, recorded⟩ := View.exists_holds found
  obtain ⟨live, aligned, user⟩ := sound.consistent.placed recorded
  obtain ⟨space, there⟩ := exists_space live
  have inside := (frameOf_eq there).symm.trans found
  constructor
  · refine ⟨space, there, inside, ?_⟩
    rw [frame?_of_target there aligned user, sound.consistent.translated, found]
  · obtain ⟨occupant, held, owner, place, counted⟩ := sound.exists_occupant there inside
    exact ⟨occupant, held, owner, place, counted ▸ Nat.pos_of_ne_zero pinned⟩
  · intro operation outcome after addressed spared ends
    obtain ⟨stop, stops, steps, -, -, -, accounted⟩ :=
      Operation.concludes_of_ends sound addressed False.elim ends
    exact ⟨stop, stops, (accounted.stays spared found pinned).2⟩
  · exact fun aligned user covered => unmapRange_busy there aligned user covered pinned
  · intro other number region there' entered covered
    have recorded : now.state.view.region (id, number) = some region := by
      simp [view, there', entered]
    obtain ⟨aligned, user⟩ := regioned recorded
    exact unmapFile_busy there' entered aligned user covered pinned

theorem Run.regioned {rule : Machine → Operation → Machine → Prop}
    {first now : Traced Machine} (run : Run rule first now) (sound : first.state.Sound False)
    (addressed : ∀ before operation after, rule before operation after →
      operation.Addressed before) (regioned : first.state.view.Regioned) :
    now.state.view.Regioned := by
  induction run with
  | start => exact regioned
  | next earlier allowed ends ih =>
      obtain ⟨stop, -, steps, ⟨path, -⟩, -⟩ := Operation.concludes_of_ends
        (earlier.sound sound addressed False.elim) (addressed _ _ _ allowed) False.elim ends
      exact path.regioned ih

theorem Run.stays_pinned {id page frame : Nat} {now later : Traced Machine}
    (run : Run (fun before operation after => operation.LeavesPinned id frame before after) now later)
    (sound : now.state.Sound False) (found : now.state.view.frameOf (id, page) = some frame)
    (pinned : now.state.view.pins (id, page) ≠ 0) :
    later.state.view.frameOf (id, page) = some frame ∧ later.state.view.pins (id, page) ≠ 0 := by
  induction run with
  | start => exact ⟨found, pinned⟩
  | next earlier leaves ends ih =>
      have soundBefore := earlier.sound sound (fun _ _ _ leaves => leaves.1) False.elim
      obtain ⟨stop, accounted⟩ :=
        Operation.accounted_of_ends soundBefore leaves.1 False.elim ends
      exact accounted.stays_pinned leaves ih.1 ih.2

/-- A page that is pinned stays where it is, as long as it is pinned and its space is there. -/
theorem pinned_stays {settings : Settings} {device : Device} {storage : Storage}
    {first now later : Traced Machine} (started : Machine.start settings device storage = .ok first)
    (run : Run (fun before operation _ => operation.Addressed before) first now)
    {id page frame : Nat} {space : Space} (found : now.state.store.spaces[id]? = some space)
    (inside : space.catalog.frame? page = some frame)
    (pinned : now.state.pool.isPinned frame = true)
    (further : Run (fun before operation after => operation.LeavesPinned id frame before after)
      now later) : Pinned id page frame later := by
  have sound := run.sound_of_started started
  have regioned : now.state.view.Regioned := run.regioned
    (Machine.start_sound started False.elim) (fun _ _ _ addressed => addressed)
    (Machine.start_regioned started)
  have here := (Machine.frameOf_eq found).trans inside
  obtain ⟨stays, still⟩ :=
    further.stays_pinned sound here ((Machine.isPinned_of_frameOf here).mp pinned)
  have addressed (before : Machine) (operation : Operation) (after : Machine)
      (leaves : operation.LeavesPinned id frame before after) : operation.Addressed before :=
    leaves.1
  exact (further.sound sound addressed False.elim).pinned
    (further.regioned sound addressed regioned) stays still

/-- A pinned page stays while one page of a mapping gives way to the other. -/
theorem pinned_stays_under_pressure : ∃ (device : Device) (storage : Storage)
    (first now later : Traced Machine), Machine.start ⟨2⟩ device storage = .ok first ∧
      Run (fun before operation _ => operation.Addressed before) first now ∧
      now.state.pool.isPinned 0 = true ∧
      Run (fun before operation after => operation.LeavesPinned 1 0 before after) now later ∧
      Pinned 1 0 0 later := by
  let storage : Storage := { files := #[.flat 100 {}] }
  let begun : List Operation :=
    [.createSpace none {}, .addZeros 1 0, .mapFile 1 4096 0 0 5000, .faultIn 1 0]
  let faults : List Operation := [.resolveFault 1 4096, .resolveFault 1 8192]
  have ends : (Operation.trial 2 1 storage begun).map (fun ends =>
      (ends.2.state.store.spaces[1]?.bind (·.catalog.frame? 0), ends.2.state.pool.isPinned 0,
        (Operation.performAll faults ends.2).map (·.state.usage.residentFrames))) =
      some (some 0, true, some 2) := by decide +kernel
  simp only [Option.map_eq_some_iff, Prod.exists, Prod.mk.injEq, Option.bind_eq_some_iff] at ends
  obtain ⟨first, now, tried, ⟨space, found, inside⟩, pinned, later, done, -⟩ := ends
  obtain ⟨⟨device, -, started⟩, did⟩ := Operation.trial_ok tried
  have run : Run (fun before operation _ => operation.Addressed before) first now :=
    Operation.run_of_performAll did fun _ _ _ _ addressed => addressed
  have further : Run (fun before operation after => operation.LeavesPinned 1 0 before after)
      now later := by
    refine Operation.run_of_performAll done fun operation member _ _ addressed => ⟨addressed, ?_⟩
    rcases List.mem_pair.mp member with rfl | rfl <;> exact ⟨nofun, nofun⟩
  exact ⟨device, storage, first, now, later, started, run, pinned, further,
    pinned_stays started run found inside pinned further⟩

end DemandPaging
