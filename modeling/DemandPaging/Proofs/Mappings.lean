import DemandPaging.Proofs.LifeCycle
import DemandPaging.Proofs.Unmapping

/-!
# What a mapping owns

A mapping is recorded with the range it was made of, and unmapping it gives up the pages of that
range. These are the pages the mapping was made with, except where they were given up in the meantime:
by unmapping a range, or another mapping that was made of the same page before
(`unmapping_stays_in_region`).
-/

namespace DemandPaging

namespace Machine

open DemandPaging.Action

variable {ε α : Type} {strict : Prop} {machine middle after : Machine} {log : Array Event}
  {id page number start length : Nat}

/-! ## Unmapping -/

theorem Forgets.region {before after : Traced Machine} (forgot : Forgets id number before after) :
    after.state.view.region (id, number) = none := by
  obtain ⟨space, -, rfl⟩ := forgot
  simp [view, withSpace, Space.removeRegion]

theorem unmapFile_forgets {now : Traced Machine} (sound : now.state.Sound False)
    (live : now.state.view.live id = true) :
    (unmapFile id number).Ensures now
      (fun _ after => after.state.view.region (id, number) = none)
      (fun _ after => after = now ∨ after.state.view.region (id, number) = none)
      fun _ _ => True := by
  obtain ⟨space, found⟩ := exists_space live
  have unmaps := unmapsFile sound found number
  cases recorded : space.regions[number]? with
  | none =>
      rw [Ensures, unmaps.unknown recorded]
      exact .inl rfl
  | some region =>
      refine (unmaps.known region recorded).mono ?_ ?_ fun _ _ _ => trivial
      · rintro _ _ ⟨_, -, forgot⟩
        exact forgot.region
      · rintro _ _ ⟨_, -, ⟨-, -, still⟩ | ⟨-, forgot⟩⟩
        · exact .inl still
        · exact .inr forgot.region

/-! ## Mapping -/

theorem addPages_records (shaped : machine.Shaped strict) (live : machine.view.live id = true)
    (place : Nat → Nat) (window : Nat → FileWindow) (indices : List Nat) :
    (indices.forM fun i => addPage id (place i) (.inFile (window i))).Ensures ⟨machine, log⟩
      (fun _ (after : Traced Machine) => after.state.Shaped False ∧
        after.state.view.live id = true ∧ after.state.view.region = machine.view.region ∧
        ∀ i ∈ indices, after.state.view.record (id, place i) ≠ none)
      (fun _ (after : Traced Machine) => after.state.view.region = machine.view.region)
      fun _ _ => False := by
  refine Ensures.mono (Ensures.forM (fun coming (after : Traced Machine) =>
    after.state.Shaped False ∧ after.state.view.live id = true ∧
      after.state.view.region = machine.view.region ∧
      ∀ i ∈ indices, i ∈ coming ∨ after.state.view.record (id, place i) ≠ none) ?_ indices
      ⟨shaped.unformed, live, rfl, fun _ => .inl⟩)
    (fun _ _ known => ⟨known.1, known.2.1, known.2.2.1, fun i member =>
      (known.2.2.2 i member).resolve_left (by simp)⟩)
    (fun _ _ failed => failed) fun _ _ never => never
  rintro first rest ⟨(middle : Machine), log⟩ ⟨shaped, alive, same, listed⟩
  refine Ensures.mono (addPage_spec shaped alive (.inr ⟨_, rfl, False.elim⟩)) ?_ ?_
    fun _ _ never => never
  · rintro _ ⟨(after : Machine), log⟩ moves
    have seen := moves.path.of_single.2
    refine ⟨moves.shaped, by rw [seen]; exact alive, by rw [seen]; exact same, fun i member => ?_⟩
    have records : after.view.record = Function.update middle.view.record (id, place first)
        (some ⟨.inFile (window first), false⟩) := by rw [seen]; rfl
    rw [records, Function.update_apply]
    split
    · exact .inr nofun
    · rename_i other
      refine (listed i member).imp_left fun coming => ?_
      rcases List.mem_cons.mp coming with rfl | later
      · exact absurd rfl other
      · exact later
  · rintro cause after ⟨still, -⟩
    rw [still.view, same]

/-- A mapping is recorded only when all of its pages are there, and none of them was before. -/
theorem mapFile_records (sound : machine.Sound strict) (live : machine.view.live id = true)
    {file offset : Nat} : (mapFile id start file offset length).Ensures ⟨machine, log⟩
      (fun number (after : Traced Machine) => after.state.view.region =
          Function.update machine.view.region (id, number) (some ⟨start, length⟩) ∧
        ∀ page ∈ pagesIn start length, machine.view.record (id, page) = none ∧
          after.state.view.record (id, page) ≠ none)
      (fun _ (after : Traced Machine) => after.state.view.region = machine.view.region)
      fun _ _ => True := by
  obtain ⟨space, found⟩ := exists_space live
  refine ensures_mapFile found (fun _ => rfl) (fun _ _ => trivial) ?_
  rintro span opened ⟨-, aligned, -, user, -⟩ covered -
  split
  · rename_i free
    refine Ensures.mono (addPages_records sound.shaped live span.nth _ _) ?_
      (fun _ _ same => same) fun _ _ never => never.elim
    rintro _ ⟨(mapped : Machine), log⟩ ⟨shaped, alive, same, recorded⟩
    refine Ensures.mono (enterRegion_spec shaped alive aligned user) ?_
      (fun _ _ never => never.elim) fun _ _ _ => trivial
    rintro number ⟨(after : Machine), log⟩ moves
    have seen := moves.path.of_single.2
    refine ⟨by rw [seen, ← same]; rfl, fun page covers => ?_⟩
    rw [pagesIn_eq covered] at covers
    constructor
    · by_contra present
      have listed : page ∈ space.catalog.within span := by
        refine List.mem_filter.mpr ⟨(space.catalog.mem_pages_iff page).mpr ?_,
          (PageSpan.mem_pages_iff span page).mp covers⟩
        rw [record_eq found] at present
        exact Option.isSome_iff_ne_none.mpr present
      rw [List.isEmpty_iff.mp free] at listed
      cases listed
    · obtain ⟨i, small, rfl⟩ := List.mem_map.mp covers
      rw [seen]
      exact recorded i small
  · rfl

end Machine

/-! ## Operations -/

theorem View.region_of_after {view : View} {step : Step} {key : Nat × Nat} {region : Region}
    (other : ∀ key region, step ≠ .enter key region)
    (recorded : (view.after step).region key = some region) : view.region key = some region := by
  cases step with
  | enter key region => exact absurd rfl (other key region)
  | forget =>
      simp only [View.after, Function.update_apply] at recorded
      split at recorded
      · cases recorded
      · exact recorded
  | destroy =>
      simp only [View.after] at recorded
      split at recorded
      · cases recorded
      · exact recorded
  | bringIn _ _ residence => cases residence <;> exact recorded
  | drop _ record =>
      obtain ⟨residence, dirty⟩ := record
      cases residence <;> exact recorded
  | _ => exact recorded

namespace Operation

open DemandPaging.Action

variable {operation : Operation} {before after : Traced Machine} {outcome : Except PagingError Unit}
  {key : Nat × Nat} {region : Region}

theorem addPage_region {id page : Nat} {residence : Residence} {before : Traced Machine}
    (sound : before.state.Sound False) (live : before.state.view.live id = true)
    (kind : residence = .untouched ∨ ∃ window, residence = .inFile window) :
    (Machine.addPage id page residence).Ensures before
      (fun _ after => after.state.view.region = before.state.view.region)
      (fun _ after => after.state.view.region = before.state.view.region) fun _ _ => False := by
  refine Ensures.mono (Machine.addPage_spec sound.shaped live (kind.imp_right ?_)) ?_ ?_
    fun _ _ never => never
  · rintro ⟨window, rfl⟩
    exact ⟨window, rfl, False.elim⟩
  · intro _ after moves
    rw [moves.path.of_single.2]
    rfl
  · intro _ after failed
    rw [failed.1.view]

theorem region_of_ends (sound : before.state.Sound False)
    (addressed : operation.Addressed before.state) (ends : operation.Ends before outcome after)
    (recorded : after.state.view.region key = some region) :
    before.state.view.region key = some region ∨ ∃ file offset, outcome = .ok () ∧
      operation = .mapFile key.1 region.start file offset region.length ∧
      Machine.mapFile key.1 region.start file offset region.length before = .ok key.2 after := by
  -- Where the steps of an operation are not known well enough, its own specification is used.
  have unchanged (known : operation.perform.Ensures before
      (fun _ after => after.state.view.region = before.state.view.region)
      (fun _ after => after.state.view.region = before.state.view.region) fun _ _ => True) :
      before.state.view.region key = some region := by
    cases outcome with
    | ok => exact known.returned ends ▸ recorded
    | error => exact known.failed ends ▸ recorded
  have shrinks (none : ∀ step key region, operation.Takes before.state outcome step →
      step ≠ .enter key region) : before.state.view.region key = some region := by
    obtain ⟨stop, -, steps, ⟨path, -⟩, takes, -⟩ :=
      concludes_of_ends sound addressed False.elim ends
    exact path.keeps (motive := fun view => view.region key = some region →
      before.state.view.region key = some region) takes
      (fun view step taken _ earlier here =>
        earlier (View.region_of_after (fun key region => none step key region taken) here)) id recorded
  cases operation with
  | mapFile id start file offset length =>
      cases outcome with
      | ok value =>
          have made : (mapFile id start file offset length).perform.Ensures before
              (fun _ after => ∃ number, after.state.view.region =
                Function.update before.state.view.region (id, number) (some ⟨start, length⟩) ∧
                Machine.mapFile id start file offset length before = .ok number after)
              (fun _ _ => True) fun _ _ => True := by
            rw [perform, ensures_bind]
            exact (Machine.mapFile_records sound (addressed id rfl)).known.mono
              (fun number after known => ⟨number, known.1.1, known.2⟩) (fun _ _ _ => trivial)
              fun _ _ _ => trivial
          obtain ⟨number, same, ran⟩ := made.returned ends
          rw [same, Function.update_apply] at recorded
          split at recorded
          · rename_i mine
            cases recorded
            cases mine
            exact .inr ⟨file, offset, rfl, rfl, ran⟩
          · exact .inl recorded
      | error cause =>
          have failed : (mapFile id start file offset length).perform.Ensures before
              (fun _ _ => True) (fun _ after => after.state.view.region = before.state.view.region)
              fun _ _ => True := by
            rw [perform, ensures_bind]
            exact (Machine.mapFile_records sound (addressed id rfl)).mono (fun _ _ _ => trivial)
              (fun _ _ same => same) fun _ _ _ => trivial
          exact .inl (failed.failed ends ▸ recorded)
  | addZeros id page =>
      exact .inl (unchanged ((addPage_region sound (addressed id rfl) (.inl rfl)).mono
        (fun _ _ same => same) (fun _ _ same => same) fun _ _ _ => trivial))
  | addWindow id page file offset length =>
      refine .inl (unchanged ?_)
      rw [perform, ensures_bind, ensures_orPanic]
      split
      · exact (addPage_region sound (addressed id rfl) (.inr ⟨_, rfl⟩)).mono
          (fun _ _ same => same) (fun _ _ same => same) fun _ _ _ => trivial
      · trivial
  | createSpace =>
      refine .inl (shrinks ?_)
      rintro _ _ _ ⟨_, rfl⟩ ⟨⟩
  | destroySpace =>
      refine .inl (shrinks ?_)
      rintro _ _ _ (unmaps | same) rfl
      · exact unmaps.elim
      · cases same
  | markDirty =>
      refine .inl (shrinks ?_)
      rintro _ _ _ rfl ⟨⟩
  | _ =>
      refine .inl (shrinks ?_)
      rintro _ _ _ takes rfl
      exact takes.elim

theorem drops_of_ends (sound : before.state.Sound False)
    (addressed : operation.Addressed before.state) (ends : operation.Ends before outcome after)
    (present : before.state.view.record key ≠ none) (gone : after.state.view.record key = none) :
    operation.space? = some key.1 ∧ operation.Drops before.state key.2 := by
  have turns := sound.turns key addressed ends
  have here : before.state.view.residence? key ≠ none := by simpa [View.residence?] using present
  have away : after.state.view.residence? key = none := by simp [View.residence?, gone]
  generalize before.state.view.residence? key = first at turns here
  rw [away] at turns
  generalize reached : (none : Option Residence) = last at turns
  induction turns with
  | refl => exact absurd reached.symm here
  | @tail middle last _ turn ih =>
      subst reached
      cases middle with
      | none => exact ih rfl
      | some residence =>
          cases turn with
          | remove own drops => exact ⟨own, drops⟩

theorem unchanged_of_recorded {id number : Nat} (sound : before.state.Sound False)
    (addressed : (unmapFile id number).Addressed before.state)
    (ends : (unmapFile id number).Ends before outcome after)
    (recorded : after.state.view.region (id, number) = some region) : after.state = before.state := by
  have spec : (Machine.unmapFile id number).Ensures before _ _ _ :=
    Machine.unmapFile_forgets sound (addressed id rfl)
  cases outcome with
  | ok =>
      rw [spec.returned ends] at recorded
      cases recorded
  | error =>
      rcases spec.failed ends with rfl | gone
      · rfl
      · rw [gone] at recorded
        cases recorded

theorem region_of_destroySpace {id number : Nat} (sound : before.state.Sound False)
    (addressed : (destroySpace id).Addressed before.state)
    (ends : (destroySpace id).Ends before outcome after) :
    after.state.view.region (id, number) = none := by
  have spec : (Machine.destroySpace id : Action PagingError Machine Unit).Ensures before _ _ _ :=
    Machine.destroySpace_spec sound (addressed id rfl)
  cases outcome with
  | ok =>
      obtain ⟨middle, -, moves⟩ := spec.returned ends
      rw [moves.path.of_single.2]
      exact if_pos rfl
  | error => exact (spec.failed ends).elim

end Operation

/-! ## Runs -/

/-- An operation other than the unmapping of a mapping gives up one of its pages: the unmapping of a
range, or of another mapping. -/
def Operation.TakesFrom (operation : Operation) (before : Machine) (id number page : Nat) : Prop :=
  (∃ start length, operation = .unmapRange id start length ∧ page ∈ Machine.pagesIn start length) ∨
    ∃ other region, operation = .unmapFile id other ∧ other ≠ number ∧
      before.view.region (id, other) = some region ∧
      page ∈ Machine.pagesIn region.start region.length

def Stayed (key : Nat × Nat) (earlier now : Traced Machine) : Prop :=
  Run (fun before operation after => operation.Addressed before ∧ after.view.record key ≠ none)
    earlier now

/-- A page of a mapping stayed until it was given up, though the mapping was not. -/
def Taken (id number page : Nat) (made now : Traced Machine) : Prop :=
  ∃ (before after : Traced Machine) (operation : Operation) (outcome : Except PagingError Unit),
    Stayed (id, page) made before ∧ operation.TakesFrom before.state id number page ∧
      operation.Addressed before.state ∧ operation.Ends before outcome after ∧
      after.state.view.record (id, page) = none ∧
      Run (fun before operation _ => operation.Addressed before) after now

/-- A mapping was made at some time, and brought all of its pages with it. Each of them has stayed
since then, or has been taken from it. -/
def Made (first now : Traced Machine) (id number : Nat) (region : Region) : Prop :=
  ∃ (before made : Traced Machine) (file offset : Nat),
    Run (fun before operation _ => operation.Addressed before) first before ∧
      Machine.mapFile id region.start file offset region.length before = .ok number made ∧
      Run (fun before operation _ => operation.Addressed before) made now ∧
      ∀ page ∈ Machine.pagesIn region.start region.length,
        before.state.view.record (id, page) = none ∧ made.state.view.record (id, page) ≠ none ∧
          (Stayed (id, page) made now ∨ Taken id number page made now)

section Runs

variable {first before after now : Traced Machine} {operation : Operation}
  {outcome : Except PagingError Unit} {id number page : Nat} {region : Region}

theorem Stayed.present {key : Nat × Nat} (stayed : Stayed key first now)
    (present : first.state.view.record key ≠ none) : now.state.view.record key ≠ none := by
  cases stayed with
  | start => exact present
  | next _ kept _ => exact kept.2

theorem Operation.takesFrom_of_drops (sound : before.state.Sound False)
    (addressed : operation.Addressed before.state) (ends : operation.Ends before outcome after)
    (recorded : after.state.view.region (id, number) = some region)
    (present : before.state.view.record (id, page) ≠ none)
    (gone : after.state.view.record (id, page) = none) :
    operation.TakesFrom before.state id number page := by
  obtain ⟨own, drops⟩ := drops_of_ends sound addressed ends present gone
  cases operation with
  | unmapRange other start length =>
      cases own
      exact .inl ⟨start, length, rfl, drops.1⟩
  | unmapFile other asked =>
      cases own
      obtain ⟨covered, found, loose⟩ := drops
      refine .inr ⟨asked, covered, rfl, ?_, found, loose.1⟩
      rintro rfl
      rw [unchanged_of_recorded sound addressed ends recorded] at gone
      exact present gone
  | destroySpace =>
      cases own
      rw [region_of_destroySpace sound addressed ends] at recorded
      cases recorded
  | _ => exact drops.elim

theorem Made.next (made : Made first before id number region) (sound : before.state.Sound False)
    (addressed : operation.Addressed before.state) (ends : operation.Ends before outcome after)
    (recorded : after.state.view.region (id, number) = some region) :
    Made first after id number region := by
  obtain ⟨start, done, file, offset, run, ran, further, pages⟩ := made
  refine ⟨start, done, file, offset, run, ran, .next further addressed ends, fun page covered => ?_⟩
  obtain ⟨absent, present, stayed | taken⟩ := pages page covered
  · refine ⟨absent, present, ?_⟩
    by_cases gone : after.state.view.record (id, page) = none
    · have takes := Operation.takesFrom_of_drops sound addressed ends recorded
        (stayed.present present) gone
      exact .inr ⟨before, after, operation, outcome, stayed, takes, addressed, ends, gone, .start⟩
    · exact .inl (.next stayed ⟨addressed, gone⟩ ends)
  · obtain ⟨there, gone, other, ended, stayed, takes, asked, happened, away, late⟩ := taken
    exact ⟨absent, present, .inr ⟨there, gone, other, ended, stayed, takes, asked, happened, away,
      .next late addressed ends⟩⟩

theorem Run.made (run : Run (fun before operation _ => operation.Addressed before) first now)
    (sound : first.state.Sound False) (blank : ∀ key, first.state.view.region key = none)
    (recorded : now.state.view.region (id, number) = some region) :
    Made first now id number region := by
  induction run generalizing id number region with
  | start =>
      rw [blank] at recorded
      cases recorded
  | @next before after operation outcome earlier addressed ends ih =>
      have soundBefore := earlier.sound sound (fun _ _ _ addressed => addressed) False.elim
      rcases Operation.region_of_ends soundBefore addressed ends recorded with
        old | ⟨file, offset, rfl, rfl, ran⟩
      · exact (ih old).next soundBefore addressed ends recorded
      · have spec : (Machine.mapFile id region.start file offset region.length).Ensures before _ _ _ :=
          Machine.mapFile_records soundBefore (addressed id rfl)
        refine ⟨before, after, file, offset, earlier, ran, .start, fun page covered => ?_⟩
        obtain ⟨absent, present⟩ := (spec.returned ran).2 page covered
        exact ⟨absent, present, .inl .start⟩

end Runs

/-- Unmapping a mapping is unmapping the range that the mapping was made of, so that what it gives up
are pages in that range. -/
theorem unmapping_stays_in_region {settings : Settings} {device : Device} {storage : Storage}
    {first now : Traced Machine} (started : Machine.start settings device storage = .ok first)
    (run : Run (fun before operation _ => operation.Addressed before) first now)
    {id number : Nat} {space : Space} {region : Region}
    (found : now.state.store.spaces[id]? = some space)
    (recorded : space.regions[number]? = some region) :
    Made first now id number region ∧
      (Machine.unmapFile id number).Ensures now
        (fun _ after => ∃ middle,
          Machine.unmapRange id region.start region.length now = .ok () middle ∧
            Machine.Forgets id number middle after)
        (fun cause after => ∃ middle,
          Machine.unmapRange id region.start region.length now = .error (.failed cause) middle ∧
            (cause = .busy ∧ middle = now ∧ after = now ∨
              cause ≠ .busy ∧ Machine.Forgets id number middle after))
        (fun cause after =>
          Machine.unmapRange id region.start region.length now = .error (.panicked cause) after) ∧
      ∀ {outcome : Except PagingError Unit} {after : Traced Machine},
        (Operation.unmapFile id number).Ends now outcome after →
        ∀ key, now.state.view.record key ≠ none → after.state.view.record key = none →
          key.1 = id ∧ key.2 ∈ Machine.pagesIn region.start region.length := by
  have sound := run.sound_of_started started
  have entered : now.state.view.region (id, number) = some region := by
    simp [Machine.view, found, recorded]
  refine ⟨run.made (Machine.start_sound started False.elim) (fun key => ?_) entered,
    (Machine.unmapsFile sound found number).known region recorded,
    fun {outcome after} ends key present gone => ?_⟩
  · obtain ⟨-, same⟩ := Machine.start_ok started
    simp [same, Machine.view]
  · have addressed : (Operation.unmapFile id number).Addressed now.state := by
      rintro _ ⟨⟩
      exact Machine.live_of_space found
    obtain ⟨own, other, there, loose⟩ := Operation.drops_of_ends sound addressed ends present gone
    rw [entered] at there
    cases there
    exact ⟨(Option.some.inj own).symm, loose.1⟩

/-- Of two pages that were mapped, unmapping gives up the one that is still there. -/
theorem unmapping_stays_in_region_of_two_pages : ∃ (device : Device) (storage : Storage)
    (first now middle after : Traced Machine), Machine.start ⟨1⟩ device storage = .ok first ∧
      Run (fun before operation _ => operation.Addressed before) first now ∧
      Made first now 1 0 ⟨4096, 8192⟩ ∧ Machine.unmapRange 1 4096 8192 now = .ok () middle ∧
      Machine.Forgets 1 0 middle after ∧ (Operation.unmapFile 1 0).Ends now (.ok ()) after ∧
      now.state.view.record (1, 4096) = none ∧ now.state.view.record (1, 8192) ≠ none ∧
      after.state.view.record (1, 8192) = none ∧ 8192 ∈ Machine.pagesIn 4096 8192 := by
  let storage : Storage := { files := #[.flat 100 {}] }
  have ends : (Operation.trial 1 1 storage [.createSpace none {}, .mapFile 1 4096 0 0 8192,
      .unmapRange 1 4096 4096]).map (fun ends =>
        (ends.2.state.view.region (1, 0), (ends.2.state.view.record (1, 4096)).isSome,
          (ends.2.state.view.record (1, 8192)).isSome,
          (Operation.performAll [.unmapFile 1 0] ends.2).map fun after =>
            (after.state.view.record (1, 8192)).isSome)) =
      some (some ⟨4096, 8192⟩, false, true, some false) := by decide +kernel
  simp only [Option.map_eq_some_iff, Prod.exists, Prod.mk.injEq, Option.isSome_eq_false_iff,
    Option.isNone_iff_eq_none] at ends
  obtain ⟨first, now, tried, entered, gone, here, after, unmapped, away⟩ := ends
  obtain ⟨⟨device, -, started⟩, done⟩ := Operation.trial_ok tried
  obtain ⟨addressed, ended⟩ := Operation.performAll_single unmapped
  have run : Run (fun before operation _ => operation.Addressed before) first now :=
    Operation.run_of_performAll done fun _ _ _ _ addressed => addressed
  obtain ⟨space, found⟩ := Machine.exists_space (addressed 1 rfl)
  have recorded : space.regions[0]? = some ⟨4096, 8192⟩ := by
    simpa [Machine.view, found] using entered
  obtain ⟨made, unmaps, stays⟩ := unmapping_stays_in_region started run found recorded
  obtain ⟨middle, ranged, forgot⟩ := unmaps.returned ended
  have present := Option.isSome_iff_ne_none.mp here
  exact ⟨device, storage, first, now, middle, after, started, run, made, ranged, forgot, ended, gone,
    present, away, (stays ended _ present away).2⟩

/-- Unmapping a mapping takes a page from another one that is still there, if the page was unmapped
and mapped again in the meantime. -/
theorem unmapping_takes_from_another : ∃ (device : Device) (storage : Storage)
    (first before made after : Traced Machine), Machine.start ⟨1⟩ device storage = .ok first ∧
      Run (fun before operation _ => operation.Addressed before) first before ∧
      before.state.view.region (1, 0) = some ⟨4096, 8192⟩ ∧
      before.state.view.record (1, 4096) = none ∧
      Machine.mapFile 1 4096 0 0 4096 before = .ok 1 made ∧
      made.state.view.record (1, 4096) ≠ none ∧
      made.state.view.region (1, 0) = some ⟨4096, 8192⟩ ∧
      (Operation.unmapFile 1 0).Ends made (.ok ()) after ∧
      after.state.view.record (1, 4096) = none ∧
      after.state.view.region (1, 1) = some ⟨4096, 4096⟩ := by
  let storage : Storage := { files := #[.flat 100 {}] }
  let begun : List Operation :=
    [.createSpace none {}, .mapFile 1 4096 0 0 8192, .unmapRange 1 4096 4096]
  have ends : (Operation.trial 1 1 storage begun).map (fun ends =>
      (ends.2.state.view.region (1, 0), (ends.2.state.view.record (1, 4096)).isSome)) =
      some (some ⟨4096, 8192⟩, false) := by decide +kernel
  have goes : (Operation.trial 1 1 storage begun).bind (fun ends =>
      match Machine.mapFile 1 4096 0 0 4096 ends.2 with
      | .ok number made => (Operation.performAll [.unmapFile 1 0] made).map fun after =>
        (number, (made.state.view.record (1, 4096)).isSome, made.state.view.region (1, 0),
          (after.state.view.record (1, 4096)).isSome, after.state.view.region (1, 1))
      | .error _ _ => none) =
      some (1, true, some ⟨4096, 8192⟩, false, some ⟨4096, 4096⟩) := by decide +kernel
  simp only [Option.map_eq_some_iff, Prod.exists, Prod.mk.injEq, Option.isSome_eq_false_iff,
    Option.isNone_iff_eq_none] at ends
  obtain ⟨first, before, tried, entered, gone⟩ := ends
  obtain ⟨⟨device, -, started⟩, done⟩ := Operation.trial_ok tried
  rw [tried, Option.bind_some] at goes
  split at goes
  · rename_i number made mapped
    simp only [Option.map_eq_some_iff, Prod.mk.injEq, Option.isSome_eq_false_iff,
      Option.isNone_iff_eq_none] at goes
    obtain ⟨after, unmapped, rfl, here, still, away, other⟩ := goes
    exact ⟨device, storage, first, before, made, after, started,
      Operation.run_of_performAll done fun _ _ _ _ addressed => addressed, entered, gone, mapped,
      Option.isSome_iff_ne_none.mp here, still, (Operation.performAll_single unmapped).2, away, other⟩
  · cases goes

end DemandPaging
