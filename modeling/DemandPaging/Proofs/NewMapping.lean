import DemandPaging.Proofs.Run

/-!
# Mapping a file

A stretch of a file is mapped as a whole or not at all. If it is, its pages are added to the space
and nothing else is changed; their windows cut the stretch of the file without a gap, and the number
of the mapping is new (`mapping_exact`).
-/

namespace DemandPaging

def FileWindow.Covers (window : FileWindow) (position : Nat) : Prop :=
  window.offset ≤ position ∧ position < window.offset + window.length

namespace Machine

open DemandPaging.Action

variable {machine : Machine} {log : Array Event} {id page start length offset file size : Nat}
  {space : Space}

/-! ## Windows -/

def pageCount (length : Nat) : Nat := (length + pageSize - 1) / pageSize

theorem lt_pageCount_iff {i : Nat} : i < pageCount length ↔ pageSize * i < length := by
  simp only [pageCount, pageSize]
  omega

theorem covering_of_mappable (mappable : Mappable start offset length) :
    PageSpan.covering start length = .ok ⟨start, pageCount length⟩ := by
  obtain ⟨positive, aligned, -, user, -⟩ := mappable
  obtain ⟨⟨first, count⟩, covered⟩ := PageSpan.exists_covering user
  obtain ⟨begins, ⟨empty, -⟩ | ⟨-, reaches, ends⟩⟩ := PageSpan.covering_eq covered
  · omega
  obtain rfl : first = start := begins.trans (pageOf_eq_self aligned)
  have same : count = pageCount length := by
    simp only [PageSpan.nth, pageSize] at reaches ends
    simp only [pageCount, pageSize]
    omega
  rw [covered, same]

theorem proper_of_mappable (mappable : Mappable start offset length) {i : Nat}
    (small : i < pageCount length) :
    Aligned (start + pageSize * i) ∧ IsUser (start + pageSize * i) := by
  obtain ⟨-, aligned, -, ⟨-, inside⟩, -⟩ := mappable
  rw [lt_pageCount_iff] at small
  simp only [Aligned, pageOffset, IsUser, pageSize, kernelBase] at aligned inside small ⊢
  omega

theorem exists_covers_windowAt_iff (file size offset length position : Nat) :
    (∃ i < pageCount length, (windowAt file size offset length i).Covers position) ↔
      offset ≤ position ∧ position < min (offset + length) size := by
  simp only [FileWindow.Covers, windowAt, lt_pageCount_iff, pageSize]
  constructor
  · rintro ⟨i, small, covers⟩
    omega
  · intro inside
    exact ⟨(position - offset) / 4096, by omega, by omega, by omega⟩

theorem eq_of_covers_windowAt {i j position : Nat}
    (one : (windowAt file size offset length i).Covers position)
    (other : (windowAt file size offset length j).Covers position) : i = j := by
  simp only [FileWindow.Covers, windowAt, pageSize] at one other
  omega

/-- Windows cut what there is of a stretch of a file into pages. Each ends with its page, with the
stretch or with the file, whichever comes first. -/
structure Cuts (window : Nat → FileWindow) (file size offset length : Nat) : Prop where
  onto : ∀ i, (window i).file = file
  begins : ∀ i, (window i).offset = offset + pageSize * i
  holds : ∀ i, ((window i).length : Int) = max 0 (min (pageSize : Int)
    (min ((length : Int) - pageSize * i) ((size : Int) - (offset + pageSize * i))))
  covers : ∀ position, (∃ i < pageCount length, (window i).Covers position) ↔
    offset ≤ position ∧ position < min (offset + length) size
  apart : ∀ {i j position}, (window i).Covers position → (window j).Covers position → i = j

theorem cuts_windowAt (file size offset length : Nat) :
    Cuts (windowAt file size offset length) file size offset length where
  onto _ := rfl
  begins _ := rfl
  holds i := by
    simp only [windowAt]
    omega
  covers := exists_covers_windowAt_iff file size offset length
  apart := eq_of_covers_windowAt

/-! ## Adding pages -/

theorem addPage_exact (found : machine.store.spaces[id]? = some space) {residence : Residence}
    (aligned : Aligned page) (user : IsUser page) (absent : space.catalog.find? page = none) :
    (addPage id page residence).Ensures ⟨machine, log⟩
      (fun _ (after : Traced Machine) => after.state =
        machine.withSpace id { space with catalog := space.catalog.put page ⟨residence, false⟩ })
      (fun _ _ => False) fun _ _ => False := by
  rw [addPage, ensures_onCatalog found, Catalog.install]
  simp only [ensures_bind, ensures_require, ensures_look, ensures_emit, ensures_update]
  rw [if_pos ⟨aligned, user⟩, if_pos (by rw [absent]; rfl)]
  trivial

theorem addPages_exact (found : machine.store.spaces[id]? = some space) (place : Nat → Nat)
    (window : Nat → FileWindow) {indices : List Nat}
    (proper : ∀ i ∈ indices, Aligned (place i) ∧ IsUser (place i))
    (absent : ∀ i ∈ indices, space.catalog.find? (place i) = none)
    (distinct : (indices.map place).Nodup) :
    (indices.forM fun i => addPage id (place i) (.inFile (window i))).Ensures ⟨machine, log⟩
      (fun _ (after : Traced Machine) => ∃ catalog,
        after.state = machine.withSpace id { space with catalog := catalog } ∧
          (∀ i ∈ indices, catalog.find? (place i) = some ⟨.inFile (window i), false⟩) ∧
          ∀ page ∉ indices.map place, catalog.find? page = space.catalog.find? page)
      (fun _ _ => False) fun _ _ => False := by
  induction indices generalizing machine space log with
  | nil => exact ⟨space.catalog, (withSpace_self found).symm, by simp, fun _ _ => rfl⟩
  | cons i rest ih =>
      obtain ⟨⟨aligned, user⟩, properLater⟩ := List.forall_mem_cons.mp proper
      obtain ⟨absentHere, absentLater⟩ := List.forall_mem_cons.mp absent
      obtain ⟨fresh, distinctLater⟩ := List.nodup_cons.mp distinct
      rw [ensures_forM_cons]
      refine Ensures.mono (addPage_exact found aligned user absentHere) ?_
        (fun _ _ never => never) fun _ _ never => never
      rintro _ ⟨(middle : Machine), log⟩ rfl
      have still (j : Nat) (member : j ∈ rest) :
          (space.catalog.put (place i) ⟨.inFile (window i), false⟩).find? (place j) = none := by
        have elsewhere : place j ≠ place i := fun same =>
          fresh (same ▸ List.mem_map_of_mem member)
        rw [Catalog.find?_put, if_neg elsewhere, absentLater j member]
      refine Ensures.mono (ih (getElem?_withSpace_self _) properLater still distinctLater) ?_
        (fun _ _ never => never) fun _ _ never => never
      rintro _ after ⟨catalog, reached, added, kept⟩
      refine ⟨catalog, ?_, ?_, fun page outside => ?_⟩
      · rw [reached, withSpace_withSpace]
      · refine List.forall_mem_cons.mpr ⟨?_, added⟩
        rw [kept _ fresh, Catalog.find?_put, if_pos rfl]
      · obtain ⟨elsewhere, later⟩ := not_or.mp (List.mem_cons.not.mp outside)
        rw [kept page later, Catalog.find?_put, if_neg elsewhere]

/-! ## The mapping -/

/-- A stretch of a file has been mapped, and nothing else is changed. -/
structure MappedAt (before : Machine) (id : Nat) (space : Space)
    (start file size offset length number : Nat) (after : Machine) : Prop where
  numbered : number = space.nextRegion
  state : ∃ catalog window,
    after = before.withSpace id { space with
      catalog := catalog
      regions := space.regions.insert number ⟨start, length⟩
      nextRegion := number + 1 } ∧
    Cuts window file size offset length ∧
    (∀ i < pageCount length, space.catalog.find? (start + pageSize * i) = none ∧
      catalog.find? (start + pageSize * i) = some ⟨.inFile (window i), false⟩) ∧
    ∀ page, (∀ i < pageCount length, page ≠ start + pageSize * i) →
      catalog.find? page = space.catalog.find? page

def Vacant (space : Space) (start length : Nat) : Prop :=
  ∀ page ∈ pagesIn start length, space.catalog.find? page = none

theorem isFree_iff {span : PageSpan} (covered : PageSpan.covering start length = .ok span) :
    (space.catalog.within span).isEmpty = true ↔ Vacant space start length := by
  rw [List.isEmpty_iff, Catalog.within, List.filter_eq_nil_iff, Vacant, pagesIn_eq covered]
  simp only [PageSpan.mem_pages_iff, Catalog.mem_pages_iff, Option.isSome_iff_ne_none]
  exact forall_congr' fun page => not_imp_not

theorem mapFile_exact (found : machine.store.spaces[id]? = some space) :
    (mapFile id start file offset length).Ensures ⟨machine, log⟩
      (fun number (after : Traced Machine) =>
        Mappable start offset length ∧ Vacant space start length ∧
          ∃ opened, machine.store.storage.file file = .ok opened ∧
            MappedAt machine id space start file opened.length offset length number after.state)
      (fun cause after => after = ⟨machine, log⟩ ∧
        (cause = .badAddress ∧ ¬ Mappable start offset length ∨
          cause = .alreadyMapped ∧ Mappable start offset length ∧ ¬ Vacant space start length))
      fun cause _ => machine.store.storage.file file = .error cause ∨
        halfWordLimit ≤ space.nextRegion + 1 := by
  refine ensures_mapFile found (fun refused => ⟨rfl, .inl ⟨rfl, refused⟩⟩)
    (fun _ missing => .inl missing) fun span opened mappable covers known => ?_
  obtain rfl : span = ⟨start, pageCount length⟩ :=
    Except.ok.inj (covers.symm.trans (covering_of_mappable mappable))
  split
  · rename_i free
    have vacant := (isFree_iff covers).mp free
    have absent (i : Nat) (small : i ∈ List.range (pageCount length)) :
        space.catalog.find? (PageSpan.nth ⟨start, pageCount length⟩ i) = none :=
      vacant _ (pagesIn_eq covers ▸ List.mem_map_of_mem small)
    have proper (i : Nat) (small : i ∈ List.range (pageCount length)) :=
      proper_of_mappable mappable (List.mem_range.mp small)
    refine Ensures.mono (addPages_exact found (PageSpan.nth ⟨start, pageCount length⟩) _ proper
      absent (PageSpan.nodup_pages _)) ?_ (fun _ _ never => never.elim) fun _ _ never => never.elim
    rintro _ ⟨(mapped : Machine), log⟩ ⟨catalog, rfl, added, kept⟩
    rw [ensures_onSpace (getElem?_withSpace_self _), Space.enterRegion]
    simp only [ensures_bind, ensures_look, ensures_insist, ensures_update, ensures_pure]
    split
    · refine ⟨mappable, vacant, opened, known, rfl, catalog, _, withSpace_withSpace ..,
        cuts_windowAt .., ?_, ?_⟩
      · exact fun i small =>
          ⟨absent i (List.mem_range.mpr small), added i (List.mem_range.mpr small)⟩
      · intro page elsewhere
        refine kept page fun member => ?_
        obtain ⟨i, small, rfl⟩ := List.mem_map.mp member
        exact elsewhere i (List.mem_range.mp small) rfl
    · rename_i worn
      exact .inr (Nat.le_of_not_lt worn)
  · rename_i occupied
    exact ⟨rfl, .inr ⟨rfl, mappable, (isFree_iff covers).not.mp occupied⟩⟩

end Machine

/-! ## The numbers of mappings -/

theorem View.nextRegion_after {strict : Prop} {view : View} {step : Step} {id : Nat}
    (permitted : view.Permits strict step) (stays : step ≠ .destroy id) :
    view.nextRegion id ≤ (view.after step).nextRegion id := by
  cases step with
  | enter key region =>
      have next := permitted.2.1
      simp only [View.after, Function.update_apply]
      split
      · rename_i same
        rw [same]
        omega
      · exact Nat.le_refl _
  | destroy other =>
      have distinct : id ≠ other := fun same => stays (same ▸ rfl)
      simp only [View.after, Function.update_of_ne distinct]
      exact Nat.le_refl _
  | bringIn key frame residence => cases residence <;> exact Nat.le_refl _
  | drop key record saved =>
      obtain ⟨residence, dirty⟩ := record
      cases residence <;> exact Nat.le_refl _
  | _ => exact Nat.le_refl _

namespace Operation

open DemandPaging.Action

variable {operation : Operation} {before after : Traced Machine} {outcome : Except PagingError Unit}
  {step : Step} {id : Nat}

theorem not_destroy_of_takes {machine : Machine} (takes : operation.Takes machine outcome step)
    (stays : operation ≠ .destroySpace id) : step ≠ .destroy id := by
  rintro rfl
  cases operation with
  | createSpace =>
      obtain ⟨_, same⟩ := takes
      cases same
  | destroySpace =>
      rcases takes with unmaps | same
      · exact unmaps.elim
      · cases same
        exact stays rfl
  | markDirty => cases takes
  | _ => exact takes.elim

theorem nextRegion_of_ends (sound : before.state.Sound False)
    (addressed : operation.Addressed before.state) (stays : operation ≠ .destroySpace id)
    (ends : operation.Ends before outcome after) :
    before.state.view.nextRegion id ≤ after.state.view.nextRegion id := by
  obtain ⟨stop, -, steps, ⟨path, -⟩, takes, -⟩ :=
    concludes_of_ends sound addressed False.elim ends
  exact path.keeps (motive := fun view => before.state.view.nextRegion id ≤ view.nextRegion id) takes
    (fun view step taken permitted earlier => earlier.trans
      (View.nextRegion_after permitted (not_destroy_of_takes taken stays))) (Nat.le_refl _)

end Operation

def Numbered (first : Traced Machine) (id number : Nat) (now : Traced Machine) : Prop :=
  ∃ (before made : Traced Machine) (start file offset length : Nat),
    Run (fun before operation _ => operation.Addressed before) first before ∧
      Machine.mapFile id start file offset length before = .ok number made ∧
      Run (fun before operation _ => operation.Addressed before ∧ operation ≠ .destroySpace id)
        made now

section Runs

open DemandPaging.Action

variable {first before made now : Traced Machine} {id number : Nat} {space : Space}

theorem Run.nextRegion_le (run : Run (fun before operation _ =>
      operation.Addressed before ∧ operation ≠ .destroySpace id) made now)
    (sound : made.state.Sound False) :
    made.state.view.nextRegion id ≤ now.state.view.nextRegion id := by
  induction run with
  | start => exact Nat.le_refl _
  | next earlier allowed ends ih =>
      have soundBefore := earlier.sound sound (fun _ _ _ allowed => allowed.1) False.elim
      exact ih.trans (Operation.nextRegion_of_ends soundBefore allowed.1 allowed.2 ends)

theorem Machine.exists_space_of_mapFile {start file offset length : Nat}
    (ran : Machine.mapFile id start file offset length before = .ok number made) :
    ∃ space, before.state.store.spaces[id]? = some space := by
  cases found : before.state.store.spaces[id]? with
  | some space => exact ⟨space, rfl⟩
  | none =>
      have never : (Machine.mapFile id start file offset length).Ensures before
          (fun _ _ => False) (fun _ _ => True) fun _ _ => True := by
        rw [Machine.mapFile, ensures_bind, ensures_require]
        split
        · simp only [Machine.look, Machine.space, Store.space, found, ensures_bind, ensures_look,
            ensures_orPanic]
          split <;> trivial
        · trivial
      exact (never.returned ran).elim

theorem Machine.nextRegion_of_mapFile {start file offset length : Nat}
    (found : before.state.store.spaces[id]? = some space)
    (ran : Machine.mapFile id start file offset length before = .ok number made) :
    made.state.view.nextRegion id = number + 1 := by
  have exact : (Machine.mapFile id start file offset length).Ensures before _ _ _ :=
    Machine.mapFile_exact found
  obtain ⟨-, -, opened, -, -, catalog, window, reached, -⟩ := exact.returned ran
  rw [reached]
  simp [Machine.view, Machine.getElem?_withSpace_self]

theorem Numbered.lt (numbered : Numbered first id number now) (sound : first.state.Sound False)
    (found : now.state.store.spaces[id]? = some space) : number < space.nextRegion := by
  obtain ⟨before, made, start, file, offset, length, run, ran, further⟩ := numbered
  obtain ⟨old, there⟩ := Machine.exists_space_of_mapFile ran
  have addressed : (Operation.mapFile id start file offset length).Addressed before.state := by
    rintro _ ⟨⟩
    exact Machine.live_of_space there
  have ends : (Operation.mapFile id start file offset length).Ends before (.ok ()) made := by
    apply Ensures.ran
    rw [Operation.perform, ensures_bind]
    simp only [Ensures, ran, EStateM.pure, pure, and_self]
  have soundMade : made.state.Sound False :=
    (Run.next run addressed ends).sound sound (fun _ _ _ addressed => addressed) False.elim
  calc number < made.state.view.nextRegion id := by
        rw [Machine.nextRegion_of_mapFile there ran]
        exact Nat.lt_succ_self number
    _ ≤ now.state.view.nextRegion id := further.nextRegion_le soundMade
    _ = space.nextRegion := by simp [Machine.view, found]

end Runs

/-- A stretch of a file is mapped if and only if it may be and no page is in its way. If not, nothing
at all is changed; and if it is, its pages are added with the windows that cut it, and the number of
the mapping is new in its space. -/
theorem mapping_exact {settings : Settings} {device : Device} {storage : Storage}
    {first now : Traced Machine} (started : Machine.start settings device storage = .ok first)
    {id file : Nat} {space : Space} {opened : File}
    (found : now.state.store.spaces[id]? = some space)
    (known : now.state.store.storage.file file = .ok opened)
    (countable : space.nextRegion + 1 < halfWordLimit) (start offset length : Nat) :
    ((∃ number after, Machine.mapFile id start file offset length now = .ok number after) ↔
        Machine.Mappable start offset length ∧ Machine.Vacant space start length) ∧
      (Machine.Mappable start offset length → ¬ Machine.Vacant space start length →
        Machine.mapFile id start file offset length now = .error (.failed .alreadyMapped) now) ∧
      (¬ Machine.Mappable start offset length →
        Machine.mapFile id start file offset length now = .error (.failed .badAddress) now) ∧
      ∀ number after, Machine.mapFile id start file offset length now = .ok number after →
        Machine.MappedAt now.state id space start file opened.length offset length number
          after.state ∧ ¬ Numbered first id number now := by
  have exact : (Machine.mapFile id start file offset length).Ensures now _ _ _ :=
    Machine.mapFile_exact found
  have calm {cause : Panic} : ¬ (now.state.store.storage.file file = .error cause ∨
      halfWordLimit ≤ space.nextRegion + 1) := by
    simp [known, countable]
  refine ⟨⟨?_, ?_⟩, ?_, ?_, ?_⟩
  · rintro ⟨number, after, ran⟩
    obtain ⟨mappable, vacant, -⟩ := exact.returned ran
    exact ⟨mappable, vacant⟩
  · rintro ⟨mappable, vacant⟩
    have returns : (Machine.mapFile id start file offset length).Ensures now
        (fun _ _ => True) (fun _ _ => False) fun _ _ => False := by
      refine exact.mono (fun _ _ _ => trivial) ?_ fun _ _ panicked => calm panicked
      rintro _ _ ⟨-, ⟨-, refused⟩ | ⟨-, -, occupied⟩⟩
      · exact refused mappable
      · exact occupied vacant
    obtain ⟨number, after, ran, -⟩ := returns.exists_returned
    exact ⟨number, after, ran⟩
  · intro mappable occupied
    refine (exact.mono (fun _ _ mapped => occupied mapped.2.1) ?_
      fun _ _ panicked => calm panicked).refused
    rintro _ _ ⟨same, ⟨-, refused⟩ | ⟨cause, -⟩⟩
    · exact absurd mappable refused
    · exact ⟨cause, same⟩
  · intro refused
    refine (exact.mono (fun _ _ mapped => refused mapped.1) ?_
      fun _ _ panicked => calm panicked).refused
    rintro _ _ ⟨same, ⟨cause, -⟩ | ⟨-, mappable, -⟩⟩
    · exact ⟨cause, same⟩
    · exact absurd mappable refused
  · intro number after ran
    obtain ⟨-, -, _, same, mapped⟩ := exact.returned ran
    rw [known] at same
    cases same
    refine ⟨mapped, fun numbered => ?_⟩
    have less := numbered.lt (Machine.start_sound started False.elim) found
    rw [mapped.numbered] at less
    exact Nat.lt_irrefl _ less

/-- A mapping of two pages past the end of the first one in its file, and two that are refused: one is
in the way of the first mapping, and one does not begin at a page. -/
theorem mapping_exact_after_another : ∃ (device : Device) (storage : Storage)
    (first now after : Traced Machine) (space : Space),
    Machine.start ⟨1⟩ device storage = .ok first ∧
      Run (fun before operation _ => operation.Addressed before) first now ∧
      Machine.mapFile 1 8192 0 4096 8192 now = .ok 1 after ∧
      Machine.MappedAt now.state 1 space 8192 0 5000 4096 8192 1 after.state ∧
      ¬ Numbered first 1 1 now ∧
      Machine.mapFile 1 0 0 0 8192 now = .error (.failed .alreadyMapped) now ∧
      Machine.mapFile 1 100 0 0 8192 now = .error (.failed .badAddress) now := by
  let storage : Storage := { files := #[.flat 5000 {}] }
  have ends : (Operation.trial 1 1 storage [.createSpace none {}, .mapFile 1 4096 0 0 100]).map
      (fun ends => (ends.2.state.view.live 1, ends.2.state.view.nextRegion 1,
        (ends.2.state.view.record (1, 4096)).isSome,
        (ends.2.state.store.storage.file 0).toOption.map File.length,
        (Machine.mapFile 1 8192 0 4096 8192).returned? ends.2)) =
      some (true, 1, true, some 5000, some 1) := by decide +kernel
  simp only [Option.map_eq_some_iff, Prod.exists, Prod.mk.injEq] at ends
  obtain ⟨first, now, tried, live, next, taken, ⟨opened, opens, size⟩, ran⟩ := ends
  obtain ⟨device, started, run⟩ := Operation.trial_runs tried
  obtain ⟨space, found⟩ := Machine.exists_space live
  have known : now.state.store.storage.file 0 = .ok opened := by
    cases file : now.state.store.storage.file 0 with
    | ok other =>
        rw [file] at opens
        cases opens
        rfl
    | error cause =>
        rw [file] at opens
        cases opens
  have countable : space.nextRegion + 1 < halfWordLimit := by
    have same : space.nextRegion = 1 := by simpa [Machine.view, found] using next
    rw [same]
    decide
  obtain ⟨after, ended⟩ := Action.exists_of_returned? ran
  obtain ⟨-, -, -, mapped⟩ := mapping_exact started found known countable 8192 4096 8192
  obtain ⟨-, occupied, -⟩ := mapping_exact started found known countable 0 0 8192
  obtain ⟨-, -, bad, -⟩ := mapping_exact started found known countable 100 0 8192
  have inTheWay : ¬ Machine.Vacant space 0 8192 := by
    intro vacant
    have absent := vacant 4096 (by decide)
    rw [← Machine.record_eq found, ← Option.not_isSome_iff_eq_none] at absent
    exact absent taken
  obtain ⟨done, fresh⟩ := mapped _ _ ended
  rw [size] at done
  exact ⟨device, storage, first, now, after, space, started, run, ended, done, fresh,
    occupied (by decide) inTheWay, bad (by decide)⟩

end DemandPaging
