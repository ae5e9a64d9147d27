import DemandPaging.Proofs.Machine.Removal
import DemandPaging.Proofs.Run

/-!
# Unmapping a range

A range is refused, and nothing is changed, if it is not one of user pages or one of its pages is
pinned. Otherwise all of its pages are given up, whatever becomes of those that have to be saved
first, and nothing else is. A mapping is unmapped with its range, and is forgotten unless a page of
it is pinned (`unmapping_exact`).
-/

namespace DemandPaging

namespace Machine

open DemandPaging.Action

variable {machine after : Machine} {log : Array Event} {id page number start length : Nat}
  {space : Space} {span : PageSpan}

/-! ## The pages of a range -/

theorem within_eq (catalog : Catalog) (span : PageSpan) :
    catalog.within span = span.pages.filter fun page => (catalog.find? page).isSome := by
  have ordered : catalog.pages.Pairwise (· < ·) :=
    Std.ExtTreeMap.ordered_keys.imp Nat.compare_eq_lt.mp
  refine (ordered.filter _).eq_of_mem_iff (span.ascending_pages.filter _) fun page => ?_
  rw [List.mem_filter, List.mem_filter, PageSpan.mem_pages_iff,
    Catalog.mem_pages_iff, and_comm]

theorem unsaved?_of_absent {view : View} {key : Nat × Nat} (absent : view.record key = none) :
    view.unsaved? key = none := by
  rw [View.unsaved?, absent]

theorem unsaved_within (found : machine.store.spaces[id]? = some space) (span : PageSpan) :
    (space.catalog.within span).filterMap (fun page => machine.view.unsaved? (id, page)) =
      span.pages.filterMap fun page => machine.view.unsaved? (id, page) := by
  rw [within_eq, List.filterMap_filter]
  refine List.filterMap_congr fun page _ => ?_
  split
  · rfl
  · rename_i absent
    rw [unsaved?_of_absent]
    rw [record_eq found]
    simpa using absent

/-! ## What is left of a range -/

def Blocked (machine : Machine) (space : Space) (start length : Nat) : Prop :=
  ∃ page ∈ pagesIn start length, (space.catalog.frame? page).any machine.pool.isPinned = true

structure Pruned (pages : List Nat) (space last : Space) : Prop where
  record : ∀ page, last.catalog.find? page =
    if page ∈ pages then none else space.catalog.find? page
  translation : ∀ page, last.directory.translation page =
    if page ∈ pages then none else space.directory.translation page
  unmapped : ∀ page ∈ pages, last.directory.frame? page = .ok none
  regions : last.regions = space.regions
  nextRegion : last.nextRegion = space.nextRegion

/-- The pages of a list are given up, and nothing else is. Those that were modified have been saved
in turn, and the outcome is that of the first save that failed. -/
structure Unmapped (id : Nat) (space : Space) (pages : List Nat) (outcome : Except PagingError Unit)
    (before after : Machine) : Prop where
  left : ∃ last, after.store.spaces[id]? = some last ∧ Pruned pages space last
  vacated : ∀ page ∈ pages, ∀ frame, space.catalog.frame? page = some frame →
    after.pool.occupant? frame = none
  others : before.Apart id
    (fun frame => ∃ page ∈ pages, space.catalog.frame? page = some frame) after
  slots : ∀ slot, after.store.swap.isUsed slot = .ok true ↔
    before.store.swap.isUsed slot = .ok true ∧ ∀ page ∈ pages, ∀ record,
      space.catalog.find? page = some record → record.residence.slot? ≠ some slot
  ascending : pages.Pairwise (· < ·)
  saves : Storage.Settled (pages.filterMap fun page => before.view.unsaved? (id, page))
    before.store.storage after.store.storage outcome

section Dropped

variable {pages : List Nat} {outcome : Except PagingError Unit}

theorem Dropped.of_within (sound : machine.Sound False)
    (found : machine.store.spaces[id]? = some space)
    (dropped : machine.Dropped id (space.catalog.within span) outcome after) :
    machine.Dropped id span.pages outcome after := by
  have listed (page : Nat) : page ∈ space.catalog.within span ↔
      page ∈ span.pages ∧ machine.view.record (id, page) ≠ none := by
    rw [within_eq, List.mem_filter, record_eq found, Option.isSome_iff_ne_none]
  have gone {α : Type} (seen : Nat × Nat → Option α)
      (absent : ∀ key, machine.view.record key = none → seen key = none) (key : Nat × Nat) :
      (if key.1 = id ∧ key.2 ∈ space.catalog.within span then none else seen key) =
        if key.1 = id ∧ key.2 ∈ span.pages then none else seen key := by
    obtain ⟨owner, page⟩ := key
    by_cases unrecorded : machine.view.record (owner, page) = none
    · rw [absent _ unrecorded, ite_self, ite_self]
    · by_cases mine : owner = id
      · subst mine
        simp only [listed, unrecorded, ne_eq, not_false_eq_true, and_true]
      · simp only [mine, false_and, if_false]
  refine ⟨dropped.through.mono ?_, dropped.apart.mono ?_, fun key => ?_, fun key => ?_, ?_⟩
  · exact fun _ unmaps => unmaps.mono False.elim fun page member => ((listed page).mp member).1
  · rintro frame ⟨page, member, inside⟩
    exact ⟨page, ((listed page).mp member).1, inside⟩
  · rw [dropped.record, gone _ fun _ absent => absent]
  · rw [dropped.translation, gone _ fun key absent => ?_]
    exact sound.consistent.unmapped (by simp [View.frameOf, absent])
  · rw [← unsaved_within found]
    exact dropped.saves

theorem Dropped.pruned (found : machine.store.spaces[id]? = some space)
    (dropped : machine.Dropped id pages outcome after) (same : machine.SameRegions after)
    (proper : ∀ page ∈ pages, Aligned page ∧ IsUser page) :
    ∃ last, after.store.spaces[id]? = some last ∧ Pruned pages space last := by
  have live := dropped.through.live_eq fun _ => Step.Unmaps.inner
  obtain ⟨last, found'⟩ := exists_space (live ▸ live_of_space found)
  have translation (page : Nat) : last.directory.translation page =
      if page ∈ pages then none else space.directory.translation page := by
    simp only [← translation_eq found', ← translation_eq found, dropped.translation, true_and]
  refine ⟨last, found', fun page => ?_, translation, fun page member => ?_, ?_, ?_⟩
  · simp only [← record_eq found', ← record_eq found, dropped.record, true_and]
  · obtain ⟨aligned, user⟩ := proper page member
    rw [Directory.frame?_eq aligned user, translation, if_pos member]
    rfl
  · refine Std.ExtTreeMap.ext_getElem? fun {number} => ?_
    have regions := congrFun same.1 (id, number)
    simpa [view, found, found'] using regions
  · have number := congrFun same.2 id
    simpa [view, found, found'] using number

theorem Dropped.vacated (sound : machine.Sound False)
    (found : machine.store.spaces[id]? = some space)
    (dropped : machine.Dropped id pages outcome after) {frame : Nat} (member : page ∈ pages)
    (inside : space.catalog.frame? page = some frame) : after.pool.occupant? frame = none := by
  have consistent := (sound.through dropped.through).consistent
  rw [← frameOf_eq found] at inside
  -- A page that is still in the frame would have been there before.
  have empty : after.view.tenant frame = none := by
    by_contra occupied
    obtain ⟨key, there⟩ := Option.ne_none_iff_exists'.mp occupied
    have still := consistent.tenanted.mpr there
    rw [View.frameOf, dropped.record] at still
    split at still
    · cases still
    · rename_i stays
      have same : key = (id, page) := sound.consistent.eq_of_frameOf inside still
      rw [same] at stays
      exact stays ⟨rfl, member⟩
  simpa [View.tenant, view, Pool.holder] using empty

theorem Dropped.slots (sound : machine.Sound False)
    (found : machine.store.spaces[id]? = some space)
    (dropped : machine.Dropped id pages outcome after) (slot : Nat) :
    after.store.swap.isUsed slot = .ok true ↔
      machine.store.swap.isUsed slot = .ok true ∧ ∀ page ∈ pages, ∀ record,
        space.catalog.find? page = some record → record.residence.slot? ≠ some slot := by
  rw [isUsed_of_gone sound (sound.through dropped.through) (fun key => key.1 = id ∧ key.2 ∈ pages)
    (fun key goes => (dropped.record key).trans (if_pos goes))
    (fun key stays => (dropped.record key).trans (if_neg stays))]
  refine and_congr_right fun _ =>
    ⟨fun others page member => (slotOf_ne_iff found).mp (others (id, page) ⟨rfl, member⟩), ?_⟩
  rintro others ⟨_, page⟩ ⟨rfl, member⟩
  exact (slotOf_ne_iff found).mpr (others page member)

theorem Dropped.unmapped (sound : machine.Sound False)
    (found : machine.store.spaces[id]? = some space)
    (dropped : machine.Dropped id pages outcome after) (same : machine.SameRegions after)
    (proper : ∀ page ∈ pages, Aligned page ∧ IsUser page) (ascending : pages.Pairwise (· < ·)) :
    machine.Unmapped id space pages outcome after where
  left := dropped.pruned found same proper
  vacated _ member _ inside := dropped.vacated sound found member inside
  others := by
    simp only [← frameOf_eq found]
    exact dropped.apart
  slots := dropped.slots sound found
  ascending := ascending
  saves := dropped.saves

end Dropped

/-! ## Unmapping a range -/

theorem proper_pages (covered : PageSpan.covering start length = .ok span)
    (user : IsUserRange start length) (member : page ∈ span.pages) :
    Aligned page ∧ IsUser page := by
  rw [PageSpan.mem_pages_iff] at member
  have aligned := PageSpan.aligned_of_contains covered member
  obtain ⟨-, -, below⟩ := (PageSpan.contains_covering_iff covered aligned).mp member
  obtain ⟨-, inside⟩ := user
  exact ⟨aligned, Nat.lt_of_lt_of_le below inside⟩

theorem blocked_iff (covered : PageSpan.covering start length = .ok span) :
    Blocked machine space start length ↔ ¬ ∀ page ∈ space.catalog.within span,
      ¬ (space.catalog.frame? page).any machine.pool.isPinned = true := by
  rw [Blocked, pagesIn_eq covered, within_eq]
  push Not
  refine exists_congr fun page => ?_
  rw [List.mem_filter, Catalog.frame?]
  cases space.catalog.find? page <;> simp

theorem unmapRange_exact (sound : machine.Sound False)
    (found : machine.store.spaces[id]? = some space) :
    (unmapRange id start length).Ensures ⟨machine, log⟩
      (fun _ (after : Traced Machine) => (Aligned start ∧ IsUserRange start length) ∧
        ¬ Blocked machine space start length ∧
        machine.Unmapped id space (pagesIn start length) (.ok ()) after.state)
      (fun cause (after : Traced Machine) =>
        cause = .badAddress ∧ ¬ (Aligned start ∧ IsUserRange start length) ∧ after = ⟨machine, log⟩ ∨
          (Aligned start ∧ IsUserRange start length) ∧
            (cause = .busy ∧ Blocked machine space start length ∧ after = ⟨machine, log⟩ ∨
              ¬ Blocked machine space start length ∧ (∃ failure, cause = .device failure) ∧
                machine.Unmapped id space (pagesIn start length) (.error cause) after.state))
      (fun cause (after : Traced Machine) => (Aligned start ∧ IsUserRange start length) ∧
        ¬ Blocked machine space start length ∧ Storage.Broken
          ((pagesIn start length).filterMap fun page => machine.view.unsaved? (id, page))
          machine.store.storage after.state.store.storage cause) := by
  have live := live_of_space found
  refine ensures_unmapRange found (fun refused => .inl ⟨rfl, refused, rfl⟩) fun span asked covered => ?_
  split
  · rename_i free
    have unblocked : ¬ Blocked machine space start length := fun blocked =>
      (blocked_iff covered).mp blocked free
    have once : (space.catalog.within span).Nodup := by
      rw [within_eq]
      exact (PageSpan.nodup_pages span).filter _
    have unmapped {outcome : Except PagingError Unit} {after : Machine}
        (dropped : machine.Dropped id (space.catalog.within span) outcome after)
        (same : machine.SameRegions after) :
        machine.Unmapped id space (pagesIn start length) outcome after := by
      rw [pagesIn_eq covered]
      exact (dropped.of_within sound found).unmapped sound found same
        (fun _ member => proper_pages covered asked.2 member) span.ascending_pages
    refine Ensures.mono ((removeAll_drops sound live once).and
      (removeAll_keeps chained_sameRegions (fun _ => removePage_regions) _ ⟨machine, log⟩)) ?_ ?_ ?_
    · rintro _ after ⟨dropped, same⟩
      exact ⟨asked, unblocked, unmapped dropped same⟩
    · rintro cause after ⟨⟨dropped, refused⟩, same⟩
      exact .inr ⟨asked, .inr ⟨unblocked, refused, unmapped dropped same⟩⟩
    · rintro cause after ⟨broken, -⟩
      rw [unsaved_within found, ← pagesIn_eq covered] at broken
      exact ⟨asked, unblocked, broken⟩
  · rename_i pinned
    exact .inr ⟨asked, .inl ⟨rfl, (blocked_iff covered).mpr pinned, rfl⟩⟩

/-! ## Unmapping a mapping -/

def Forgets (id number : Nat) (before after : Traced Machine) : Prop :=
  ∃ space, before.state.store.spaces[id]? = some space ∧
    after = ⟨before.state.withSpace id (space.removeRegion number), before.log⟩

theorem ensures_forget {middle : Traced Machine} {last : Space}
    (there : middle.state.store.spaces[id]? = some last) (number : Nat)
    (outcome : Except PagingError Unit) :
    (forget id number outcome).Ensures middle
      (fun _ after => outcome = .ok () ∧ Forgets id number middle after)
      (fun cause after => outcome = .error cause ∧ Forgets id number middle after)
      fun _ _ => False := by
  have forgotten : Forgets id number middle _ := ⟨last, there, rfl⟩
  rw [forget, ensures_bind, ensures_onSpace there, ensures_update, ensures_orFail]
  cases outcome with
  | ok => exact ⟨rfl, forgotten⟩
  | error => exact ⟨rfl, forgotten⟩

theorem unmapFile_exact {now : Traced Machine} (sound : now.state.Sound False)
    (found : now.state.store.spaces[id]? = some space) {region : Region}
    (entered : space.regions[number]? = some region) :
    (unmapFile id number).Ensures now
      (fun _ after => ∃ middle, unmapRange id region.start region.length now = .ok () middle ∧
        Forgets id number middle after)
      (fun cause after => ∃ middle,
        unmapRange id region.start region.length now = .error (.failed cause) middle ∧
          (cause = .busy ∧ middle = now ∧ after = now ∨ cause ≠ .busy ∧ Forgets id number middle after))
      (fun cause after =>
        unmapRange id region.start region.length now = .error (.panicked cause) after) := by
  have spec : (unmapRange id region.start region.length).Ensures now _ _ _ :=
    unmapRange_exact sound found
  refine ensures_unmapFile found (fun none => ?_) fun _ recorded => ?_
  · rw [entered] at none
    cases none
  rw [entered] at recorded
  cases recorded
  refine spec.known.mono ?_ ?_ fun _ _ panicked => panicked.2
  · rintro _ middle ⟨⟨-, -, unmapped⟩, ran⟩
    obtain ⟨last, there, -⟩ := unmapped.left
    refine (ensures_forget there number (.ok ())).mono ?_ (fun _ _ failed => ?_)
      fun _ _ never => never.elim
    · exact fun _ after forgotten => ⟨middle, ran, forgotten.2⟩
    · cases failed.1
  · rintro cause middle ⟨ends, ran⟩
    split
    · rename_i busy
      subst busy
      obtain ⟨⟨⟩, -⟩ | ⟨-, ⟨-, -, rfl⟩ | ⟨-, ⟨failure, ⟨⟩⟩, -⟩⟩ := ends
      exact ⟨_, ran, .inl ⟨rfl, rfl, rfl⟩⟩
    · rename_i other
      have there : ∃ last, middle.state.store.spaces[id]? = some last := by
        obtain ⟨-, -, rfl⟩ | ⟨-, ⟨busy, -⟩ | ⟨-, -, unmapped⟩⟩ := ends
        · exact ⟨space, found⟩
        · exact absurd busy other
        · obtain ⟨last, there, -⟩ := unmapped.left
          exact ⟨last, there⟩
      obtain ⟨last, there⟩ := there
      refine (ensures_forget there number (.error cause)).mono (fun _ _ returned => ?_) ?_
        fun _ _ never => never.elim
      · cases returned.1
      · rintro _ after ⟨⟨⟩, forgotten⟩
        exact ⟨middle, ran, .inr ⟨other, forgotten⟩⟩

theorem exists_holds_of_unsaved? {view : View} {key : Nat × Nat} {window : FileWindow}
    {contents : Page} (asked : view.unsaved? key = some (window, contents)) :
    ∃ frame, view.Holds key frame (some window) := by
  unfold View.unsaved? at asked
  split at asked
  · rename_i frame lies dirty recorded
    split at asked
    · cases asked
      exact ⟨frame, dirty, recorded⟩
    · cases asked
  · cases asked

theorem worn_of_broken {pages : List Nat} {storage : Storage} {cause : Panic}
    (sound : machine.Sound True)
    (broken : Storage.Broken (pages.filterMap fun page => machine.view.unsaved? (id, page))
      machine.store.storage storage cause) : cause = .countOverflow ∧ storage.Worn := by
  refine broken.worn (sound.shaped.formed trivial) ?_
  rintro ⟨window, contents⟩ member
  obtain ⟨page, -, asked⟩ := List.mem_filterMap.mp member
  obtain ⟨frame, holds⟩ := exists_holds_of_unsaved? asked
  exact sound.backed trivial holds.backing

/-! ## All that can come of it -/

structure UnmapsRange (now : Traced Machine) (id : Nat) (space : Space) (start length : Nat) :
    Prop where
  improper : ¬ (Aligned start ∧ IsUserRange start length) →
    unmapRange id start length now = .error (.failed .badAddress) now
  blocked : Aligned start → IsUserRange start length → Blocked now.state space start length →
    unmapRange id start length now = .error (.failed .busy) now
  free : Aligned start → IsUserRange start length → ¬ Blocked now.state space start length →
    (unmapRange id start length).Ensures now
      (fun _ after =>
        now.state.Unmapped id space (pagesIn start length) (.ok ()) after.state)
      (fun cause after =>
        now.state.Unmapped id space (pagesIn start length) (.error cause) after.state)
      (fun cause after => Storage.Broken
        ((pagesIn start length).filterMap fun page => now.state.view.unsaved? (id, page))
        now.state.store.storage after.state.store.storage cause)

structure UnmapsFile (now : Traced Machine) (id : Nat) (space : Space) (number : Nat) : Prop where
  unknown : space.regions[number]? = none →
    unmapFile id number now = .error (.failed .notMapped) now
  known : ∀ region, space.regions[number]? = some region → (unmapFile id number).Ensures now
    (fun _ after => ∃ middle, unmapRange id region.start region.length now = .ok () middle ∧
      Forgets id number middle after)
    (fun cause after => ∃ middle,
      unmapRange id region.start region.length now = .error (.failed cause) middle ∧
        (cause = .busy ∧ middle = now ∧ after = now ∨ cause ≠ .busy ∧ Forgets id number middle after))
    (fun cause after =>
      unmapRange id region.start region.length now = .error (.panicked cause) after)

theorem unmapsRange {now : Traced Machine} (sound : now.state.Sound False)
    (found : now.state.store.spaces[id]? = some space) (start length : Nat) :
    UnmapsRange now id space start length := by
  have spec : (unmapRange id start length).Ensures now _ _ _ := unmapRange_exact sound found
  refine ⟨fun refused => ?_, fun aligned user blocked => ?_, fun aligned user free => ?_⟩
  · refine (spec.mono (fun _ _ returned => refused returned.1) ?_
      fun _ _ panicked => refused panicked.1).refused
    rintro cause after (⟨rfl, -, rfl⟩ | ⟨asked, -⟩)
    · exact ⟨rfl, rfl⟩
    · exact absurd asked refused
  · refine (spec.mono (fun _ _ returned => returned.2.1 blocked) ?_
      fun _ _ panicked => panicked.2.1 blocked).refused
    rintro cause after (⟨-, refused, -⟩ | ⟨-, ⟨rfl, -, rfl⟩ | ⟨free, -⟩⟩)
    · exact absurd ⟨aligned, user⟩ refused
    · exact ⟨rfl, rfl⟩
    · exact absurd blocked free
  · refine spec.mono (fun _ _ returned => returned.2.2) ?_ fun _ _ panicked => panicked.2.2
    rintro cause after (⟨-, refused, -⟩ | ⟨-, ⟨-, blocked, -⟩ | ⟨-, -, unmapped⟩⟩)
    · exact absurd ⟨aligned, user⟩ refused
    · exact absurd blocked free
    · exact unmapped

theorem unmapsFile {now : Traced Machine} (sound : now.state.Sound False)
    (found : now.state.store.spaces[id]? = some space) (number : Nat) :
    UnmapsFile now id space number := by
  refine ⟨fun none => ?_, fun region entered => unmapFile_exact sound found entered⟩
  apply Ensures.refused
  have entered : (unmapFile id number).Ensures ⟨now.state, now.log⟩ (fun _ _ => False)
      (fun cause last => cause = .notMapped ∧ last = now) fun _ _ => False := by
    rw [unmapFile, ensures_bind, ensures_space found, none]
    exact ⟨rfl, rfl⟩
  exact entered

end Machine

/-- Unmapping a range does nothing at all, or gives up the pages of the range and nothing else; those
that were modified are saved in turn, and only a save can panic. Unmapping a mapping is unmapping its
range, and the mapping is forgotten unless a page of it is pinned. -/
theorem unmapping_exact {settings : Settings} {device : Device} {storage : Storage}
    {rule : Machine → Operation → Machine → Prop} {first now : Traced Machine}
    (started : Machine.start settings device storage = .ok first) (run : Run rule first now)
    (addressed : ∀ before operation after, rule before operation after → operation.Addressed before)
    {id : Nat} {space : Space} (found : now.state.store.spaces[id]? = some space) :
    (∀ start length, Machine.UnmapsRange now id space start length) ∧
      (∀ number, Machine.UnmapsFile now id space number) ∧
      (storage.Formed →
        (∀ before operation after, rule before operation after → operation.Mapped) →
        ∀ (start length : Nat) (cause : Panic) (after : Traced Machine),
          Machine.unmapRange id start length now = .error (.panicked cause) after →
          cause = .countOverflow ∧ after.state.store.storage.Worn) := by
  have sound : now.state.Sound False :=
    run.sound (Machine.start_sound started False.elim) addressed False.elim
  refine ⟨Machine.unmapsRange sound found, Machine.unmapsFile sound found,
    fun formed mapped start length cause after panicked => ?_⟩
  have spec : (Machine.unmapRange id start length).Ensures now _ _ _ :=
    Machine.unmapRange_exact sound found
  have strictly : now.state.Sound True :=
    run.sound (Machine.start_sound started fun _ => formed) addressed fun _ => mapped
  exact Machine.worn_of_broken strictly (spec.panicked panicked).2.2

/-- A modified page past the end of its file is saved and given up, with a page of zeros next to it. A
pinned page is not given up. -/
theorem unmapping_exact_of_modified_page : ∃ (device : Device) (storage : Storage)
    (first now after : Traced Machine) (space : Space), storage.Formed ∧
    Machine.start ⟨2⟩ device storage = .ok first ∧
      Run (fun before operation _ => operation.Addressed before ∧ operation.Mapped) first now ∧
      now.state.view.unsaved? (1, 4096) ≠ none ∧
      Machine.unmapRange 1 4096 8192 now = .ok () after ∧
      now.state.Unmapped 1 space (Machine.pagesIn 4096 8192) (.ok ()) after.state ∧
      Machine.unmapRange 1 16384 4096 now = .error (.failed .busy) now ∧
      Machine.unmapRange 1 1 4096 now = .error (.failed .badAddress) now ∧
      Machine.unmapFile 1 7 now = .error (.failed .notMapped) now := by
  let storage : Storage := { files := #[.flat 100 {}] }
  let operations : List Operation :=
    [.createSpace none {}, .mapFile 1 4096 0 4096 100, .addZeros 1 8192, .addZeros 1 16384,
      .resolveFault 1 4096, .markDirty 1 4096 true, .faultIn 1 16384]
  have ends : (Operation.trial 2 1 storage operations).map (fun ends =>
      (ends.2.state.view.live 1, ends.2.state.view.region (1, 7),
        (ends.2.state.view.unsaved? (1, 4096)).isSome,
        (Machine.pagesIn 16384 4096).any fun page => ends.2.state.view.pins (1, page) ≠ 0,
        (Machine.unmapRange 1 4096 8192).returned? ends.2)) =
      some (true, none, true, true, some ()) := by decide +kernel
  simp only [Option.map_eq_some_iff, Prod.exists, Prod.mk.injEq, List.any_eq_true,
    decide_eq_true_eq] at ends
  obtain ⟨first, now, tried, live, none, modified, ⟨page, member, pinned⟩, ran⟩ := ends
  obtain ⟨⟨device, -, started⟩, done⟩ := Operation.trial_ok tried
  obtain ⟨space, found⟩ := Machine.exists_space live
  have run : Run (fun before operation _ => operation.Addressed before ∧ operation.Mapped)
      first now := by
    refine Operation.run_of_performAll done ?_
    intro operation member before after addressed
    simp only [operations, List.mem_cons, List.not_mem_nil, or_false] at member
    rcases member with rfl | rfl | rfl | rfl | rfl | rfl | rfl <;> exact ⟨addressed, trivial⟩
  have formed : storage.Formed := Storage.formed_of_flat (by decide)
  obtain ⟨ranges, files, -⟩ := unmapping_exact started run (fun _ _ _ rules => rules.1) found
  have blocked : Machine.Blocked now.state space 16384 4096 :=
    ⟨page, member, (Machine.isPinned_iff found).mpr pinned⟩
  have unknown : space.regions[7]? = Option.none := by
    simpa [Machine.view, found] using none
  obtain ⟨after, ended⟩ := Action.exists_of_returned? ran
  have free : ¬ Machine.Blocked now.state space 4096 8192 := by
    intro blocked
    have refused := (ranges 4096 8192).blocked (by decide) (by decide) blocked
    rw [ended] at refused
    cases refused
  exact ⟨device, storage, first, now, after, space, formed, started, run,
    Option.isSome_iff_ne_none.mp modified, ended,
    ((ranges 4096 8192).free (by decide) (by decide) free).returned ended,
    (ranges 16384 4096).blocked (by decide) (by decide) blocked,
    (ranges 1 4096).improper (by decide), (files 7).unknown unknown⟩

end DemandPaging
