import DemandPaging.Proofs.Machine.Fault
import DemandPaging.Proofs.PageSpan

namespace DemandPaging.Machine

open DemandPaging.Action

variable {strict : Prop} {machine middle : Machine} {log : Array Event} {id page frame : Nat}

structure Pinning (strict : Prop) (before : Machine) (id : Nat) (pinned : List (Nat × Nat))
    (after : Machine) : Prop where
  through : before.Through strict Step.Paging after
  firm : before.view.Firm after.view
  pins : ∀ key, after.view.pins key =
    before.view.pins key + (pinned.map fun entry : Nat × Nat => (id, entry.1)).count key
  inside : ∀ entry ∈ pinned, after.view.frameOf (id, entry.1) = some entry.2

theorem Pinning.nil (shaped : machine.Shaped strict) : machine.Pinning strict id [] machine :=
  ⟨.refl shaped, .refl _, fun _ => rfl, by simp⟩

theorem Pinning.pinned {pinned : List (Nat × Nat)} {after : Machine}
    (pinning : machine.Pinning strict id pinned after) {entry : Nat × Nat} (member : entry ∈ pinned) :
    after.view.pins (id, entry.1) ≠ 0 := by
  have listed : (id, entry.1) ∈ pinned.map fun entry : Nat × Nat => (id, entry.1) :=
    List.mem_map_of_mem member
  have := List.count_pos_iff.mpr listed
  have := pinning.pins (id, entry.1)
  omega

theorem Pinning.cons {pinned : List (Nat × Nat)} {after : Machine}
    (pinning : machine.Pinning strict id pinned middle)
    (faulted : middle.FaultedIn strict (id, page) frame 1 after) :
    machine.Pinning strict id ((page, frame) :: pinned) after where
  through := pinning.through.trans faulted.through
  firm := pinning.firm.trans faulted.firm
  pins key := by
    rw [faulted.pins, Function.update_apply, List.map_cons, List.count_cons]
    split
    · rename_i same
      subst same
      rw [pinning.pins, if_pos (beq_self_eq_true _), Nat.add_assoc]
    · rename_i other
      rw [pinning.pins, if_neg fun same => other (eq_of_beq same).symm, Nat.add_zero]
  inside entry member := by
    rcases List.mem_cons.mp member with rfl | earlier
    · obtain ⟨window, holds⟩ := faulted.holds
      exact holds.frameOf
    · exact (faulted.firm.stays (pinning.inside entry earlier) (pinning.pinned earlier)).1

theorem giveBackAll_spec (sound : machine.Sound strict) (live : machine.view.live id = true)
    (pinned : List (Nat × Nat))
    (inside : ∀ entry ∈ pinned, machine.view.frameOf (id, entry.1) = some entry.2) :
    (pinned.forM fun (page, frame) => releasePin id page frame none).Ensures ⟨machine, log⟩
      (fun _ (after : Traced Machine) => machine.Through strict Step.Paging after.state ∧
        after.state.view.record = machine.view.record ∧
        after.state.view.contents = machine.view.contents ∧
        ∀ key, after.state.view.pins key =
          machine.view.pins key - (pinned.map fun entry : Nat × Nat => (id, entry.1)).count key)
      (fun _ _ => False) fun _ _ => False := by
  induction pinned generalizing machine log with
  | nil => exact ⟨.refl sound.shaped, rfl, rfl, fun _ => rfl⟩
  | cons entry rest ih =>
      obtain ⟨page, frame⟩ := entry
      obtain ⟨here, there⟩ := List.forall_mem_cons.mp inside
      obtain ⟨window, holds⟩ := View.exists_holds here
      obtain ⟨pins, written, held⟩ := sound.consistent.exists_holder holds
      rw [ensures_forM_cons]
      refine Ensures.mono (giveBack_spec sound.shaped live holds held rfl) ?_
        (fun _ _ never => never) fun _ _ never => never
      rintro _ ⟨(middle : Machine), log⟩ first
      obtain ⟨permitted, seen⟩ := first.path.of_single
      have records : middle.view.record = machine.view.record := by rw [seen]; rfl
      refine Ensures.mono (ih (sound.moves first) (by rw [seen]; exact live) fun entry member => ?_)
        ?_ (fun _ _ never => never) fun _ _ never => never
      · rw [View.frameOf_congr (congrFun records _)]
        exact there entry member
      · rintro _ after ⟨more, record, contents, counts⟩
        refine ⟨(first.through trivial).trans more, record.trans records,
          contents.trans (by rw [seen]; rfl), fun key => ?_⟩
        rw [counts, seen, View.pins_after sound.consistent permitted, Step.tally,
          Function.update_apply, List.map_cons, List.count_cons]
        split
        · rename_i same
          subst same
          rw [if_pos (beq_self_eq_true _)]
          omega
        · rename_i other
          rw [if_neg fun same => other (eq_of_beq same).symm, Nat.add_zero]

theorem Pinning.failed {pinned : List (Nat × Nat)} {after last : Machine} {cause : PagingError}
    (pinning : machine.Pinning strict id pinned middle) (failed : middle.Failed strict cause after)
    (through : after.Through strict Step.Paging last) (record : last.view.record = after.view.record)
    (contents : last.view.contents = after.view.contents)
    (pins : ∀ key, last.view.pins key =
      after.view.pins key - (pinned.map fun entry : Nat × Nat => (id, entry.1)).count key) :
    machine.Failed strict cause last := by
  have restored : last.view.pins = machine.view.pins := by
    funext key
    rw [pins, failed.pins, pinning.pins, Nat.add_sub_cancel]
  exact ⟨⟨(pinning.through.trans failed.through).trans through,
    (pinning.firm.trans failed.firm).settle record contents restored, restored⟩,
    pinning.through.warranted (fun _ => Step.Paging.addsNone) failed.warranted⟩

theorem pinAll_spec (sound : machine.Sound strict) (live : machine.view.live id = true)
    {pages : List Nat} (aligned : ∀ page ∈ pages, Aligned page) {pinned : List (Nat × Nat)}
    (pinning : machine.Pinning strict id pinned middle) :
    (pinAll id pages pinned).Ensures ⟨middle, log⟩
      (fun _ (after : Traced Machine) => ∃ more, more.map Prod.fst = pages.reverse ∧
        machine.Pinning strict id (more ++ pinned) after.state)
      (fun cause (after : Traced Machine) => machine.Failed strict cause after.state)
      (Excused strict) := by
  induction pages generalizing middle log pinned with
  | nil => exact ⟨[], rfl, pinning⟩
  | cons page rest ih =>
      obtain ⟨here, there⟩ := List.forall_mem_cons.mp aligned
      have soundMiddle := sound.through pinning.through
      have alive : middle.view.live id = true := pinning.through.live ▸ live
      rw [pinAll, ensures_bind, ensures_attempt]
      refine Ensures.mono (faultIn_spec soundMiddle alive) ?_ ?_ fun _ _ excused => excused
      · rintro frame ⟨(resident : Machine), log⟩ ⟨-, faulted⟩
        rw [pageOf_eq_self here] at faulted
        refine Ensures.mono (ih there (pinning.cons faulted)) ?_ (fun _ _ failed => failed)
          fun _ _ excused => excused
        rintro _ after ⟨more, same, all⟩
        refine ⟨more ++ [(page, frame)], by simp [same], ?_⟩
        rw [List.append_assoc, List.singleton_append]
        exact all
      · rintro cause ⟨(stuck : Machine), log⟩ failed
        -- The failed fault has left pinned pages where they are, so all their pins can be given back.
        have still : ∀ entry ∈ pinned.reverse, stuck.view.frameOf (id, entry.1) = some entry.2 := by
          intro entry member
          have listed := List.mem_reverse.mp member
          exact (failed.firm.stays (pinning.inside entry listed) (pinning.pinned listed)).1
        rw [ensures_bind]
        refine Ensures.mono (giveBackAll_spec (soundMiddle.through failed.through)
          (failed.through.live ▸ alive) _ still) ?_ (fun _ _ never => never.elim)
          fun _ _ never => never.elim
        rintro _ after ⟨through, record, contents, pins⟩
        refine pinning.failed failed through record contents fun key => ?_
        rw [pins, List.map_reverse, List.count_reverse]

/-- The pages that meet `[start, start + length)`. -/
def pagesIn (start length : Nat) : List Nat :=
  match PageSpan.covering start length with
  | .ok span => span.pages
  | .error _ => []

theorem pagesIn_eq {start length : Nat} {span : PageSpan}
    (covered : PageSpan.covering start length = .ok span) : pagesIn start length = span.pages := by
  rw [pagesIn, covered]

theorem pinRange_spec (sound : machine.Sound strict) (live : machine.view.live id = true)
    {start length : Nat} : (pinRange id start length).Ensures ⟨machine, log⟩
      (fun _ (after : Traced Machine) => machine.Through strict Step.Paging after.state ∧
        machine.view.Firm after.state.view ∧
        ∀ key, after.state.view.pins key = machine.view.pins key +
          if key.1 = id ∧ key.2 ∈ pagesIn start length then 1 else 0)
      (fun cause (after : Traced Machine) => machine.Failed strict cause after.state)
      (Excused strict) := by
  rw [pinRange, ensures_bind, ensures_require]
  split
  · rename_i user
    obtain ⟨span, covered⟩ := PageSpan.exists_covering user
    simp only [ensures_bind, ensures_orPanic, covered]
    refine Ensures.mono (pinAll_spec sound live (fun page member => ?_) (.nil sound.shaped)) ?_
      (fun _ _ failed => failed) fun _ _ excused => excused
    · exact PageSpan.aligned_of_contains covered ((PageSpan.mem_pages_iff span page).mp member)
    · rintro _ after ⟨more, same, pinning⟩
      refine ⟨pinning.through, pinning.firm, fun key => ?_⟩
      have keys : ((more ++ []).map fun entry : Nat × Nat => (id, entry.1)) =
          span.pages.reverse.map (Prod.mk id) := by
        rw [List.append_nil, ← same, List.map_map]
        rfl
      have once : (span.pages.reverse.map (Prod.mk id)).Nodup :=
        (List.nodup_reverse.mpr span.nodup_pages).map (Prod.mk_right_injective id)
      rw [pinning.pins, keys, once.count, pagesIn_eq covered]
      congr 1
      simp [Prod.ext_iff, and_comm, eq_comm]
  · exact .refl sound.shaped (by simp)

theorem unpinFrame_spec (sound : machine.Sound strict) {key : Nat × Nat}
    {window : Option FileWindow} (holds : machine.view.Holds key frame window) :
    (Paged.changePool (·.unpin frame) : Action PagingError Machine Unit).Ensures ⟨machine, log⟩
      (fun _ (after : Traced Machine) => Moves strict machine [.unpin key frame] after.state)
      (fun _ _ => False) fun _ _ => False := by
  obtain ⟨pins, written, held⟩ := sound.consistent.exists_holder holds
  obtain ⟨pool, done, amended⟩ := Pool.unpin_spec held
  rw [ensures_changePool done]
  exact .single (.unpin key frame) ⟨window, holds⟩ (view_of_amended amended)
    (sound.shaped.withPool amended.toTended)

theorem unpinAll_spec (sound : machine.Sound strict) (frames : List Nat)
    (inside : ∀ frame ∈ frames, ∃ key, machine.view.frameOf key = some frame) :
    (frames.forM fun frame => Paged.changePool (·.unpin frame) :
      Action PagingError Machine Unit).Ensures ⟨machine, log⟩
      (fun _ (after : Traced Machine) => machine.Through strict Step.Paging after.state ∧
        after.state.view.record = machine.view.record ∧
        after.state.view.contents = machine.view.contents ∧
        ∀ key frame, machine.view.frameOf key = some frame →
          after.state.view.pins key = machine.view.pins key - frames.count frame)
      (fun _ _ => False) fun _ _ => False := by
  induction frames generalizing machine log with
  | nil => exact ⟨.refl sound.shaped, rfl, rfl, fun _ _ _ => rfl⟩
  | cons frame rest ih =>
      obtain ⟨⟨key, here⟩, there⟩ := List.forall_mem_cons.mp inside
      obtain ⟨window, holds⟩ := View.exists_holds here
      rw [ensures_forM_cons]
      refine Ensures.mono (unpinFrame_spec sound holds) ?_ (fun _ _ never => never)
        fun _ _ never => never
      rintro _ ⟨(middle : Machine), log⟩ first
      obtain ⟨permitted, seen⟩ := first.path.of_single
      have records : middle.view.record = machine.view.record := by rw [seen]; rfl
      have same (key : Nat × Nat) : middle.view.frameOf key = machine.view.frameOf key :=
        View.frameOf_congr (congrFun records key)
      refine Ensures.mono (ih (sound.moves first) fun frame member => ?_) ?_
        (fun _ _ never => never) fun _ _ never => never
      · obtain ⟨key, found⟩ := there frame member
        exact ⟨key, (same _).trans found⟩
      · rintro _ after ⟨more, record, contents, counts⟩
        refine ⟨(first.through trivial).trans more, record.trans records,
          contents.trans (by rw [seen]; rfl), fun key place found => ?_⟩
        rw [counts key place ((same key).trans found), seen,
          View.pins_after sound.consistent permitted, Step.tally, Function.update_apply,
          List.count_cons]
        split
        · rename_i mine
          subst mine
          cases here.symm.trans found
          rw [if_pos (beq_self_eq_true _)]
          omega
        · rename_i other
          have elsewhere : (frame == place) = false := by
            refine beq_eq_false_iff_ne.mpr ?_
            rintro rfl
            exact other (sound.consistent.eq_of_frameOf here found)
          rw [if_neg (by simp [elsewhere]), Nat.add_zero]

theorem nodup_frames {space : Space} (sound : machine.Sound strict)
    (found : machine.store.spaces[id]? = some space) (span : PageSpan) :
    ((space.catalog.within span).filterMap space.catalog.frame?).Nodup := by
  refine List.Nodup.filterMap (fun page other frame here there => ?_) ?_
  · have inside {page : Nat} (member : frame ∈ space.catalog.frame? page) :
        machine.view.frameOf (id, page) = some frame := by
      rw [View.frameOf, record_eq found]
      exact member
    exact (Prod.mk.inj (sound.consistent.eq_of_frameOf (inside there) (inside here))).2
  · exact (Std.ExtTreeMap.nodup_keys).filter _

theorem unpinRange_returns (sound : machine.Sound strict) (live : machine.view.live id = true)
    {start length : Nat} (user : IsUserRange start length) :
    (unpinRange id start length).Ensures ⟨machine, log⟩
      (fun _ (after : Traced Machine) => machine.Through strict Step.Paging after.state ∧
        after.state.view.record = machine.view.record ∧
        after.state.view.contents = machine.view.contents ∧
        ∀ key, after.state.view.pins key = machine.view.pins key -
          if key.1 = id ∧ key.2 ∈ pagesIn start length then 1 else 0)
      (fun _ _ => False) fun _ _ => False := by
  obtain ⟨span, covered⟩ := PageSpan.exists_covering user
  obtain ⟨space, found⟩ := exists_space live
  simp only [unpinRange, ensures_bind, ensures_require, if_pos user, ensures_orPanic, covered,
    ensures_space found]
  have frameOf (page : Nat) : machine.view.frameOf (id, page) = space.catalog.frame? page := by
    rw [View.frameOf, record_eq found]
    rfl
  have once := nodup_frames sound found span
  refine Ensures.mono (unpinAll_spec sound _ fun frame member => ?_) ?_
    (fun _ _ never => never) fun _ _ never => never
  · obtain ⟨page, -, inside⟩ := List.mem_filterMap.mp member
    exact ⟨(id, page), (frameOf page).trans inside⟩
  · rintro _ after ⟨through, record, contents, counts⟩
    refine ⟨through, record, contents, fun key => ?_⟩
    cases resident : machine.view.frameOf key with
    | none =>
        have later := (View.frameOf_congr (congrFun record key)).trans resident
        rw [View.pins_of_away resident, View.pins_of_away later, Nat.zero_sub]
    | some frame =>
        rw [counts key frame resident, once.count, pagesIn_eq covered]
        have listed : frame ∈ (space.catalog.within span).filterMap space.catalog.frame? ↔
            key.1 = id ∧ key.2 ∈ span.pages := by
          simp only [List.mem_filterMap, Catalog.within, List.mem_filter, Catalog.mem_pages_iff,
            PageSpan.mem_pages_iff]
          constructor
          · rintro ⟨page, ⟨-, covers⟩, inside⟩
            cases sound.consistent.eq_of_frameOf resident ((frameOf page).trans inside)
            exact ⟨rfl, covers⟩
          · rintro ⟨rfl, covers⟩
            have inside := (frameOf key.2).symm.trans resident
            obtain ⟨record, recorded, -⟩ := Option.bind_eq_some_iff.mp inside
            exact ⟨key.2, ⟨by rw [recorded]; rfl, covers⟩, inside⟩
        simp only [listed]

theorem unpinRange_spec (sound : machine.Sound strict) (live : machine.view.live id = true)
    {start length : Nat} : (unpinRange id start length).Ensures ⟨machine, log⟩
      (fun _ (after : Traced Machine) => machine.Through strict Step.Paging after.state ∧
        after.state.view.record = machine.view.record ∧
        after.state.view.contents = machine.view.contents ∧
        ∀ key, after.state.view.pins key = machine.view.pins key -
          if key.1 = id ∧ key.2 ∈ pagesIn start length then 1 else 0)
      (fun cause (after : Traced Machine) => machine.Failed strict cause after.state)
      (Excused strict) := by
  by_cases user : IsUserRange start length
  · exact (unpinRange_returns sound live user).mono (fun _ _ returned => returned)
      (fun _ _ never => never.elim) fun _ _ never => never.elim
  · rw [unpinRange, ensures_bind, ensures_require, if_neg user]
    exact .refl sound.shaped (by simp)

theorem user_of_pinRange {start length : Nat} {before after : Traced Machine}
    (pinned : pinRange id start length before = .ok () after) : IsUserRange start length := by
  by_contra bad
  rw [pinRange, require, if_neg bad] at pinned
  cases pinned

end DemandPaging.Machine
