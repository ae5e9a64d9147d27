import DemandPaging.Proofs.Run
import Mathlib.Order.Interval.Finset.Nat

/-!
# The numbers of spaces

A new space takes the first number that is free, counted round from where the last search ended
(`Machine.FirstFree`), and there is one unless all numbers are in use. Main statement:
`space_ids_fresh`, which says so of every machine, and of a machine in use that its spaces are told
apart by their numbers.
-/

namespace DemandPaging

namespace Machine

open DemandPaging.Action

variable {ε : Type} {machine : Machine} {spaces : Std.ExtTreeMap Nat Space} {counter : BitVec 16}
  {id steps turns : Nat}

/-! ## The search -/

def idAfter (counter : BitVec 16) (steps : Nat) : Nat := (counter.toNat + steps) % idLimit

def FreeId (spaces : Std.ExtTreeMap Nat Space) (id : Nat) : Prop := id ≠ 0 ∧ id ∉ spaces

/-- The first free number from the counter on, going round. -/
def FirstFree (spaces : Std.ExtTreeMap Nat Space) (counter : BitVec 16) (id : Nat) : Prop :=
  ∃ steps < idLimit, id = idAfter counter steps ∧ FreeId spaces id ∧
    ∀ earlier < steps, ¬ FreeId spaces (idAfter counter earlier)

theorem idAfter_lt (counter : BitVec 16) (steps : Nat) : idAfter counter steps < idLimit :=
  Nat.mod_lt _ (by decide)

theorem idAfter_zero (counter : BitVec 16) : idAfter counter 0 = counter.toNat :=
  Nat.mod_eq_of_lt counter.isLt

theorem idAfter_succ (counter : BitVec 16) (steps : Nat) :
    idAfter counter (steps + 1) = idAfter (counter + 1) steps := by
  have next : (counter + 1).toNat = (counter.toNat + 1) % 65536 := BitVec.toNat_add counter 1
  simp only [idAfter, idLimit, next]
  omega

theorem exists_idAfter (counter : BitVec 16) (small : id < idLimit) :
    ∃ steps < idLimit, idAfter counter steps = id := by
  have bound := counter.isLt
  simp only [idAfter, idLimit] at small ⊢
  by_cases ahead : counter.toNat ≤ id
  · exact ⟨id - counter.toNat, by omega, by omega⟩
  · exact ⟨65536 + id - counter.toNat, by omega, by omega⟩

theorem freeId_iff : FreeId spaces counter.toNat ↔
    counter ≠ 0 ∧ ¬ spaces.contains counter.toNat = true := by
  simp [FreeId, BitVec.toNat_eq]

theorem exists_freeId (room : spaces.size < idLimit - 1) :
    ∃ id < idLimit, FreeId spaces id := by
  by_contra none
  have all : Finset.Ico 1 idLimit ⊆ spaces.keys.toFinset := by
    intro id member
    obtain ⟨positive, small⟩ := Finset.mem_Ico.mp member
    rw [List.mem_toFinset, Std.ExtTreeMap.mem_keys]
    by_contra absent
    exact none ⟨id, small, by omega, absent⟩
  have count := Finset.card_le_card all
  have most := List.toFinset_card_le spaces.keys
  rw [Nat.card_Ico] at count
  rw [Std.ExtTreeMap.length_keys] at most
  omega

theorem exists_firstFree (room : spaces.size < idLimit - 1) (counter : BitVec 16) :
    ∃ id, FirstFree spaces counter id := by
  classical
  have reached : ∃ steps, steps < idLimit ∧ FreeId spaces (idAfter counter steps) := by
    obtain ⟨id, small, free⟩ := exists_freeId room
    obtain ⟨steps, short, rfl⟩ := exists_idAfter counter small
    exact ⟨steps, short, free⟩
  obtain ⟨short, free⟩ := Nat.find_spec reached
  refine ⟨_, Nat.find reached, short, rfl, free, fun earlier before taken => ?_⟩
  exact Nat.find_min reached before ⟨Nat.lt_trans before short, taken⟩

theorem takeId?_of_free (room : spaces.size < idLimit - 1) (enough : steps < turns)
    (free : FreeId spaces (idAfter counter steps))
    (passed : ∀ earlier < steps, ¬ FreeId spaces (idAfter counter earlier)) :
    takeId? spaces counter turns = some (.ok (BitVec.ofNat 16 (idAfter counter steps))) := by
  induction steps generalizing counter turns with
  | zero =>
      obtain ⟨turns, rfl⟩ := Nat.exists_eq_succ_of_ne_zero (Nat.ne_of_gt enough)
      rw [idAfter_zero] at free ⊢
      rw [takeId?, if_pos (freeId_iff.mp free), BitVec.ofNat_toNat, BitVec.setWidth_eq]
  | succ steps ih =>
      obtain ⟨turns, rfl⟩ := Nat.exists_eq_succ_of_ne_zero (Nat.ne_of_gt (Nat.zero_lt_of_lt enough))
      have here := passed 0 (Nat.succ_pos _)
      rw [idAfter_zero, freeId_iff] at here
      rw [idAfter_succ] at free ⊢
      rw [takeId?, if_neg here, if_pos room]
      refine ih (Nat.lt_of_succ_lt_succ enough) free fun earlier before => ?_
      rw [← idAfter_succ]
      exact passed (earlier + 1) (Nat.succ_lt_succ before)

theorem takeId?_of_firstFree (room : spaces.size < idLimit - 1)
    (first : FirstFree spaces counter id) (enough : idLimit ≤ turns) :
    takeId? spaces counter turns = some (.ok (BitVec.ofNat 16 id)) := by
  obtain ⟨steps, short, rfl, free, passed⟩ := first
  exact takeId?_of_free room (Nat.lt_of_lt_of_le short enough) free passed

theorem takeId?_of_crowded (crowded : ¬ spaces.size < idLimit - 1) (counter : BitVec 16)
    (enough : 0 < turns) : takeId? spaces counter turns =
      some (if counter ≠ 0 ∧ ¬ spaces.contains counter.toNat = true then .ok counter
        else .error .outOfSpaceIds) := by
  obtain ⟨turns, rfl⟩ := Nat.exists_eq_succ_of_ne_zero (Nat.ne_of_gt enough)
  rw [takeId?, if_neg crowded]
  split <;> rfl

/-- A round is enough for the search, which comes to the same however long it may take. -/
theorem exists_takeId? (spaces : Std.ExtTreeMap Nat Space) (counter : BitVec 16) :
    ∃ outcome, ∀ turns, idLimit ≤ turns → takeId? spaces counter turns = some outcome := by
  by_cases room : spaces.size < idLimit - 1
  · obtain ⟨id, first⟩ := exists_firstFree room counter
    exact ⟨_, fun turns enough => takeId?_of_firstFree room first enough⟩
  · exact ⟨_, fun turns enough =>
      takeId?_of_crowded room counter (Nat.lt_of_lt_of_le (by decide) enough)⟩

/-! ## A new space -/

def withNewSpace (machine : Machine) (id : Nat) (directory : Directory) : Machine :=
  { machine with store := { machine.store with
      spaces := machine.store.spaces.insert id { directory }
      nextId := BitVec.ofNat 16 (id + 1) } }

theorem createSpace_takes (directory : Directory) (before : Traced Machine) :
    (createSpace directory : Action ε Machine Nat).Ensures before
      (fun id after => id < idLimit ∧ FreeId before.state.store.spaces id ∧
        takeId? before.state.store.spaces before.state.store.nextId idLimit =
          some (.ok (BitVec.ofNat 16 id)) ∧
        after = ⟨before.state.withNewSpace id directory, before.log.push (.spaceCreated id)⟩)
      (fun _ _ => False)
      fun cause after => cause = .outOfSpaceIds ∧ after = before ∧
        takeId? before.state.store.spaces before.state.store.nextId idLimit =
          some (.error .outOfSpaceIds) := by
  obtain ⟨outcome, ends⟩ :=
    exists_takeId? before.state.store.spaces before.state.store.nextId
  have taken := ends idLimit (Nat.le_refl _)
  simp only [createSpace, look, ensures_bind, ensures_look, taken]
  cases outcome with
  | error cause =>
      obtain rfl := takeId?_error taken
      exact ⟨rfl, rfl, rfl⟩
  | ok number =>
      obtain ⟨positive, unused⟩ := takeId?_spec taken
      have free : FreeId before.state.store.spaces number.toNat :=
        freeId_iff.mpr ⟨positive, by simp [unused]⟩
      have next : number + 1 = BitVec.ofNat 16 (number.toNat + 1) := by
        rw [BitVec.ofNat_add, BitVec.ofNat_toNat, BitVec.setWidth_eq]
        rfl
      simp only [ensures_orPanic, ensures_insist, unused, Bool.false_eq_true,
        not_false_eq_true, if_true, onStore, Paged.onStore, ensures_within, ensures_update,
        ensures_emit, ensures_pure, next]
      refine ⟨number.isLt, free, ?_, rfl⟩
      rw [BitVec.ofNat_toNat, BitVec.setWidth_eq]

/-- What becomes of a request for a new space: it ends, in a space with the first free number as
long as one is free. -/
structure Numbers (directory : Directory) (before : Traced Machine) : Prop where
  ends : ∃ outcome, ∀ turns, idLimit ≤ turns →
    takeId? before.state.store.spaces before.state.store.nextId turns = some outcome
  room : before.state.store.spaces.size < idLimit - 1 →
    ∃ id, FirstFree before.state.store.spaces before.state.store.nextId id ∧
      (createSpace directory : Action PagingError Machine Nat) before =
        .ok id ⟨before.state.withNewSpace id directory, before.log.push (.spaceCreated id)⟩
  full : (∀ id, 0 < id → id < idLimit → id ∈ before.state.store.spaces) →
    ∃ after, (createSpace directory : Action PagingError Machine Nat) before =
      .error (.panicked .outOfSpaceIds) after
  exhaustive : (∀ id ∈ before.state.store.spaces, 0 < id ∧ id < idLimit) →
    before.state.store.spaces.size < idLimit - 1 ∨
      ∀ id, 0 < id → id < idLimit → id ∈ before.state.store.spaces
  unused : ∀ after, (createSpace directory : Action PagingError Machine Nat) before ≠
    .error (.panicked .spaceIdReused) after

theorem full_of_size (numbered : ∀ id ∈ spaces, 0 < id ∧ id < idLimit)
    (crowded : ¬ spaces.size < idLimit - 1) :
    ∀ id, 0 < id → id < idLimit → id ∈ spaces := by
  have among : spaces.keys.toFinset ⊆ Finset.Ico 1 idLimit := by
    intro id member
    rw [List.mem_toFinset, Std.ExtTreeMap.mem_keys] at member
    exact Finset.mem_Ico.mpr (numbered id member)
  have count : spaces.keys.toFinset.card = spaces.size := by
    rw [List.toFinset_card_of_nodup Std.ExtTreeMap.nodup_keys, Std.ExtTreeMap.length_keys]
  have same : spaces.keys.toFinset = Finset.Ico 1 idLimit := by
    apply Finset.eq_of_subset_of_card_le among
    rw [count, Nat.card_Ico]
    exact Nat.le_of_not_lt crowded
  intro id positive small
  have member : id ∈ spaces.keys.toFinset := same ▸ Finset.mem_Ico.mpr ⟨positive, small⟩
  rwa [List.mem_toFinset, Std.ExtTreeMap.mem_keys] at member

theorem FirstFree.lt (first : FirstFree spaces counter id) : id < idLimit := by
  obtain ⟨steps, -, rfl, -⟩ := first
  exact idAfter_lt counter steps

theorem ofNat_injective {one other : Nat} (small : one < idLimit) (small' : other < idLimit)
    (same : BitVec.ofNat 16 one = BitVec.ofNat 16 other) : one = other := by
  have values := congrArg BitVec.toNat same
  rw [BitVec.toNat_ofNat, BitVec.toNat_ofNat] at values
  exact (Nat.mod_eq_of_lt small).symm.trans (values.trans (Nat.mod_eq_of_lt small'))

theorem createSpace_numbers (directory : Directory) (before : Traced Machine) :
    Numbers directory before where
  ends := exists_takeId? _ _
  room room := by
    obtain ⟨id, first⟩ := exists_firstFree room before.state.store.nextId
    have taken := takeId?_of_firstFree room first (Nat.le_refl _)
    refine ⟨id, first, Ensures.ran ?_⟩
    refine (createSpace_takes directory before).mono ?_ (fun _ _ never => never) ?_
    · rintro given after ⟨small, -, taken', same⟩
      rw [taken, Option.some.injEq, Except.ok.injEq] at taken'
      obtain rfl : id = given := ofNat_injective first.lt small taken'
      exact ⟨rfl, same⟩
    · rintro cause after ⟨-, -, refused⟩
      rw [taken] at refused
      cases refused
  full full := by
    refine ⟨before, Ensures.stopped ?_⟩
    refine (createSpace_takes directory before).mono ?_ (fun _ _ never => never) ?_
    · rintro id after ⟨small, ⟨positive, absent⟩, -⟩
      exact absent (full id (Nat.pos_of_ne_zero positive) small)
    · exact fun _ _ known => ⟨known.1, known.2.1⟩
  exhaustive numbered :=
    (Nat.lt_or_ge _ _).imp_right fun crowded => full_of_size numbered (Nat.not_lt.mpr crowded)
  unused after ended := by
    have refused := ((createSpace_takes directory before).panicked ended).1
    cases refused

end Machine

/-! ## Creations and destructions -/

namespace Operation

def Inner : Operation → Prop
  | createSpace _ _ | destroySpace _ => False
  | _ => True

theorem Takes.inner {operation : Operation} {machine : Machine}
    {outcome : Except PagingError Unit} {step : Step} (inner : operation.Inner)
    (takes : operation.Takes machine outcome step) : step.Inner := by
  cases operation with
  | createSpace | destroySpace => exact inner.elim
  | addZeros | addWindow | mapFile => exact Step.Maps.inner takes
  | unmapFile | unmapRange => exact Step.Unmaps.inner takes
  | writeUser | userStore => exact Step.Copies.inner takes
  | markDirty =>
      cases takes
      trivial
  | _ => exact Step.Paging.inner takes

theorem live_of_ends {operation : Operation} {before after : Traced Machine}
    {outcome : Except PagingError Unit} (sound : before.state.Sound False)
    (addressed : operation.Addressed before.state) (inner : operation.Inner)
    (ends : operation.Ends before outcome after) :
    after.state.view.live = before.state.view.live := by
  obtain ⟨stop, -, steps, moves, takes, -⟩ := concludes_of_ends sound addressed False.elim ends
  have through : before.state.Through False (operation.Takes before.state outcome) after.state :=
    ⟨steps, moves, takes⟩
  exact through.live_eq fun _ => Takes.inner inner

end Operation

open Machine

/-- A run, with the numbers of the spaces that were created in it and not destroyed. -/
inductive Census (first : Traced Machine) : List Nat → Traced Machine → Prop where
  | start : Census first [] first
  | created {ids : List Nat} {before after : Traced Machine} {directory : Directory} {id : Nat}
      (earlier : Census first ids before) (fresh : directory.tables = ∅)
      (ran : (createSpace directory : Action PagingError Machine Nat) before = .ok id after) :
      Census first (id :: ids) after
  | destroyed {ids : List Nat} {before after : Traced Machine} {id : Nat}
      (earlier : Census first ids before) (held : id ∈ ids)
      (ran : (destroySpace id : Action PagingError Machine Unit) before = .ok () after) :
      Census first (ids.erase id) after
  | between {ids : List Nat} {before after : Traced Machine} {operation : Operation}
      {outcome : Except PagingError Unit} (earlier : Census first ids before)
      (inner : operation.Inner) (addressed : operation.Addressed before.state)
      (ends : operation.Ends before outcome after) : Census first ids after

structure Distinct (ids : List Nat) (now : Traced Machine) : Prop where
  nodup : ids.Nodup
  numbered : ∀ id ∈ ids, 0 < id ∧ id < idLimit
  live : ∀ id, id ∈ now.state.store.spaces ↔ id ∈ ids
  count : now.state.store.spaces.size = ids.length

section Census

variable {first before now after : Traced Machine} {ids : List Nat} {id : Nat}

theorem Machine.mem_spaces_iff {machine : Machine} :
    id ∈ machine.store.spaces ↔ machine.view.live id = true :=
  Std.ExtTreeMap.contains_iff_mem.symm

theorem Distinct.of_live (nodup : ids.Nodup) (numbered : ∀ id ∈ ids, 0 < id ∧ id < idLimit)
    (live : ∀ id, now.state.view.live id = true ↔ id ∈ ids) : Distinct ids now where
  nodup := nodup
  numbered := numbered
  live _ := mem_spaces_iff.trans (live _)
  count := by
    have same : now.state.store.spaces.keys.Perm ids := by
      apply (List.perm_ext_iff_of_nodup Std.ExtTreeMap.nodup_keys nodup).mpr
      intro id
      rw [Std.ExtTreeMap.mem_keys, mem_spaces_iff, live id]
    rw [← Std.ExtTreeMap.length_keys, same.length_eq]

theorem Distinct.created {directory : Directory} (distinct : Distinct ids before)
    (ran : (createSpace directory : Action PagingError Machine Nat) before = .ok id after) :
    Distinct (id :: ids) after := by
  obtain ⟨small, ⟨positive, absent⟩, -, rfl⟩ := (createSpace_takes directory before).returned ran
  have fresh : id ∉ ids := fun held => absent ((distinct.live id).mpr held)
  apply Distinct.of_live (List.nodup_cons.mpr ⟨fresh, distinct.nodup⟩)
  · intro other held
    rcases List.mem_cons.mp held with rfl | held
    · exact ⟨Nat.pos_of_ne_zero positive, small⟩
    · exact distinct.numbered other held
  · intro other
    rw [← mem_spaces_iff, withNewSpace, Std.ExtTreeMap.mem_insert, distinct.live, List.mem_cons,
      Nat.compare_eq_eq, eq_comm]

theorem Distinct.destroyed (distinct : Distinct ids before) (sound : before.state.Sound False)
    (held : id ∈ ids)
    (ran : (destroySpace id : Action PagingError Machine Unit) before = .ok () after) :
    after.state.Sound False ∧ Distinct (ids.erase id) after := by
  have live := mem_spaces_iff.mp ((distinct.live id).mpr held)
  obtain ⟨middle, through, moves⟩ := (destroySpace_spec sound live).returned ran
  obtain ⟨-, last⟩ := moves.path.of_single
  refine ⟨(sound.through through).moves moves, ?_⟩
  apply Distinct.of_live (distinct.nodup.erase id)
  · exact fun other member => distinct.numbered other (List.mem_of_mem_erase member)
  · intro other
    rw [last, distinct.nodup.mem_erase_iff, ← distinct.live, mem_spaces_iff,
      ← through.live_eq fun _ => Step.Unmaps.inner]
    simp only [View.after, Function.update_apply]
    split <;> simp_all

theorem Census.distinct (census : Census first ids now) (sound : first.state.Sound False)
    (empty : ∀ id, first.state.view.live id = false) :
    now.state.Sound False ∧ Distinct ids now := by
  induction census with
  | start => exact ⟨sound, .of_live .nil (by simp) (by simp [empty])⟩
  | @created ids before after directory id earlier fresh ran ih =>
      obtain ⟨sound, distinct⟩ := ih
      exact ⟨sound.moves ((createSpace_spec sound.shaped fresh).returned ran), distinct.created ran⟩
  | destroyed earlier held ran ih => exact ih.2.destroyed ih.1 held ran
  | between earlier inner addressed ends ih =>
      obtain ⟨sound, nodup, numbered, live, -⟩ := ih
      refine ⟨Operation.sound_of_ends sound addressed False.elim ends, .of_live nodup numbered ?_⟩
      intro id
      rw [Operation.live_of_ends sound addressed inner ends, ← mem_spaces_iff, live]

end Census

/-- A new space has the first number that is free, or there is none. Of the spaces that were created
since a machine was started and have not been destroyed, no two have the same number. -/
theorem space_ids_fresh (directory : Directory) (now : Traced Machine) :
    Numbers directory now ∧ ∀ (settings : Settings) (device : Device) (storage : Storage)
      (first : Traced Machine) (ids : List Nat), start settings device storage = .ok first →
        Census first ids now → Distinct ids now := by
  refine ⟨createSpace_numbers directory now, ?_⟩
  intro settings device storage first ids started census
  obtain ⟨-, same⟩ := start_ok started
  have empty (id : Nat) : first.state.view.live id = false := by
    simp [same, view]
  exact (census.distinct (start_sound started False.elim) empty).2

/-- Of two spaces the first is destroyed. -/
theorem space_ids_fresh_of_two_spaces : ∃ (device : Device) (first now after : Traced Machine)
    (id : Nat), start ⟨1⟩ device {} = .ok first ∧ Census first [2] now ∧ Distinct [2] now ∧
      FirstFree now.state.store.spaces now.state.store.nextId id ∧
      (createSpace {} : Action PagingError Machine Nat) now = .ok id after := by
  let script : Action PagingError Machine (Nat × Nat) := do
    let one ← createSpace {}
    let other ← createSpace {}
    destroySpace one
    return (one, other)
  have done : (Operation.trial 1 1 {} []).bind (fun ends => script.returned? ends.1) =
      some (1, 2) := by decide +kernel
  obtain ⟨⟨first, last⟩, tried, done⟩ := Option.bind_eq_some_iff.mp done
  obtain ⟨device, started, -⟩ := Operation.trial_runs tried
  obtain ⟨now, ran⟩ := Action.exists_of_returned? done
  obtain ⟨one, made, created, ran⟩ := Action.exists_of_bind ran
  obtain ⟨other, more, created', ran⟩ := Action.exists_of_bind ran
  obtain ⟨_, left, destroyed, ran⟩ := Action.exists_of_bind ran
  cases ran
  have census : Census first [2] now :=
    .destroyed (.created (.created .start rfl created) rfl created') (by simp) destroyed
  obtain ⟨numbers, distinct⟩ := space_ids_fresh {} now
  have distinct := distinct _ _ _ _ _ started census
  obtain ⟨id, free, taken⟩ := numbers.room (by rw [distinct.count]; decide)
  exact ⟨device, first, now, _, id, started, census, distinct, free, taken⟩

end DemandPaging
