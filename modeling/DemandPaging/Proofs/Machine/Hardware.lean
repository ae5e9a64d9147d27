import DemandPaging.Machine.Hardware
import DemandPaging.Proofs.Machine.Copy

namespace DemandPaging.Machine

open DemandPaging.Action

variable {ε : Type} {strict : Prop} {machine middle : Machine} {log : Array Event}
  {id page frame : Nat}

theorem check_of_improper (improper : ¬ (Aligned page ∧ IsUser page)) :
    ∃ cause, Directory.check page = .error cause := by
  cases checked : Directory.check page with
  | ok => exact absurd ((Directory.check_ok_iff page).mp checked) improper
  | error cause => exact ⟨cause, rfl⟩

theorem setFlag_spec (shaped : machine.Shaped strict) (live : machine.view.live id = true)
    {flag : Flag} (kept : flag ≠ .present) (on : Bool) :
    (setFlag id page flag on : Action ε Machine Unit).Ensures ⟨machine, log⟩
      (fun _ (after : Traced Machine) => after.state.Shaped strict ∧ after.state.view =
        machine.view.lead (id, page)
          ((machine.view.translation (id, page)).map (Directory.flagged flag on)))
      (fun _ _ => False) (Excused (Aligned page ∧ IsUser page)) := by
  obtain ⟨space, found⟩ := exists_space live
  rw [setFlag, ensures_onSpace found, ensures_change]
  by_cases proper : Aligned page ∧ IsUser page
  · obtain ⟨directory, done, changed, tight⟩ :=
      space.directory.put_spec proper.1 proper.2 kept on
    simp only [done, bind, Except.bind, pure, Except.pure]
    refine ⟨shaped.withSpace (tight (shaped.tight found)), ?_⟩
    rw [view_withDirectory found changed, ← translation_eq found]
  · obtain ⟨cause, refused⟩ := check_of_improper proper
    simp only [Directory.put, refused, bind, Except.bind]
    exact fun fine => absurd fine proper

theorem markAccessed_spec (shaped : machine.Shaped strict) (live : machine.view.live id = true)
    (on : Bool) : (setFlag id page .accessed on : Action ε Machine Unit).Ensures ⟨machine, log⟩
      (fun _ (after : Traced Machine) => machine.Same strict after.state) (fun _ _ => False)
      (Excused (Aligned page ∧ IsUser page)) := by
  refine Ensures.mono (setFlag_spec shaped live (by decide) on) ?_ (fun _ _ never => never)
    fun _ _ excused => excused
  rintro _ ⟨(after : Machine), log⟩ ⟨shapedAfter, seen⟩
  refine ⟨?_, shapedAfter⟩
  have same : Directory.flagged .accessed on = fun translation => translation := rfl
  rw [seen, same, Option.map_id', View.lead, Function.update_eq_self]

theorem markDirty_spec (shaped : machine.Shaped strict) (live : machine.view.live id = true)
    (on : Bool) : (setFlag id page .dirty on : Action ε Machine Unit).Ensures ⟨machine, log⟩
      (fun _ (after : Traced Machine) => Moves strict machine [.stain (id, page) on] after.state)
      (fun _ _ => False) (Excused (Aligned page ∧ IsUser page)) := by
  refine Ensures.mono (setFlag_spec shaped live (by decide) on) ?_ (fun _ _ never => never)
    fun _ _ excused => excused
  rintro _ ⟨(after : Machine), log⟩ ⟨shapedAfter, seen⟩
  exact .single (.stain (id, page) on) trivial seen shapedAfter

/-! ## Loads and stores -/

theorem ensures_mappedFrame? (live : machine.view.live id = true) (aligned : Aligned page)
    {returns : Option Nat → Traced Machine → Prop} {fails : ε → Traced Machine → Prop}
    (known : IsUser page → returns (machine.view.target (id, page)) ⟨machine, log⟩) :
    (mappedFrame? id page : Action ε Machine (Option Nat)).Ensures ⟨machine, log⟩ returns fails
      (Excused (strict ∧ IsUser page)) := by
  obtain ⟨space, found⟩ := exists_space live
  simp only [mappedFrame?, ensures_bind, ensures_space found, ensures_orPanic]
  by_cases user : IsUser page
  · rw [Directory.frame?_eq aligned user]
    have here := known user
    rwa [View.target, translation_eq found] at here
  · obtain ⟨cause, refused⟩ := check_of_improper (fun fine => user fine.2)
    simp only [Directory.frame?, refused, bind, Except.bind]
    rintro ⟨-, fine⟩
    exact absurd fine user

theorem reach_spec (sound : machine.Sound strict) (live : machine.view.live id = true)
    (aligned : Aligned page) : (reach id page).Ensures ⟨machine, log⟩
      (fun frame (after : Traced Machine) => IsUser page ∧
        machine.Settled strict after.state ∧ ∃ window, after.state.view.Holds (id, page) frame window)
      (fun cause (after : Traced Machine) => machine.Failed strict cause after.state)
      (Excused (strict ∧ IsUser page)) := by
  have ends {present : Machine} {log : Array Event} (user : IsUser page)
      (settled : machine.Settled strict present)
      (resident : present.view.target (id, page) ≠ none)
      {rest : Option Nat → Action PagingError Machine Nat}
      (returns : ∀ frame, rest (some frame) = pure frame) :
      (mappedFrame? id page >>= rest).Ensures ⟨present, log⟩
        (fun frame (after : Traced Machine) => IsUser page ∧ machine.Settled strict after.state ∧
          ∃ window, after.state.view.Holds (id, page) frame window)
        (fun cause (after : Traced Machine) => machine.Failed strict cause after.state)
        (Excused (strict ∧ IsUser page)) := by
    have alive : present.view.live id = true := by
      rw [settled.through.live]
      exact live
    rw [ensures_bind]
    apply ensures_mappedFrame? alive aligned
    intro _
    obtain ⟨frame, mapped⟩ := Option.ne_none_iff_exists'.mp resident
    rw [mapped, returns]
    rw [(sound.through settled.through).consistent.translated] at mapped
    exact ⟨user, settled, View.exists_holds mapped⟩
  rw [reach, ensures_bind]
  apply ensures_mappedFrame? live aligned
  intro user
  split
  · rename_i unmapped
    rw [ensures_bind]
    refine Ensures.mono (resolveFault_spec sound live) ?_ (fun _ _ failed => failed)
      fun _ _ excused => excused.mono And.left
    rintro _ ⟨(resolved : Machine), log⟩ ⟨-, frame, faulted⟩
    obtain ⟨window, holds⟩ := faulted.holds
    rw [pageOf_eq_self aligned] at holds
    refine ends user faulted.settled ?_ fun _ => rfl
    rw [(sound.through faulted.through).consistent.translated, holds.frameOf]
    exact Option.some_ne_none frame
  · rename_i mapped
    exact ends user (.still rfl sound.shaped) (fun absent => mapped (by rw [absent]; rfl)) fun _ => rfl

theorem user_pageOf {address : Nat} (user : IsUser address) : IsUser (pageOf address) :=
  Nat.lt_of_le_of_lt (Nat.sub_le ..) user

theorem user_of_pageOf {address : Nat} (user : IsUser (pageOf address)) : IsUser address := by
  simp only [IsUser, pageOf, pageSize, kernelBase] at *
  omega

theorem ensures_access {α : Type} (sound : machine.Sound strict) (live : machine.view.live id = true)
    {address : Nat} {rest : Nat → Action PagingError Machine α}
    {returns : α → Traced Machine → Prop}
    (goesOn : ∀ frame window (marked : Traced Machine), IsUser (pageOf address) →
      machine.Settled strict marked.state → marked.state.Sound strict →
      marked.state.view.Holds (id, pageOf address) frame window →
        (rest frame).Ensures marked returns
          (fun cause (after : Traced Machine) => machine.Failed strict cause after.state)
          (Excused (strict ∧ IsUser address))) :
    (do
      let frame ← reach id (pageOf address)
      setFlag id (pageOf address) .accessed true
      rest frame).Ensures ⟨machine, log⟩ returns
      (fun cause (after : Traced Machine) => machine.Failed strict cause after.state)
      (Excused (strict ∧ IsUser address)) := by
  have aligned := aligned_pageOf address
  rw [ensures_bind]
  refine Ensures.mono (reach_spec sound live aligned) ?_ (fun _ _ failed => failed)
    fun _ _ excused => excused.mono (And.imp_right user_pageOf)
  rintro frame ⟨(reached : Machine), log⟩ ⟨user, settled, window, holds⟩
  have through := settled.through
  rw [ensures_bind]
  refine Ensures.mono (markAccessed_spec through.shaped (by rw [through.live]; exact live) true) ?_
    (fun _ _ never => never.elim) fun _ _ excused => excused.mono fun _ => ⟨aligned, user⟩
  rintro _ marked same
  have settled' := settled.trans (.still same.view same.shaped)
  exact goesOn frame window marked user settled' (sound.through settled'.through)
    (same.view ▸ holds)

theorem userLoad_spec (sound : machine.Sound strict) (live : machine.view.live id = true)
    {address length : Nat} : (userLoad id address length).Ensures ⟨machine, log⟩
      (fun read (after : Traced Machine) => machine.Settled strict after.state ∧
        machine.Reads strict id address read)
      (fun cause (after : Traced Machine) => machine.Failed strict cause after.state)
      (Excused (strict ∧ IsUser address)) := by
  rw [userLoad]
  refine ensures_access sound live ?_
  rintro frame window ⟨(marked : Machine), log⟩ - settled soundMarked holds
  obtain ⟨pins, written, held⟩ := soundMarked.consistent.exists_holder holds
  rw [ensures_bind, ensures_contents (Pool.lt_size_of_holder held), ensures_pure]
  exact ⟨settled, .slice settled.through holds⟩

theorem storeFrame_spec (sound : machine.Sound strict) {window : Option FileWindow}
    (holds : machine.view.Holds (id, page) frame window) (offset : Nat) (data : Bytes) :
    (do
      setFlag id page .dirty true
      Paged.changePool (·.rewrite frame fun page => .ok (page.overlay offset data)) :
        Action PagingError Machine Unit).Ensures ⟨machine, log⟩
      (fun _ (after : Traced Machine) =>
        Moves strict machine [.userWrite (id, page) frame offset data] after.state)
      (fun _ _ => False) (Excused (Aligned page ∧ IsUser page)) := by
  obtain ⟨dirty, recorded⟩ := holds.recorded
  rw [ensures_bind]
  refine Ensures.mono (markDirty_spec sound.shaped (sound.live recorded).1 true) ?_
    (fun _ _ never => never.elim) fun _ _ excused => excused
  rintro _ ⟨(dirtied : Machine), log⟩ stained
  obtain ⟨-, seen⟩ := stained.path.of_single
  have inside : frame < dirtied.pool.size := by
    obtain ⟨pins, written, held⟩ := sound.consistent.exists_holder holds
    exact Nat.lt_of_lt_of_eq (Pool.lt_size_of_holder held) stained.path.frames.symm
  have laid := Pool.rewrite_eq (f := fun page => .ok (page.overlay offset data)) inside
    (·.overlay offset data) rfl
  rw [ensures_changePool laid]
  refine .single (.userWrite (id, page) frame offset data) ⟨window, holds⟩ ?_
    (stained.shaped.edit _)
  rw [view_of_edit inside, seen]
  rfl

theorem Sound.userWrite {after : Machine} (sound : machine.Sound strict) {address : Nat}
    {data : Bytes} (moves : Moves strict machine
      [.userWrite (id, pageOf address) frame (pageOffset address) data] after) :
    machine.Stored strict id address
      (min (address + data.length) (pageOf address + pageSize))
      (fun place => data[place - address]?) after := by
  let write : Step := .userWrite (id, pageOf address) frame (pageOffset address) data
  obtain ⟨permitted, seen⟩ := moves.path.of_single
  have patched (memory : Memory) {key : Nat × Nat} {i : Nat} (aligned : Aligned key.2)
      (small : i < pageSize) :
      memory.patch (id, pageOf address) (pageOffset address) data key i =
        memory.store id address (min (address + data.length) (pageOf address + pageSize))
          (fun place => data[place - address]?) key i :=
    memory.patch_eq_store rfl (fun j _ => by simp) aligned small
  refine ⟨⟨[write], moves, List.forall_mem_singleton.mpr rfl,
    fun memory key i aligned small => patched memory aligned small⟩, ?_, fun found pinned => ?_⟩
  · rw [seen]
    exact View.pins_after sound.consistent permitted
  · obtain ⟨stays, written⟩ := sound.consistent.stays_after permitted (by simp) found pinned
    rw [seen]
    refine ⟨stays, fun i small => ?_⟩
    rw [← patched _ (sound.placed found) small]
    exact written i

theorem userStore_spec (sound : machine.Sound strict) (live : machine.view.live id = true)
    {address : Nat} {data : Bytes} : (userStore id address data).Ensures ⟨machine, log⟩
      (fun _ (after : Traced Machine) => machine.Stored strict id address
        (min (address + data.length) (pageOf address + pageSize))
        (fun place => data[place - address]?) after.state)
      (fun cause (after : Traced Machine) => machine.Failed strict cause after.state)
      (Excused (strict ∧ IsUser address)) := by
  rw [userStore]
  refine ensures_access sound live ?_
  rintro frame window ⟨(marked : Machine), log⟩ user settled soundMarked holds
  refine Ensures.mono (storeFrame_spec soundMarked holds _ _) ?_ (fun _ _ never => never.elim)
    fun _ _ excused => excused.mono fun _ => ⟨aligned_pageOf address, user⟩
  rintro _ after moves
  have stored := soundMarked.userWrite moves
  have whole := pageOf_add_offset address
  have short := pageOffset_lt address
  exact (settled.stored address).trans stored (Nat.le_refl _) (by omega)

end DemandPaging.Machine
