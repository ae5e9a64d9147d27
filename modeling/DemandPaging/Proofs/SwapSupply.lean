import DemandPaging.Proofs.Run

/-!
# Enough swap space

Slots are taken by anonymous pages only, and no failure keeps one. So as long as there are no more
anonymous pages than slots, nothing runs out of swap space, whatever happened before
(`swap_suffices`).
-/

namespace DemandPaging

namespace Machine

variable {machine : Machine}

/-- The number of pages without a file: untouched, in a slot, or in a frame. -/
def anonymousPages (machine : Machine) : Nat :=
  machine.records.countP fun entry => entry.2.residence.window?.isNone

theorem card_le_anonymousPages {keys : Finset (Nat × Nat)}
    (anonymous : ∀ key ∈ keys, machine.view.backing key = some none) :
    keys.card ≤ machine.anonymousPages := by
  let listed := (machine.records.filter fun entry => entry.2.residence.window?.isNone).map Prod.fst
  have covered : keys ⊆ listed.toFinset := by
    intro key member
    obtain ⟨record, recorded, outside⟩ := Option.map_eq_some_iff.mp (anonymous key member)
    refine List.mem_toFinset.mpr (List.mem_map.mpr ⟨(key, record), ?_, rfl⟩)
    exact List.mem_filter.mpr ⟨mem_records.mpr recorded, by simp [outside]⟩
  calc keys.card ≤ listed.toFinset.card := Finset.card_le_card covered
    _ ≤ listed.length := List.toFinset_card_le listed
    _ = machine.anonymousPages := by
      rw [anonymousPages, List.countP_eq_length_filter, List.length_map]

theorem not_crowded_of_supply (supply : machine.anonymousPages ≤ machine.store.swap.capacity) :
    ¬ machine.view.Crowded := by
  rintro ⟨keys, more, anonymous⟩
  have few := card_le_anonymousPages anonymous
  have slots : machine.view.slots = machine.store.swap.capacity := rfl
  omega

end Machine

/-- Swap space does not run out while every anonymous page could have a slot of its own. -/
theorem swap_suffices {settings : Settings} {device : Device} {storage : Storage}
    {first now : Traced Machine} (started : Machine.start settings device storage = .ok first)
    (run : Run (fun before operation _ => operation.Addressed before) first now)
    (supply : now.state.anonymousPages ≤ now.state.store.swap.capacity) {operation : Operation}
    {outcome : Except PagingError Unit} {after : Traced Machine}
    (addressed : operation.Addressed now.state) (ends : operation.Ends now outcome after) :
    outcome ≠ .error .outOfSwap := by
  obtain ⟨stop, accounted⟩ :=
    Operation.accounted_of_ends (run.sound_of_started started) addressed False.elim ends
  intro short
  exact Machine.not_crowded_of_supply supply (accounted.warranted _ short rfl)

/-- Two frames for three pages, one of them pinned, and a slot for each page. The page in the first
slot comes back, and the page in its way takes another. -/
theorem swap_suffices_under_pressure : ∃ (device : Device) (first now after : Traced Machine),
    Machine.start ⟨2⟩ device {} = .ok first ∧
    Run (fun before operation _ => operation.Addressed before) first now ∧
    now.state.anonymousPages = 3 ∧ now.state.store.swap.capacity = 3 ∧
    now.state.view.record (1, 4096) = some ⟨.inSwap 0, false⟩ ∧
    (Operation.resolveFault 1 4100).Ends now (.ok ()) after ∧
    after.state.view.record (1, 8192) = some ⟨.inSwap 1, false⟩ ∧
    (.ok () : Except PagingError Unit) ≠ .error .outOfSwap := by
  let operations : List Operation := [.createSpace none {}, .addZeros 1 0, .addZeros 1 4096,
    .addZeros 1 8192, .faultIn 1 0, .resolveFault 1 4096, .resolveFault 1 8192]
  have ends : (Operation.trial 2 3 {} operations).map (fun ends =>
      (ends.2.state.anonymousPages, ends.2.state.store.swap.capacity,
        ends.2.state.view.record (1, 4096),
        (Operation.performAll [.resolveFault 1 4100] ends.2).map fun after =>
          after.state.view.record (1, 8192))) =
      some (3, 3, some ⟨.inSwap 0, false⟩, some (some ⟨.inSwap 1, false⟩)) := by
    decide +kernel
  simp only [Option.map_eq_some_iff, Prod.exists, Prod.mk.injEq] at ends
  obtain ⟨first, now, tried, pages, slots, swapped, after, done, other⟩ := ends
  obtain ⟨device, started, run⟩ := Operation.trial_runs tried
  obtain ⟨addressed, ended⟩ := Operation.performAll_single done
  exact ⟨device, first, now, after, started, run, pages, slots, swapped, ended, other,
    swap_suffices started run (by omega) addressed ended⟩

end DemandPaging
