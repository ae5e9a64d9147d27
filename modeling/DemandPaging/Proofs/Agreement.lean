import DemandPaging.Proofs.Run

/-!
# Agreement

The records of all spaces, the frames in use, the directories and the slots in use agree after every
operation (`tables_agree`), and the numbers of frames and slots in use are those of the resident and
the swapped pages.
-/

namespace DemandPaging

theorem countP_eq_card {α : Type} {list : List α} {place : α → Option Nat} {places : Finset Nat}
    (apart : list.Pairwise fun first second =>
      ∀ here, place first = some here → place second ≠ some here)
    (covered : ∀ here, here ∈ places ↔ ∃ element ∈ list, place element = some here) :
    list.countP (fun element => (place element).isSome) = places.card := by
  have nodup : (list.filterMap place).Nodup := by
    rw [List.Nodup, List.pairwise_filterMap]
    apply apart.imp
    intro first second distinct here found other found' same
    exact distinct here found (same ▸ found')
  have same : (list.filterMap place).toFinset = places := by
    ext here
    rw [List.mem_toFinset, List.mem_filterMap, covered]
  rw [← List.length_filterMap_eq_countP, ← List.toFinset_card_of_nodup nodup, same]

namespace Machine

structure Agreement (machine : Machine) : Prop where
  placed : ∀ {id page : Nat} {space : Space} {record : PageRecord},
    machine.store.spaces[id]? = some space → space.catalog.find? page = some record →
    Aligned page ∧ IsUser page
  /-- A resident page has a frame that is in use for it, and the hardware finds it there. -/
  resident : ∀ {id page frame : Nat} {space : Space} {record : PageRecord},
    machine.store.spaces[id]? = some space → space.catalog.find? page = some record →
    record.residence.frame? = some frame →
    (∃ occupant, machine.pool.occupant? frame = some occupant ∧ occupant.owner = id ∧
      occupant.page = page) ∧ space.directory.frame? page = .ok (some frame)
  /-- A frame in use holds one page, of a live space. -/
  occupied : ∀ {frame : Nat} {occupant : Occupant}, machine.pool.occupant? frame = some occupant →
    ∃! key : Nat × Nat, ∃ space, machine.store.spaces[key.1]? = some space ∧
      space.catalog.frame? key.2 = some frame
  /-- Any other user page is not mapped, and not recorded as modified. -/
  away : ∀ {id page : Nat} {space : Space}, machine.store.spaces[id]? = some space →
    Aligned page → IsUser page → space.catalog.frame? page = none →
    space.directory.frame? page = .ok none ∧
      ∀ record, space.catalog.find? page = some record → record.dirty = false
  swapped : ∀ {slot : Nat}, machine.store.swap.isUsed slot = .ok true ↔
    ∃ (id page : Nat) (space : Space) (record : PageRecord),
      machine.store.spaces[id]? = some space ∧ space.catalog.find? page = some record ∧
        record.residence.slot? = some slot
  apart : ∀ {id page id' page' slot : Nat} {space space' : Space} {record record' : PageRecord},
    machine.store.spaces[id]? = some space → space.catalog.find? page = some record →
    machine.store.spaces[id']? = some space' → space'.catalog.find? page' = some record' →
    record.residence.slot? = some slot → record'.residence.slot? = some slot →
    id = id' ∧ page = page'
  frames : machine.usage.residentFrames =
    machine.records.countP fun entry => entry.2.residence.frame?.isSome
  slots : machine.usage.usedSlots =
    machine.records.countP fun entry => entry.2.residence.slot?.isSome

variable {machine : Machine} {strict : Prop}

theorem pairwise_records : machine.records.Pairwise fun entry other => entry.1 ≠ other.1 := by
  refine List.pairwise_flatMap.mpr ⟨fun entry _ => ?_, ?_⟩
  · rw [List.pairwise_map]
    apply Std.ExtTreeMap.distinct_keys_toList.imp
    intro entry other distinct same
    exact distinct (Nat.compare_eq_eq.mpr (Prod.mk.inj same).2)
  · apply Std.ExtTreeMap.distinct_keys_toList.imp
    intro entry other distinct
    simp only [List.mem_map]
    rintro _ ⟨listed, -, rfl⟩ _ ⟨listed', -, rfl⟩ same
    exact distinct (Nat.compare_eq_eq.mpr (Prod.mk.inj same).1)

theorem countP_records (place : Residence → Option Nat) {places : Finset Nat}
    (apart : ∀ {key other here},
      (machine.view.record key).bind (fun record => place record.residence) = some here →
      (machine.view.record other).bind (fun record => place record.residence) = some here →
      key = other)
    (covered : ∀ here, here ∈ places ↔
      ∃ key, (machine.view.record key).bind (fun record => place record.residence) = some here) :
    machine.records.countP (fun entry => (place entry.2.residence).isSome) = places.card := by
  refine countP_eq_card ?_ fun here => ?_
  · refine List.Pairwise.imp_of_mem ?_ pairwise_records
    rintro ⟨key, record⟩ ⟨other, record'⟩ member member' distinct here found found'
    exact distinct (apart (Option.bind_eq_some_iff.mpr ⟨record, mem_records.mp member, found⟩)
      (Option.bind_eq_some_iff.mpr ⟨record', mem_records.mp member', found'⟩))
  · rw [covered]
    simp only [Prod.exists, mem_records, Option.bind_eq_some_iff]

theorem isUsed_iff (kept : machine.store.swap.Kept) {slot : Nat} :
    machine.store.swap.isUsed slot = .ok true ↔ machine.view.used slot = true := by
  constructor
  · exact fun used => decide_eq_true (Bitmap.on_of_get used)
  · intro used
    rw [SwapArea.isUsed, Bitmap.get_eq kept.sized (SwapArea.inside_of_inUse kept used)]
    exact congrArg Except.ok used

theorem frame?_of_target {id page : Nat} {space : Space}
    (found : machine.store.spaces[id]? = some space) (aligned : Aligned page)
    (user : IsUser page) : space.directory.frame? page = .ok (machine.view.target (id, page)) := by
  rw [Directory.frame?_eq aligned user, View.target, translation_eq found]

theorem Sound.residentFrames (sound : machine.Sound strict) : machine.usage.residentFrames =
    machine.records.countP fun entry => entry.2.residence.frame?.isSome := by
  have consistent := sound.consistent
  refine Eq.trans sound.shaped.counted (countP_records Residence.frame? ?_ fun frame => ?_).symm
  · intro key other frame here there
    have first := consistent.tenanted.mp here
    have second := consistent.tenanted.mp there
    exact Option.some.inj (first.symm.trans second)
  · rw [Pool.mem_occupied]
    have tenant : (machine.pool.holder frame).isSome ↔ ∃ key, machine.view.tenant frame = some key := by
      rw [← Option.isSome_iff_exists, View.tenant, Option.isSome_map]
      rfl
    rw [tenant]
    exact exists_congr fun key => consistent.tenanted.symm

theorem Sound.usedSlots (sound : machine.Sound strict) : machine.usage.usedSlots =
    machine.records.countP fun entry => entry.2.residence.slot?.isSome := by
  have slots := sound.shaped.slots
  refine Eq.trans (Bitmap.count_eq slots.sized slots.tidy)
    (countP_records Residence.slot? sound.consistent.apart fun slot => ?_).symm
  have used : machine.view.used slot = true ↔ machine.store.swap.used.On slot := decide_eq_true_iff
  rw [Finset.mem_filter, Finset.mem_range, and_iff_right_of_imp (slots.tidy slot), ← used]
  exact sound.consistent.stored

theorem Sound.agreement (sound : machine.Sound strict) : machine.Agreement := by
  have consistent := sound.consistent
  have shaped := sound.shaped
  have frameOf {id page : Nat} {space : Space} (found : machine.store.spaces[id]? = some space) :
      machine.view.frameOf (id, page) = space.catalog.frame? page := by
    rw [View.frameOf, record_eq found]
    rfl
  have recorded {id page : Nat} {space : Space} {record : PageRecord}
      (found : machine.store.spaces[id]? = some space)
      (listed : space.catalog.find? page = some record) :
      machine.view.record (id, page) = some record := (record_eq found).trans listed
  constructor
  · intro id page space record found listed
    exact (consistent.placed (recorded found listed)).2
  · intro id page frame space record found listed inside
    obtain ⟨-, aligned, user⟩ := consistent.placed (recorded found listed)
    have here : machine.view.frameOf (id, page) = some frame := by
      simp [View.frameOf, recorded found listed, inside]
    refine ⟨?_, ?_⟩
    · have tenant := consistent.tenanted.mp here
      simp only [View.tenant, view, Pool.holder, Option.map_map, Option.map_eq_some_iff] at tenant
      obtain ⟨occupant, held, same⟩ := tenant
      cases same
      exact ⟨occupant, held, rfl, rfl⟩
    · rw [frame?_of_target found aligned user, consistent.translated, here]
  · intro frame occupant held
    have tenant : machine.view.tenant frame = some (occupant.owner, occupant.page) := by
      simp only [View.tenant, view, Pool.holder, held]
      rfl
    have here := consistent.tenanted.mpr tenant
    obtain ⟨window, dirty, resident⟩ := View.exists_holds here
    obtain ⟨space, found⟩ := exists_space (consistent.placed resident).1
    refine ⟨(occupant.owner, occupant.page), ⟨space, found, frameOf found ▸ here⟩, ?_⟩
    rintro ⟨id, page⟩ ⟨other, found', there⟩
    rw [← frameOf found', consistent.tenanted, tenant] at there
    exact (Option.some.inj there).symm
  · intro id page space found aligned user away
    refine ⟨?_, fun record listed => ?_⟩
    · rw [frame?_of_target found aligned user, consistent.translated, frameOf found, away]
    · by_contra dirty
      obtain ⟨frame, inside⟩ := consistent.settled (recorded found listed) (by simpa using dirty)
      simp [Catalog.frame?, listed, inside] at away
  · intro slot
    rw [isUsed_iff shaped.slots, consistent.stored]
    constructor
    · rintro ⟨⟨id, page⟩, stored⟩
      obtain ⟨record, listed, inside⟩ := Option.bind_eq_some_iff.mp stored
      obtain ⟨space, found⟩ := exists_space (consistent.placed listed).1
      exact ⟨id, page, space, record, found, (record_eq found).symm.trans listed, inside⟩
    · rintro ⟨id, page, space, record, found, listed, inside⟩
      exact ⟨(id, page), Option.bind_eq_some_iff.mpr ⟨record, recorded found listed, inside⟩⟩
  · intro id page id' page' slot space space' record record' found listed found' listed' inside inside'
    have same : (id, page) = (id', page') := consistent.apart
      (Option.bind_eq_some_iff.mpr ⟨record, recorded found listed, inside⟩)
      (Option.bind_eq_some_iff.mpr ⟨record', recorded found' listed', inside'⟩)
    exact Prod.mk.inj same
  · exact sound.residentFrames
  · exact sound.usedSlots

end Machine

/-- The tables of a machine agree after any run, whatever fails in it. -/
theorem tables_agree {settings : Settings} {device : Device} {storage : Storage}
    {first now : Traced Machine} (started : Machine.start settings device storage = .ok first)
    (run : Run (fun before operation _ => operation.Addressed before) first now) :
    now.state.Agreement := by
  have sound : now.state.Sound False := run.sound (Machine.start_sound started False.elim)
    (fun _ _ _ addressed => addressed) False.elim
  exact sound.agreement

/-- After a fault, one of two pages is resident. -/
theorem tables_agree_after_fault : ∃ (device : Device) (first now : Traced Machine),
    Machine.start ⟨1⟩ device {} = .ok first ∧
    Run (fun before operation _ => operation.Addressed before) first now ∧
    now.state.usage.residentFrames = 1 ∧ now.state.Agreement := by
  have ends : (Operation.trial 1 1 {} [.createSpace none {}, .addZeros 1 0, .addZeros 1 4096,
      .resolveFault 1 4100]).map (·.2.state.usage.residentFrames) = some 1 := by decide +kernel
  obtain ⟨⟨first, now⟩, tried, used⟩ := Option.map_eq_some_iff.mp ends
  obtain ⟨⟨device, -, started⟩, done⟩ := Operation.trial_ok tried
  have run : Run (fun before operation _ => operation.Addressed before) first now :=
    Operation.run_of_performAll done fun _ _ _ _ addressed => addressed
  exact ⟨device, first, now, started, run, used, tables_agree started run⟩

end DemandPaging
