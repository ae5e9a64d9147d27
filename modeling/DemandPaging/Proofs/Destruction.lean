import DemandPaging.Proofs.Agreement
import DemandPaging.Proofs.Machine.Keeps

/-!
# The destruction of a space

A space that is destroyed gives back all its frames and slots, and asks for every page that needs it
to be written back, once and in the order of their addresses. Other spaces do not notice
(`destruction_releases`).
-/

namespace DemandPaging

namespace Machine

open DemandPaging.Action

variable {ε α : Type} {strict : Prop} {machine middle after : Machine} {log : Array Event}
  {id page frame : Nat} {spot : Nat → Prop}

/-! ## What does not belong to a space -/

structure Apart (id : Nat) (spot : Nat → Prop) (before after : Machine) : Prop where
  spaces : ∀ {other}, other ≠ id → after.store.spaces[other]? = before.store.spaces[other]?
  frames : ∀ {frame}, ¬ spot frame → after.pool.frames[frame]? = before.pool.frames[frame]?
  hand : after.pool.hand = before.pool.hand
  device : after.store.swap.device = before.store.swap.device
  nextId : after.store.nextId = before.store.nextId

theorem chained_apart : Chained (Apart id spot) where
  refl _ := ⟨fun _ => rfl, fun _ => rfl, rfl, rfl, rfl⟩
  trans first second :=
    ⟨fun other => (second.spaces other).trans (first.spaces other),
      fun other => (second.frames other).trans (first.frames other),
      second.hand.trans first.hand, second.device.trans first.device,
      second.nextId.trans first.nextId⟩

theorem Apart.mono {wider : Nat → Prop} (apart : machine.Apart id spot after)
    (implied : ∀ frame, spot frame → wider frame) : machine.Apart id wider after :=
  ⟨apart.spaces, fun other => apart.frames fun here => other (implied _ here), apart.hand,
    apart.device, apart.nextId⟩

theorem apart_withSpace {next : Space} : machine.Apart id spot (machine.withSpace id next) :=
  ⟨fun other => by rw [getElem?_withSpace, if_neg other], fun _ => rfl, rfl, rfl, rfl⟩

theorem onSpace_apart (action : Action ε Space α) : (onSpace id action).Keeps (Apart id spot) :=
  onSpace_keeps (keeps_of_forall (fun _ _ => trivial) action) fun _ _ => apart_withSpace

theorem vacate_apart (here : spot frame) : (vacate id page frame).Keeps (Apart id spot) := by
  refine vacate_keeps chained_apart (fun _ _ => apart_withSpace) fun done => ?_
  obtain ⟨frames, hand⟩ := Pool.vacate_elsewhere done
  refine ⟨fun _ => rfl, fun other => frames ?_, hand, rfl, rfl⟩
  rintro rfl
  exact other here

theorem removePage_apart {space : Space} (found : machine.store.spaces[id]? = some space) :
    (removePage id page).Ensures ⟨machine, log⟩
      (fun _ (after : Traced Machine) =>
        machine.Apart id (fun frame => machine.view.frameOf (id, page) = some frame) after.state)
      (fun _ (after : Traced Machine) =>
        machine.Apart id (fun frame => machine.view.frameOf (id, page) = some frame) after.state)
      fun _ _ => True := by
  rw [removePage, ensures_bind, ensures_space found, frameOf_eq found, Catalog.frame?]
  cases space.catalog.find? page with
  | none => exact chained_apart.refl machine
  | some record =>
      refine (onSpace_apart _).bind chained_apart (fun _ => dropPage_keeps chained_apart
        (fun _ _ => ?_) (fun frame inside => vacate_apart inside) fun slot => ?_) ⟨machine, log⟩
      · exact onStorage_keeps fun _ _ => ⟨fun _ => rfl, fun _ => rfl, rfl, rfl, rfl⟩
      · exact releaseSlot_keeps ⟨fun _ => rfl, fun _ => rfl, rfl, rfl, rfl⟩ slot

/-! ## Giving up all pages -/

theorem Removed.unsaved?_eq {safe : Prop} (sound : machine.Sound strict)
    (removed : machine.Removed strict id page safe after)
    (apart : machine.Apart id (fun frame => machine.view.frameOf (id, page) = some frame) after)
    {key : Nat × Nat} (distinct : key ≠ (id, page)) :
    after.view.unsaved? key = machine.view.unsaved? key := by
  have record : after.view.record key = machine.view.record key := by
    rw [removed.record, Function.update_of_ne distinct]
  rcases known : machine.view.record key with _ | ⟨residence, dirty⟩
  · rw [View.unsaved?, View.unsaved?, record, known]
  cases residence with
  | inFrame frame window =>
      have inside : machine.view.frameOf key = some frame := by
        simp [View.frameOf, known, Residence.frame?]
      have same := apart.frames fun here => distinct (sound.consistent.eq_of_frameOf here inside)
      have holder : after.view.holder frame = machine.view.holder frame := by
        simp only [view, Pool.holder, Pool.occupant?, same]
      have contents : after.view.contents frame = machine.view.contents frame := by
        simp only [view, Pool.page, same]
      have modified : after.view.modified key frame = machine.view.modified key frame := by
        rw [View.modified, View.modified, record, holder, removed.translation,
          Function.update_of_ne distinct]
      cases window <;> simp only [View.unsaved?, record, known, modified, contents]
  | untouched | inSwap | inFile => rw [View.unsaved?, View.unsaved?, record, known]

theorem Removed.writeBack?_eq {safe : Prop} (sound : machine.Sound strict)
    (removed : machine.Removed strict id page safe after)
    (apart : machine.Apart id (fun frame => machine.view.frameOf (id, page) = some frame) after)
    {key : Nat × Nat} (distinct : key ≠ (id, page)) :
    after.view.writeBack? key = machine.view.writeBack? key := by
  rw [View.writeBack?_eq, View.writeBack?_eq, removed.unsaved?_eq sound apart distinct]

structure Emptied (id : Nat) (pages : List Nat) (before after : Machine) : Prop where
  apart : before.Apart id (fun frame => ∃ page, before.view.frameOf (id, page) = some frame) after
  journal : after.view.journal =
    (pages.filterMap fun page => before.view.writeBack? (id, page)).reverse ++ before.view.journal

theorem discardAll_empties (sound : machine.Sound strict) (live : machine.view.live id = true)
    {pages : List Nat} (once : pages.Nodup) :
    (discardAll id pages : Action ε Machine Unit).Ensures ⟨machine, log⟩
      (fun _ (after : Traced Machine) => machine.Emptied id pages after.state)
      (fun _ _ => False) fun _ _ => True := by
  induction pages generalizing machine log with
  | nil => exact ⟨chained_apart.refl machine, rfl⟩
  | cons page rest ih =>
      obtain ⟨new, once⟩ := List.nodup_cons.mp once
      have goesOn (safe : Prop) (middle : Traced Machine)
          (removed : machine.Removed strict id page safe middle.state)
          (apart : machine.Apart id (fun frame => machine.view.frameOf (id, page) = some frame)
            middle.state) :
          (discardAll id rest : Action ε Machine Unit).Ensures middle
            (fun _ (after : Traced Machine) => machine.Emptied id (page :: rest) after.state)
            (fun _ _ => False) fun _ _ => True := by
        have through := removed.through
        have alive := through.live_of_unmaps live
        refine Ensures.mono (ih (sound.through through) alive once) ?_ (fun _ _ never => never)
          fun _ _ panicked => panicked
        rintro _ after ⟨more, journal⟩
        refine ⟨chained_apart.trans (apart.mono fun frame here => ⟨page, here⟩)
          (more.mono fun frame => ?_), ?_⟩
        · rintro ⟨other, there⟩
          rw [View.frameOf, removed.record, Function.update_apply] at there
          split at there
          · cases there
          · exact ⟨other, there⟩
        · have same : rest.filterMap (fun page => middle.state.view.writeBack? (id, page)) =
              rest.filterMap fun page => machine.view.writeBack? (id, page) := by
            refine List.filterMap_congr fun other member => removed.writeBack?_eq sound apart ?_
            rintro ⟨⟩
            exact new member
          rw [journal, same, removed.journal, List.filterMap_cons]
          cases machine.view.writeBack? (id, page) <;> simp
      rw [discardAll, ensures_bind, ensures_attempt]
      obtain ⟨space, found⟩ := exists_space live
      refine Ensures.mono ((removePage_spec sound live).and (removePage_apart found))
        (fun _ middle removed => goesOn True middle removed.1 removed.2) ?_
        fun _ _ _ => trivial
      rintro cause ⟨(middle : Machine), log⟩ ⟨⟨removed, -⟩, apart⟩
      rw [ensures_bind, ensures_emit]
      exact goesOn False ⟨middle, _⟩ removed apart

theorem emptySpace_empties (sound : machine.Sound strict) {space : Space}
    (found : machine.store.spaces[id]? = some space) :
    (emptySpace id : Action ε Machine Unit).Ensures ⟨machine, log⟩
      (fun _ (after : Traced Machine) => machine.Emptied id space.catalog.pages after.state)
      (fun _ _ => False) fun _ _ => True := by
  have once : space.catalog.pages.Nodup := Std.ExtTreeMap.nodup_keys
  simp only [emptySpace, ensures_bind, ensures_space found]
  exact discardAll_empties sound (live_of_space found) once

/-! ## Numbers of pages -/

theorem perm_records {space : Space} (found : machine.store.spaces[id]? = some space)
    (record : ∀ key, after.view.record key =
      if key.1 = id then none else machine.view.record key) :
    (space.catalog.records.toList.map (fun entry => ((id, entry.1), entry.2)) ++
      after.records).Perm machine.records := by
  have nodup (machine : Machine) : machine.records.Nodup :=
    pairwise_records.imp fun distinct same => distinct (congrArg Prod.fst same)
  refine (List.perm_ext_iff_of_nodup ?_ (nodup machine)).mpr ?_
  · refine List.nodup_append.mpr ⟨?_, nodup after, ?_⟩
    · rw [List.Nodup, List.pairwise_map]
      apply Std.ExtTreeMap.distinct_keys_toList.imp
      intro entry other distinct same
      exact distinct (Nat.compare_eq_eq.mpr (Prod.mk.inj (Prod.mk.inj same).1).2)
    · rintro _ mine ⟨key, entry⟩ theirs rfl
      obtain ⟨_, -, same⟩ := List.mem_map.mp mine
      cases same
      rw [mem_records, record, if_pos rfl] at theirs
      cases theirs
  · rintro ⟨⟨owner, page⟩, entry⟩
    rw [List.mem_append, mem_records, mem_records, record, List.mem_map]
    simp only [Prod.exists, Prod.mk.injEq, Std.ExtTreeMap.mem_toList_iff_getElem?_eq_some]
    constructor
    · rintro (⟨_, _, listed, ⟨rfl, rfl⟩, rfl⟩ | theirs)
      · exact (record_eq found).trans listed
      · split at theirs
        · cases theirs
        · exact theirs
    · intro listed
      by_cases mine : owner = id
      · subst mine
        exact .inl ⟨page, entry, (record_eq found).symm.trans listed, ⟨rfl, rfl⟩, rfl⟩
      · exact .inr (by rw [if_neg mine]; exact listed)

/-! ## Slots -/

theorem slotOf_ne_iff {space : Space} (found : machine.store.spaces[id]? = some space) {slot : Nat} :
    machine.view.slotOf (id, page) ≠ some slot ↔ ∀ record,
      space.catalog.find? page = some record → record.residence.slot? ≠ some slot := by
  rw [View.slotOf, record_eq found]
  cases space.catalog.find? page <;> simp

theorem isUsed_of_gone (sound : machine.Sound strict) (soundAfter : after.Sound strict)
    (gone : Nat × Nat → Prop) (lost : ∀ key, gone key → after.view.record key = none)
    (kept : ∀ key, ¬ gone key → after.view.record key = machine.view.record key) (slot : Nat) :
    after.store.swap.isUsed slot = .ok true ↔ machine.store.swap.isUsed slot = .ok true ∧
      ∀ key, gone key → machine.view.slotOf key ≠ some slot := by
  rw [isUsed_iff soundAfter.shaped.slots, soundAfter.consistent.stored,
    isUsed_iff sound.shaped.slots, sound.consistent.stored]
  constructor
  · rintro ⟨key, there⟩
    have stays : ¬ gone key := by
      intro goes
      rw [View.slotOf, lost key goes] at there
      cases there
    rw [View.slotOf, kept key stays] at there
    refine ⟨⟨key, there⟩, fun other goes inside => stays ?_⟩
    rwa [sound.consistent.apart there inside]
  · rintro ⟨⟨key, there⟩, others⟩
    refine ⟨key, ?_⟩
    rw [View.slotOf, kept key fun goes => others key goes there]
    exact there

/-! ## Destruction -/

/-- A space has been destroyed: what it held is free, every page of a file that was modified was to be
written back, and nothing else has changed. -/
structure Released (id : Nat) (space : Space) (before after : Traced Machine) : Prop where
  gone : after.state.store.spaces[id]? = none
  /-- The hardware is told of none of its pages, when its directory is given up. -/
  unmapped : ∃ (emptied : Traced Machine) (last : Space),
    (emptySpace id : Action PagingError Machine Unit) before = .ok () emptied ∧
      emptied.state.store.spaces[id]? = some last ∧ last.directory.tableCount = 0 ∧
      after.state = { emptied.state with store :=
        { emptied.state.store with spaces := emptied.state.store.spaces.erase id } }
  unowned : ∀ {frame occupant}, after.state.pool.occupant? frame = some occupant →
    occupant.owner ≠ id
  residentFrames : before.state.usage.residentFrames = after.state.usage.residentFrames +
    space.catalog.records.toList.countP fun entry => entry.2.residence.frame?.isSome
  usedSlots : before.state.usage.usedSlots = after.state.usage.usedSlots +
    space.catalog.records.toList.countP fun entry => entry.2.residence.slot?.isSome
  ascending : space.catalog.pages.Pairwise (· < ·)
  writeBacks : after.state.store.storage.journal =
    (space.catalog.pages.filterMap fun page => before.state.view.writeBack? (id, page)).reverse ++
      before.state.store.storage.journal
  others : before.state.Apart id (fun frame => ∃ occupant,
    before.state.pool.occupant? frame = some occupant ∧ occupant.owner = id) after.state
  slots : ∀ {slot}, after.state.store.swap.isUsed slot = .ok true ↔
    before.state.store.swap.isUsed slot = .ok true ∧ ∀ page record,
      space.catalog.find? page = some record → record.residence.slot? ≠ some slot
  idle : (∀ other : Nat, after.state.store.spaces[other]? = none) →
    after.state.usage.residentFrames = 0 ∧ after.state.usage.usedSlots = 0

def erase (machine : Machine) (id : Nat) : Machine :=
  { machine with store := { machine.store with spaces := machine.store.spaces.erase id } }

theorem getElem?_erase (other : Nat) : (machine.erase id).store.spaces[other]? =
    if other = id then none else machine.store.spaces[other]? := by
  simp only [erase, Std.ExtTreeMap.getElem?_erase, Nat.compare_eq_eq, eq_comm (a := id)]

theorem released_of_emptied {before emptied : Traced Machine} {space : Space} {log : Array Event}
    (sound : before.state.Sound strict) (found : before.state.store.spaces[id]? = some space)
    (ran : (emptySpace id : Action PagingError Machine Unit) before = .ok () emptied)
    (soundEmptied : emptied.state.Sound strict) (alive : emptied.state.view.live id = true)
    (empty : ∀ page, emptied.state.view.record (id, page) = none)
    (given : before.state.Emptied id space.catalog.pages emptied.state)
    (soundAfter : (emptied.state.erase id).Sound strict) :
    Released id space before ⟨emptied.state.erase id, log⟩ := by
  have record (key : Nat × Nat) : (emptied.state.erase id).view.record key =
      if key.1 = id then none else before.state.view.record key := by
    simp only [view, getElem?_erase]
    split
    · rfl
    · rename_i other
      rw [given.apart.spaces other]
  -- The records before are those that are left and the space's own, so both counts fall by the latter.
  have perm := perm_records found record
  obtain ⟨last, found'⟩ := exists_space alive
  constructor
  · exact (getElem?_erase id).trans (if_pos rfl)
  · have unmapped (page : Nat) : last.directory.translation page = none := by
      rw [← translation_eq found']
      exact soundEmptied.consistent.unmapped (by simp [View.frameOf, empty page])
    exact ⟨emptied, last, ran, found',
      Directory.tableCount_of_tight (soundEmptied.shaped.tight found') unmapped, rfl⟩
  · rintro frame occupant held rfl
    obtain ⟨window, dirty, recorded⟩ := exists_holds_of_holder soundAfter
      (show (emptied.state.erase occupant.owner).view.holder frame = some occupant.holder by
        simp only [view, Pool.holder, held, Option.map_some])
    simp [record, Occupant.holder] at recorded
  · rw [sound.residentFrames, soundAfter.residentFrames, ← perm.countP_eq, List.countP_append,
      List.countP_map, Nat.add_comm]
    rfl
  · rw [sound.usedSlots, soundAfter.usedSlots, ← perm.countP_eq, List.countP_append,
      List.countP_map, Nat.add_comm]
    rfl
  · exact Std.ExtTreeMap.ordered_keys.imp Nat.compare_eq_lt.mp
  · exact given.journal
  · refine ⟨fun other => ?_, ?_, given.apart.hand, given.apart.device, given.apart.nextId⟩
    · rw [getElem?_erase, if_neg other, given.apart.spaces other]
    · refine fun other => given.apart.frames ?_
      rintro ⟨page, inside⟩
      refine other ?_
      have tenant := sound.consistent.tenanted.mp inside
      simp only [View.tenant, view, Pool.holder, Option.map_map, Option.map_eq_some_iff] at tenant
      obtain ⟨occupant, held, same⟩ := tenant
      exact ⟨occupant, held, (Prod.mk.inj same).1⟩
  · intro slot
    rw [isUsed_of_gone sound soundAfter (fun key => key.1 = id)
      (fun key mine => (record key).trans (if_pos mine))
      (fun key other => (record key).trans (if_neg other))]
    refine and_congr_right fun _ =>
      ⟨fun others page => (slotOf_ne_iff found).mp (others (id, page) rfl), ?_⟩
    rintro others ⟨_, page⟩ rfl
    exact (slotOf_ne_iff found).mpr (others page)
  · intro none
    have nothing : (emptied.state.erase id).records = [] := by
      refine List.eq_nil_iff_forall_not_mem.mpr ?_
      rintro ⟨key, entry⟩ listed
      rw [mem_records] at listed
      simp [view, none] at listed
    rw [soundAfter.residentFrames, soundAfter.usedSlots, nothing]
    exact ⟨rfl, rfl⟩

theorem destroySpace_releases (sound : machine.Sound strict) {space : Space}
    (found : machine.store.spaces[id]? = some space) :
    (destroySpace id : Action PagingError Machine Unit).Ensures ⟨machine, log⟩
      (fun _ after => Released id space ⟨machine, log⟩ after)
      (fun _ _ => False) fun _ _ => True := by
  have live := live_of_space found
  have emptied : (emptySpace id : Action PagingError Machine Unit).Ensures ⟨machine, log⟩ _ _ _ :=
    ((emptySpace_spec sound live).and (emptySpace_empties sound found)).known
  have ends : (destroySpace id : Action PagingError Machine Unit).Ensures ⟨machine, log⟩ _ _ _ :=
    destroySpace_spec sound live
  rw [destroySpace, ensures_bind] at ends ⊢
  refine Ensures.mono (emptied.and ends) ?_ (fun _ _ never => never.2) fun _ _ _ => trivial
  rintro _ ⟨(last : Machine), log⟩ ⟨⟨⟨⟨through, empty⟩, given⟩, ran⟩, ⟨middle, through', moves⟩⟩
  exact released_of_emptied sound found ran (sound.through through)
    ((through.live_eq fun _ => Step.Unmaps.inner) ▸ live) empty given
    ((sound.through through').moves moves)

end Machine

/-- A space that is destroyed releases all that it holds, and nothing else. -/
theorem destruction_releases {settings : Settings} {device : Device} {storage : Storage}
    {first now after : Traced Machine} (started : Machine.start settings device storage = .ok first)
    (run : Run (fun before operation _ => operation.Addressed before) first now) {id : Nat}
    {space : Space} (found : now.state.store.spaces[id]? = some space)
    {outcome : Except PagingError Unit} (ends : (Operation.destroySpace id).Ends now outcome after) :
    outcome = .ok () ∧ Machine.Released id space now after := by
  have released : (Machine.destroySpace id : Action PagingError Machine Unit).Ensures now _ _ _ :=
    Machine.destroySpace_releases (run.sound_of_started started) found
  cases outcome with
  | ok value => exact ⟨rfl, released.returned ends⟩
  | error cause => exact (released.failed ends).elim

/-- A space is destroyed that has a page in swap space, one in a frame and a mapped file, next to
another space. -/
theorem destruction_releases_next_to_space : ∃ (device : Device) (storage : Storage)
    (first now after : Traced Machine) (space : Space),
    Machine.start ⟨2⟩ device storage = .ok first ∧
      Run (fun before operation _ => operation.Addressed before) first now ∧
      now.state.usage = ⟨2, 2, 1, 1⟩ ∧ now.state.store.spaces[1]? = some space ∧
      (Operation.destroySpace 1).Ends now (.ok ()) after ∧ Machine.Released 1 space now after := by
  let storage : Storage := { files := #[.flat 100 {}] }
  let begun : List Operation :=
    [.createSpace none {}, .createSpace none {}, .addZeros 1 0, .addZeros 1 4096,
      .mapFile 1 8192 0 0 5000, .addZeros 2 0, .resolveFault 1 0, .resolveFault 1 4096,
      .resolveFault 2 0]
  have ends : (Operation.trial 2 1 storage begun).map (fun ends =>
      (ends.2.state.view.live 1, ends.2.state.usage, ends.2.state.records.all fun entry =>
        entry.2.residence.frame?.isNone || entry.2.residence.window?.isNone)) =
      some (true, ⟨2, 2, 1, 1⟩, true) := by decide +kernel
  simp only [Option.map_eq_some_iff, Prod.exists, Prod.mk.injEq] at ends
  obtain ⟨first, now, tried, live, used, clean⟩ := ends
  obtain ⟨⟨device, -, started⟩, done⟩ := Operation.trial_ok tried
  have run : Run (fun before operation _ => operation.Addressed before) first now :=
    Operation.run_of_performAll done fun _ _ _ _ addressed => addressed
  obtain ⟨space, found⟩ := Machine.exists_space live
  -- No page of a file is in a frame, so nothing can go wrong.
  have unbacked : ¬ ∃ page frame window, now.state.view.Holds (1, page) frame (some window) := by
    rintro ⟨page, frame, window, dirty, recorded⟩
    have entry := List.all_eq_true.mp clean _ (Machine.mem_records.mpr recorded)
    simp [Residence.frame?, Residence.window?] at entry
  have returns : (Machine.destroySpace 1 : Action PagingError Machine Unit).Ensures now _ _ _ :=
    Machine.destroySpace_spec (run.sound_of_started started) live
  obtain ⟨_, after, returned, -⟩ := Action.Ensures.exists_returned
    (returns.mono (fun _ _ known => known) (fun _ _ never => never)
      fun _ _ panicked => unbacked panicked.2)
  have ends : (Operation.destroySpace 1).Ends now (.ok ()) after := returned
  exact ⟨device, storage, first, now, after, space, started, run, used, found, ends,
    (destruction_releases started run found ends).2⟩

end DemandPaging
