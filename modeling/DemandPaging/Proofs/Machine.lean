import DemandPaging.Proofs.Directory
import DemandPaging.Proofs.Pool.Clock
import DemandPaging.Proofs.Storage
import DemandPaging.Proofs.SwapArea
import DemandPaging.Proofs.View.Pins
import DemandPaging.Proofs.View.Supply

namespace DemandPaging.Machine

open DemandPaging.Action

/-- What the view of a machine leaves out is well formed. -/
structure Shaped (strict : Prop) (machine : Machine) : Prop where
  counted : machine.pool.Counted
  hand : machine.pool.hand < machine.pool.size
  narrow : machine.pool.size ≤ Entry.frameLimit
  slots : machine.store.swap.Kept
  formed : strict → machine.store.storage.Formed
  tight : ∀ {id : Nat} {space : Space}, machine.store.spaces[id]? = some space →
    space.directory.Tight

structure Sound (strict : Prop) (machine : Machine) : Prop where
  consistent : machine.view.Consistent
  backed : strict → machine.view.Backed
  shaped : machine.Shaped strict

structure Moves (strict : Prop) (before : Machine) (steps : List Step) (after : Machine) : Prop where
  path : Path strict before.view steps after.view
  shaped : after.Shaped strict

def Through (strict : Prop) (kind : Step → Prop) (before after : Machine) : Prop :=
  ∃ steps, Moves strict before steps after ∧ ∀ step ∈ steps, kind step

/-- A counter cannot go on: that of a device, or of the mappings of a space. -/
def Worn (machine : Machine) : Prop :=
  machine.store.swap.device.Worn ∨ machine.store.storage.Worn ∨
    ∃ (id : Nat) (space : Space), machine.store.spaces[id]? = some space ∧
      halfWordLimit ≤ space.nextRegion + 1

inductive Allowed (machine : Machine) : Panic → Prop where
  | everyFramePinned (frames : Nat) : Allowed machine (.everyFramePinned frames)
  | pinOverflow (frame : Nat) : Allowed machine (.pinOverflow frame)
  | outOfSpaceIds : Allowed machine .outOfSpaceIds
  | countOverflow (worn : machine.Worn) : Allowed machine .countOverflow

/-- If all windows lie in their files, no other panics are to be expected. -/
def Excused (strict : Prop) (cause : Panic) (after : Traced Machine) : Prop :=
  strict → after.state.Allowed cause

theorem Excused.mono {strict narrower : Prop} {cause : Panic} {after : Traced Machine}
    (excused : Excused strict cause after) (implied : narrower → strict) :
    Excused narrower cause after :=
  fun holds => excused (implied holds)

variable {strict : Prop} {machine middle after : Machine} {steps more : List Step}

theorem Moves.single (step : Step) (permitted : machine.view.Permits strict step)
    (seen : after.view = machine.view.after step) (shaped : after.Shaped strict) :
    Moves strict machine [step] after :=
  ⟨seen ▸ Path.single permitted, shaped⟩

theorem Moves.still (seen : after.view = machine.view) (shaped : after.Shaped strict) :
    Moves strict machine [] after :=
  ⟨seen ▸ .nil, shaped⟩

theorem Moves.trans (first : Moves strict machine steps middle)
    (second : Moves strict middle more after) : Moves strict machine (steps ++ more) after :=
  ⟨first.path.append second.path, second.shaped⟩

theorem Sound.moves (sound : machine.Sound strict) (moves : Moves strict machine steps after) :
    after.Sound strict where
  consistent := moves.path.consistent sound.consistent
  backed holds := moves.path.backed holds (sound.backed holds)
  shaped := moves.shaped

section Through

variable {kind wider : Step → Prop}

theorem Through.still (seen : after.view = machine.view) (shaped : after.Shaped strict) :
    machine.Through strict kind after :=
  ⟨[], .still seen shaped, by simp⟩

theorem Through.refl (shaped : machine.Shaped strict) : machine.Through strict kind machine :=
  .still rfl shaped

theorem Moves.through {step : Step} (moves : Moves strict machine [step] after)
    (fits : kind step) : machine.Through strict kind after :=
  ⟨[step], moves, by simpa using fits⟩

theorem Through.single (step : Step) (permitted : machine.view.Permits strict step)
    (seen : after.view = machine.view.after step) (shaped : after.Shaped strict)
    (fits : kind step) : machine.Through strict kind after :=
  (Moves.single step permitted seen shaped).through fits

theorem Through.trans (first : machine.Through strict kind middle)
    (second : middle.Through strict kind after) : machine.Through strict kind after := by
  obtain ⟨steps, moves, kinds⟩ := first
  obtain ⟨more, moves', kinds'⟩ := second
  refine ⟨steps ++ more, moves.trans moves', fun step member => ?_⟩
  rcases List.mem_append.mp member with early | late
  · exact kinds step early
  · exact kinds' step late

theorem Through.mono (through : machine.Through strict kind after)
    (implied : ∀ step, kind step → wider step) : machine.Through strict wider after := by
  obtain ⟨steps, moves, kinds⟩ := through
  exact ⟨steps, moves, fun step member => implied step (kinds step member)⟩

theorem Sound.through (sound : machine.Sound strict) (through : machine.Through strict kind after) :
    after.Sound strict :=
  sound.moves through.choose_spec.1

theorem Through.shaped (through : machine.Through strict kind after) : after.Shaped strict :=
  through.choose_spec.1.shaped

theorem Through.frames (through : machine.Through strict kind after) :
    after.pool.size = machine.pool.size :=
  through.choose_spec.1.path.frames

theorem Through.live_eq (through : machine.Through strict kind after)
    (inner : ∀ step, kind step → step.Inner) : after.view.live = machine.view.live := by
  obtain ⟨steps, moves, kinds⟩ := through
  exact moves.path.keeps (motive := fun view => view.live = machine.view.live) kinds
    (fun view step fits _ same => (view.live_after (inner step fits)).trans same) rfl

theorem Sound.spared (sound : machine.Sound strict) (through : machine.Through strict kind after)
    {key : Nat × Nat} (spares : ∀ step, kind step → step.Spares key) :
    machine.view.Spared after.view key := by
  obtain ⟨steps, moves, kinds⟩ := through
  exact moves.path.spared sound.consistent fun step member => spares step (kinds step member)

theorem Sound.calm (sound : machine.Sound strict) (through : machine.Through strict kind after)
    (spares : ∀ step, kind step → ∀ key, step.Spares key) :
    machine.view.Firm after.view ∧ after.view.pins = machine.view.pins :=
  View.firm_of_spared fun key => sound.spared through fun step fits => spares step fits key

/-- Swap space has run out only if there are more anonymous pages than slots. -/
def Warranted (machine : Machine) (cause : PagingError) : Prop :=
  cause = .outOfSwap → machine.view.Crowded

theorem warranted_of_device {cause : PagingError}
    (refused : ∃ failure, cause = PagingError.device failure) : machine.Warranted cause := by
  rintro rfl
  obtain ⟨failure, other⟩ := refused
  cases other

theorem Through.warranted (through : machine.Through strict kind middle)
    (addsNone : ∀ step, kind step → step.AddsNone) {cause : PagingError}
    (warranted : middle.Warranted cause) : machine.Warranted cause := by
  obtain ⟨steps, moves, kinds⟩ := through
  exact fun short => moves.path.crowded_before
    (fun step member => addsNone step (kinds step member)) (warranted short)

end Through

/-! ## Parts of a machine -/

def withPool (machine : Machine) (pool : Pool) : Machine := { machine with pool := pool }

def withSwap (machine : Machine) (swap : SwapArea) : Machine :=
  { machine with store := { machine.store with swap := swap } }

def withStorage (machine : Machine) (storage : Storage) : Machine :=
  { machine with store := { machine.store with storage := storage } }

def withSpace (machine : Machine) (id : Nat) (space : Space) : Machine :=
  { machine with
    store := { machine.store with spaces := machine.store.spaces.insert id space } }

theorem view_withPool {pool : Pool} {holder : Nat → Option Holder} {contents : Nat → Page}
    (held : pool.holder = holder) (filled : pool.page = contents)
    (size : pool.size = machine.pool.size) :
    (machine.withPool pool).view =
      { machine.view with holder := holder, contents := contents } := by
  subst held filled
  exact View.ext size rfl rfl rfl rfl rfl rfl rfl rfl rfl rfl rfl rfl rfl

theorem view_withSwap {swap : SwapArea} {used : Nat → Bool} {slot : Nat → Page}
    (taken : swap.inUse = used) (filled : swap.page = slot)
    (size : swap.capacity = machine.store.swap.capacity) :
    (machine.withSwap swap).view = { machine.view with used := used, slot := slot } := by
  subst taken filled
  exact View.ext rfl size rfl rfl rfl rfl rfl rfl rfl rfl rfl rfl rfl rfl

theorem view_of_idle {storage : Storage} (idle : machine.store.storage.Idle storage) :
    (machine.withStorage storage).view = machine.view :=
  View.ext rfl rfl rfl rfl rfl rfl rfl rfl rfl rfl rfl idle.layouts idle.bytes idle.journal

theorem view_of_wrote {storage : Storage} {file offset count : Nat} {layout : Layout}
    {data : Bytes}
    (wrote : machine.store.storage.Wrote storage file layout offset data count) :
    (machine.withStorage storage).view = machine.view.write file layout offset data count :=
  View.ext rfl rfl rfl rfl rfl rfl rfl rfl rfl rfl rfl wrote.layouts (funext wrote.bytes) wrote.journal

variable {id page : Nat} {space : Space}

theorem exists_space (live : machine.view.live id = true) :
    ∃ space, machine.store.spaces[id]? = some space :=
  Option.isSome_iff_exists.mp (by simpa [view] using live)

theorem live_of_space (found : machine.store.spaces[id]? = some space) :
    machine.view.live id = true := by
  simp only [view]
  rw [← Std.ExtTreeMap.isSome_getElem?_eq_contains, found]
  rfl

theorem record_eq (found : machine.store.spaces[id]? = some space) :
    machine.view.record (id, page) = space.catalog.find? page := by
  simp [view, found]

theorem translation_eq (found : machine.store.spaces[id]? = some space) :
    machine.view.translation (id, page) = space.directory.translation page := by
  simp [view, found]

theorem region_eq (found : machine.store.spaces[id]? = some space) {number : Nat} :
    machine.view.region (id, number) = space.regions[number]? := by
  simp [view, found]

theorem nextRegion_eq (found : machine.store.spaces[id]? = some space) :
    machine.view.nextRegion id = space.nextRegion := by
  simp [view, found]

def records (machine : Machine) : List ((Nat × Nat) × PageRecord) :=
  machine.store.spaces.toList.flatMap fun (id, space) =>
    space.catalog.records.toList.map fun (page, record) => ((id, page), record)

theorem mem_records {key : Nat × Nat} {record : PageRecord} :
    (key, record) ∈ machine.records ↔ machine.view.record key = some record := by
  obtain ⟨id, page⟩ := key
  simp only [records, List.mem_flatMap, List.mem_map, Prod.exists, Prod.mk.injEq,
    Std.ExtTreeMap.mem_toList_iff_getElem?_eq_some, view, Option.bind_eq_some_iff, Catalog.find?]
  constructor
  · rintro ⟨_, space, found, _, _, recorded, ⟨rfl, rfl⟩, rfl⟩
    exact ⟨space, found, recorded⟩
  · rintro ⟨space, found, recorded⟩
    exact ⟨id, space, found, page, record, recorded, ⟨rfl, rfl⟩, rfl⟩

theorem getElem?_withSpace (next : Space) (other : Nat) :
    (machine.withSpace id next).store.spaces[other]? =
      if other = id then some next else machine.store.spaces[other]? := by
  simp only [withSpace, Std.ExtTreeMap.getElem?_insert, Nat.compare_eq_eq, eq_comm (a := id)]

theorem getElem?_withSpace_self (next : Space) :
    (machine.withSpace id next).store.spaces[id]? = some next := by
  rw [getElem?_withSpace, if_pos rfl]

theorem withSpace_self (found : machine.store.spaces[id]? = some space) :
    machine.withSpace id space = machine := by
  have same : machine.store.spaces.insert id space = machine.store.spaces := by
    refine Std.ExtTreeMap.ext_getElem? fun {other} => ?_
    rw [Std.ExtTreeMap.getElem?_insert]
    split
    · rename_i here
      rw [← Std.LawfulEqCmp.eq_of_compare here, found]
    · rfl
  rw [withSpace, same]

theorem withSpace_withSpace (one other : Space) :
    (machine.withSpace id one).withSpace id other = machine.withSpace id other := by
  have same : (machine.store.spaces.insert id one).insert id other =
      machine.store.spaces.insert id other := by
    refine Std.ExtTreeMap.ext_getElem? fun {key} => ?_
    simp only [Std.ExtTreeMap.getElem?_insert]
    split <;> rfl
  simp only [withSpace, same]

theorem Shaped.unformed (shaped : machine.Shaped strict) : machine.Shaped False :=
  { shaped with formed := False.elim }

theorem Shaped.withPool {pool : Pool} (shaped : machine.Shaped strict)
    (tended : machine.pool.Tended pool) : (machine.withPool pool).Shaped strict where
  counted := tended.counted shaped.counted
  hand := tended.hand shaped.hand
  narrow := tended.size ▸ shaped.narrow
  slots := shaped.slots
  formed := shaped.formed
  tight := shaped.tight

theorem Shaped.withSpace {next : Space} (shaped : machine.Shaped strict)
    (tight : next.directory.Tight) : (machine.withSpace id next).Shaped strict := by
  refine { shaped with tight := fun found => ?_ }
  rw [getElem?_withSpace] at found
  split at found
  · cases found
    exact tight
  · exact shaped.tight found

theorem Shaped.keepDirectory {next : Space} (shaped : machine.Shaped strict)
    (found : machine.store.spaces[id]? = some space) (same : next.directory = space.directory) :
    (machine.withSpace id next).Shaped strict :=
  shaped.withSpace (same ▸ shaped.tight found)

theorem view_withSpace (found : machine.store.spaces[id]? = some space) (next : Space) :
    (machine.withSpace id next).view = { machine.view with
      record := fun key => if key.1 = id then next.catalog.find? key.2 else machine.view.record key
      translation := fun key =>
        if key.1 = id then next.directory.translation key.2 else machine.view.translation key
      region := fun key => if key.1 = id then next.regions[key.2]? else machine.view.region key
      nextRegion := Function.update machine.view.nextRegion id next.nextRegion } := by
  have present : id ∈ machine.store.spaces := by
    rw [← Std.ExtTreeMap.isSome_getElem?_iff_mem, found]
    rfl
  refine View.ext rfl rfl rfl rfl ?_ ?_ ?_ ?_ ?_ rfl rfl rfl rfl rfl
  · funext other
    simp only [view, withSpace, Std.ExtTreeMap.contains_insert]
    by_cases same : id = other
    · subst same
      simp [present]
    · simp [same]
  all_goals
    funext key
    simp only [view, getElem?_withSpace, Function.update_apply]
    split <;> simp

section Tables

variable {β : Type} {inner : Nat → β} {outer : Nat × Nat → β}

theorem within_space_self (same : ∀ index, outer (id, index) = inner index) :
    (fun key : Nat × Nat => if key.1 = id then inner key.2 else outer key) = outer := by
  funext key
  obtain ⟨owner, index⟩ := key
  by_cases here : owner = id
  · subst here
    rw [if_pos rfl, same]
  · rw [if_neg here]

theorem within_space_update (same : ∀ index, outer (id, index) = inner index) (index : Nat)
    (value : β) :
    (fun key : Nat × Nat => if key.1 = id then Function.update inner index value key.2
      else outer key) = Function.update outer (id, index) value := by
  funext key
  obtain ⟨owner, other⟩ := key
  simp only [Function.update_apply, Prod.mk.injEq]
  by_cases here : owner = id
  · subst here
    simp only [if_true, true_and, same]
  · simp only [here, if_false, false_and]

end Tables

theorem view_withCatalog (found : machine.store.spaces[id]? = some space) {catalog : Catalog}
    {record : Option PageRecord}
    (changed : catalog.find? = Function.update space.catalog.find? page record) :
    (machine.withSpace id { space with catalog := catalog }).view =
      machine.view.put (id, page) record := by
  rw [view_withSpace found]
  simp only [changed]
  exact View.ext rfl rfl rfl rfl rfl (within_space_update (fun _ => record_eq found) page record)
    (within_space_self fun _ => translation_eq found) (within_space_self fun _ => region_eq found)
    (Function.update_eq_self_iff.mpr (nextRegion_eq found).symm) rfl rfl rfl rfl rfl

theorem view_withDirectory (found : machine.store.spaces[id]? = some space)
    {directory : Directory} {translation : Option Translation}
    (changed : directory.translation =
      Function.update space.directory.translation page translation) :
    (machine.withSpace id { space with directory := directory }).view =
      machine.view.lead (id, page) translation := by
  rw [view_withSpace found]
  simp only [changed]
  exact View.ext rfl rfl rfl rfl rfl (within_space_self fun _ => record_eq found)
    (within_space_update (fun _ => translation_eq found) page translation)
    (within_space_self fun _ => region_eq found)
    (Function.update_eq_self_iff.mpr (nextRegion_eq found).symm) rfl rfl rfl rfl rfl

theorem view_withDirectory_same (found : machine.store.spaces[id]? = some space)
    {directory : Directory} (same : directory.translation = space.directory.translation) :
    (machine.withSpace id { space with directory := directory }).view = machine.view := by
  have changed : directory.translation = Function.update space.directory.translation 0
      (space.directory.translation 0) := by rw [same, Function.update_eq_self]
  rw [view_withDirectory found changed, ← translation_eq found]
  simp [View.lead, Function.update_eq_self]

theorem view_withRegions (found : machine.store.spaces[id]? = some space)
    (regions : Std.ExtTreeMap Nat Region) (nextRegion : Nat) :
    (machine.withSpace id { space with regions := regions, nextRegion := nextRegion }).view =
      { machine.view with
        region := fun key => if key.1 = id then regions[key.2]? else machine.view.region key
        nextRegion := Function.update machine.view.nextRegion id nextRegion } := by
  rw [view_withSpace found]
  have record : (fun key : Nat × Nat => if key.1 = id then space.catalog.find? key.2
      else machine.view.record key) = machine.view.record :=
    within_space_self fun _ => record_eq found
  have translation : (fun key : Nat × Nat => if key.1 = id then
      space.directory.translation key.2 else machine.view.translation key) =
      machine.view.translation :=
    within_space_self fun _ => translation_eq found
  exact View.ext rfl rfl rfl rfl rfl record translation rfl rfl rfl rfl rfl rfl rfl

/-! ## Actions on parts -/

section Parts

variable {ε α : Type} {before : Traced Machine} {log : Array Event}
  {returns : α → Traced Machine → Prop}
  {fails : ε → Traced Machine → Prop} {panics : Panic → Traced Machine → Prop}

theorem ensures_onSwap {action : Action ε SwapArea α} :
    (onSwap action).Ensures before returns fails panics ↔
      action.Ensures ⟨before.state.store.swap, before.log⟩
        (fun value after => returns value ⟨before.state.withSwap after.state, after.log⟩)
        (fun cause after => fails cause ⟨before.state.withSwap after.state, after.log⟩)
        (fun cause after => panics cause ⟨before.state.withSwap after.state, after.log⟩) := by
  simp only [onSwap, onStore, Paged.onStore, ensures_within]
  rfl

theorem ensures_onStorage {action : Action ε Storage α} :
    (onStorage action).Ensures before returns fails panics ↔
      action.Ensures ⟨before.state.store.storage, before.log⟩
        (fun value after => returns value ⟨before.state.withStorage after.state, after.log⟩)
        (fun cause after => fails cause ⟨before.state.withStorage after.state, after.log⟩)
        (fun cause after => panics cause ⟨before.state.withStorage after.state, after.log⟩) := by
  simp only [onStorage, onStore, Paged.onStore, ensures_within]
  rfl

theorem ensures_onSpace (found : machine.store.spaces[id]? = some space)
    {action : Action ε Space α} :
    (onSpace id action).Ensures ⟨machine, log⟩ returns fails panics ↔
      action.Ensures ⟨space, log⟩
        (fun value after => returns value ⟨machine.withSpace id after.state, after.log⟩)
        (fun cause after => fails cause ⟨machine.withSpace id after.state, after.log⟩)
        (fun cause after => panics cause ⟨machine.withSpace id after.state, after.log⟩) := by
  simp only [onSpace, onStore, Paged.onStore, Store.onSpace, Store.space, ensures_within, found]
  rfl

theorem ensures_onCatalog (found : machine.store.spaces[id]? = some space)
    {action : Action ε Catalog α} :
    (onCatalog id action).Ensures ⟨machine, log⟩ returns fails panics ↔
      action.Ensures ⟨space.catalog, log⟩
        (fun value after => returns value
          ⟨machine.withSpace id { space with catalog := after.state }, after.log⟩)
        (fun cause after => fails cause
          ⟨machine.withSpace id { space with catalog := after.state }, after.log⟩)
        (fun cause after => panics cause
          ⟨machine.withSpace id { space with catalog := after.state }, after.log⟩) := by
  rw [onCatalog, ensures_onSpace found, ensures_within]

theorem ensures_space (found : machine.store.spaces[id]? = some space)
    {returns : Space → Traced Machine → Prop} :
    (Machine.space id : Action ε Machine Space).Ensures ⟨machine, log⟩ returns fails panics ↔
      returns space ⟨machine, log⟩ := by
  simp only [Machine.space, look, ensures_bind, ensures_look, ensures_orPanic, Store.space, found]

theorem ensures_contents {frame : Nat} (inside : frame < machine.pool.size)
    {returns : Page → Traced Machine → Prop} :
    (contents frame : Action ε Machine Page).Ensures ⟨machine, log⟩ returns fails panics ↔
      returns (machine.view.contents frame) ⟨machine, log⟩ := by
  simp only [contents, look, ensures_bind, ensures_look, ensures_orPanic,
    Pool.contents_eq inside]
  rfl

@[simp] theorem ensures_updatePool {f : Pool → Pool} {returns : Unit → Traced Machine → Prop} :
    (Paged.updatePool f : Action ε Machine Unit).Ensures before returns fails panics ↔
      returns () ⟨before.state.withPool (f before.state.pool), before.log⟩ :=
  Paged.ensures_updatePool

theorem ensures_changePool {f : Pool → Except Panic Pool} {pool : Pool}
    (done : f machine.pool = .ok pool) {returns : Unit → Traced Machine → Prop} :
    (Paged.changePool f : Action ε Machine Unit).Ensures ⟨machine, log⟩ returns fails panics ↔
      returns () ⟨machine.withPool pool, log⟩ := by
  rw [Paged.ensures_changePool, done]
  rfl

end Parts

end DemandPaging.Machine
