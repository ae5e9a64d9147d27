import DemandPaging.Proofs.Parallel
import DemandPaging.Proofs.SwapArea

/-!
# Swap space as a store of pages

Whatever was reserved, released, stored and fetched before, and whatever failed, the slots that were
reserved and not released are the slots in use, and a slot has the page that was last stored in it,
unless a later attempt to store failed (`store_faithful`). Storing and fetching depend on the
sectors of their slot only, and change no others.
-/

namespace DemandPaging

open DemandPaging.Action

/-! ## Where a transfer looks -/

namespace Device

variable {part : Nat → Prop} {sector : Nat}

def Alike (part : Nat → Prop) (one other : Device) : Prop :=
  ∃ row, other = { one with medium := ⟨one.medium.size, row⟩ } ∧
    ∀ sector, part sector → row.get sector = one.medium.sectorAt sector

theorem readSector_parallel (inside : part sector) :
    Parallel (Alike part) (readSector sector) (readSector sector) := by
  refine Parallel.look ?_
  rintro one _ ⟨row, rfl, same⟩
  have found : Medium.read? ⟨one.medium.size, row⟩ sector = one.medium.read? sector := by
    simp only [Medium.read?, Medium.sectorAt, same sector inside]
  refine (parallel_require _ _).bind fun _ => (parallel_update ?_).bind fun _ =>
    (parallel_require _ _).bind fun _ => ?_
  · rintro one _ ⟨row, rfl, same⟩
    exact ⟨row, rfl, same⟩
  · simp only [found]
    cases one.medium.read? sector with
    | none => exact parallel_fail _
    | some data =>
        refine (parallel_orPanic _).bind fun reads => (parallel_update ?_).bind fun _ =>
          parallel_pure data
        rintro one _ ⟨row, rfl, same⟩
        exact ⟨row, rfl, same⟩

theorem writeSector_parallel (sector : Nat) (data : Sector) :
    Parallel (Alike part) (writeSector sector data) (writeSector sector data) := by
  refine Parallel.look ?_
  rintro one _ ⟨row, rfl, same⟩
  refine (parallel_require _ _).bind fun _ => (parallel_require _ _).bind fun _ =>
    (parallel_update ?_).bind fun _ => (parallel_require _ _).bind fun _ => ?_
  · rintro one _ ⟨row, rfl, same⟩
    exact ⟨row, rfl, same⟩
  · by_cases inside : sector < one.medium.size
    · simp only [Medium.write?, inside, if_true]
      refine (parallel_orPanic _).bind fun writes => parallel_update ?_
      rintro now _ ⟨-, rfl, -⟩
      refine ⟨row.put sector data, rfl, fun other there => ?_⟩
      rw [Sectors.get_put, same other there]
      exact (Sectors.get_put ..).symm
    · simp only [Medium.write?, inside, if_false]
      exact parallel_fail _

end Device

namespace SwapArea

variable {slot : Nat}

def Alike (slot : Nat) (one other : SwapArea) : Prop :=
  one.used = other.used ∧ Device.Alike (· / sectorsPerPage = slot) one.device other.device

theorem demandUsed_parallel (otherwise : Panic) :
    Parallel (Alike slot) (demandUsed slot otherwise) (demandUsed slot otherwise) := by
  refine Parallel.look fun one two alike => ?_
  rw [show two.isUsed slot = one.isUsed slot by rw [isUsed, isUsed, alike.1]]
  exact (parallel_orPanic _).bind fun _ => parallel_insist _ _

theorem onDevice_parallel {ε α : Type} {action : Action ε Device α}
    (parallel : Parallel (Device.Alike (· / sectorsPerPage = slot)) action action) :
    Parallel (Alike slot) (onDevice action) (onDevice action) :=
  parallel.within fun one two alike =>
    ⟨one.device, two.device, rfl, rfl, alike.2, fun _ _ closed => ⟨alike.1, closed⟩⟩

theorem mem_sectors_iff {sector : Nat} : sector ∈ sectors slot ↔ sector / sectorsPerPage = slot := by
  simp only [sectors, List.mem_map, List.mem_range, sectorsPerPage]
  constructor
  · rintro ⟨i, small, rfl⟩
    omega
  · intro here
    exact ⟨sector % 8, by omega, by omega⟩

theorem store_parallel (slot : Nat) (page : Page) :
    Parallel (Alike slot) (store slot page) (store slot page) := by
  refine (demandUsed_parallel _).bind fun _ => (parallel_orPanic _).bind fun first =>
    Parallel.bind (onDevice_parallel (Parallel.mapFailure (Parallel.forM _ fun i _ => ?_) _))
      fun _ => (parallel_orPanic _).bind fun _ => parallel_pure _
  exact (parallel_orPanic _).bind fun sector => Device.writeSector_parallel _ _

theorem fetch_parallel (numbered : Numbered slot) :
    Parallel (Alike slot) (fetch slot) (fetch slot) := by
  refine (demandUsed_parallel _).bind fun _ => ?_
  rw [firstSector_eq numbered, orPanic_ok, pure_bind]
  refine Parallel.bind (onDevice_parallel (Parallel.gather _ fun i small => ?_)) fun transfer => ?_
  · have small := List.mem_range.mp small
    have inside : (sectorsPerPage * slot + i) / sectorsPerPage = slot := by
      simp only [sectorsPerPage] at *
      omega
    have read : Parallel (Device.Alike (· / sectorsPerPage = slot))
        (Device.readSector (sectorsPerPage * slot + i))
        (Device.readSector (sectorsPerPage * slot + i)) := Device.readSector_parallel inside
    rw [fetchSector_eq numbered small]
    exact read.bind fun _ => parallel_pure _
  · dsimp only
    split
    · exact (parallel_orPanic _).bind fun _ => parallel_pure _
    · exact parallel_pure _

/-! ## Slots that can always be transferred -/

section Serves

variable {now : Traced SwapArea} {stop : Nat} (kept : now.state.Kept)
  (taken : now.state.inUse slot = true) (serves : now.state.device.Serves stop)
  (inside : ∀ sector ∈ sectors slot, sectorSize * sector < stop)
include kept taken serves inside

theorem store_serves (page : Page) :
    (store slot page).Ensures now (fun _ _ => True) (fun _ _ => False) fun _ _ => True := by
  rw [ensures_store kept taken]
  have numbered := numbered_of_inside kept (inside_of_inUse kept taken)
  refine (Ensures.forM (fun coming (after : Traced Device) => after.state.Serves stop ∧
    ∀ i ∈ coming, i < sectorsPerPage) ?_ _ ⟨serves, fun i => List.mem_range.mp⟩).mono
    (fun _ _ _ => trivial) (fun _ _ never => never) fun _ _ panicked => panicked
  rintro i rest middle ⟨still, small⟩
  obtain ⟨here, there⟩ := List.forall_mem_cons.mp small
  have reached := inside _ (List.mem_map_of_mem (List.mem_range.mpr here))
  rw [storeSector_eq numbered page here]
  exact (Device.writeSector_serves still reached _).mono (fun _ _ later => ⟨later, there⟩)
    (fun _ _ never => never) fun _ _ panicked => panicked

theorem fetch_serves :
    (fetch slot).Ensures now (fun transfer _ => transfer.failure = none) (fun _ _ => False)
      fun _ _ => True := by
  rw [ensures_fetch kept taken]
  have numbered := numbered_of_inside kept (inside_of_inUse kept taken)
  have read (i : Nat) (member : i ∈ List.range sectorsPerPage) (middle : Traced Device)
      (still : middle.state.Serves stop) : (fetchSector (sectorsPerPage * slot) i).Ensures middle
        (fun _ after => after.state.Serves stop) (fun _ _ => False) fun _ _ => True := by
    rw [fetchSector_eq numbered (List.mem_range.mp member), ensures_bind]
    exact Device.readSector_serves still (inside _ (List.mem_map_of_mem member))
  exact (Transfer.gather_complete (fun after : Traced Device => after.state.Serves stop) _ read
    serves).mono (fun _ _ complete => complete.2) (fun _ _ never => never) fun _ _ _ => trivial

end Serves

/-! ## Histories -/

inductive Entry where
  | reserved (slot : Nat)
  | refused (cause : PagingError)
  | released (slot : Nat)
  | stored (slot : Nat) (page : Page)
  | spoiled (slot : Nat) (page : Page) (cause : PagingError)
  | fetched (slot : Nat) (transfer : Transfer)

def Entry.Happens (entry : Entry) (before after : Traced SwapArea) : Prop :=
  match entry with
  | .reserved slot => reserve before = .ok slot after
  | .refused cause => reserve before = .error (.failed cause) after
  | .released slot => release slot before = .ok () after
  | .stored slot page => store slot page before = .ok () after
  | .spoiled slot page cause => store slot page before = .error (.failed cause) after
  | .fetched slot transfer => fetch slot before = .ok transfer after

/-- What happened since `first`, the latest first. -/
inductive History (first : Traced SwapArea) : List Entry → Traced SwapArea → Prop where
  | start : History first [] first
  | next {entries : List Entry} {entry : Entry} {before after : Traced SwapArea}
      (earlier : History first entries before) (happens : entry.Happens before after) :
      History first (entry :: entries) after

def outstanding : List Entry → List Nat
  | [] => []
  | .reserved slot :: earlier => slot :: outstanding earlier
  | .released slot :: earlier => (outstanding earlier).erase slot
  | _ :: earlier => outstanding earlier

def written : List Entry → Nat → Option Page
  | [] => fun _ => none
  | .stored slot page :: earlier => Function.update (written earlier) slot (some page)
  | .spoiled slot _ _ :: earlier => Function.update (written earlier) slot none
  | _ :: earlier => written earlier

structure Tracks (size : Nat) (entries : List Entry) (area : SwapArea) : Prop where
  kept : area.Kept
  sized : area.device.size = size
  capacity : area.capacity = size / sectorsPerPage
  live : ∀ slot, area.used.On slot ↔ slot ∈ outstanding entries
  distinct : (outstanding entries).Nodup
  pages : ∀ slot page, written entries slot = some page → area.page slot = page

variable {size : Nat} {entries : List Entry} {before after : Traced SwapArea}

theorem Tracks.taken {area : SwapArea} (tracks : Tracks size entries area)
    (member : slot ∈ outstanding entries) : area.inUse slot = true :=
  decide_eq_true ((tracks.live slot).mpr member)

theorem tracks_attach {device : Device} {area : SwapArea} (attached : attach device = .ok area) :
    Tracks device.size [] area := by
  unfold attach at attached
  split at attached
  · cases attached
    refine ⟨kept_clear device, rfl, rfl, fun slot => ?_, .nil, nofun⟩
    simp [Bitmap.not_on_clear, outstanding]
  · cases attached

theorem Tracks.marked {slot : Nat} {on : Bool} {entry : Entry}
    (tracks : Tracks size entries before.state) (kept : after.state.Kept)
    (marked : before.state.Marked after.state slot on)
    (live : ∀ other, other ∈ outstanding (entry :: entries) ↔
      if other = slot then on = true else other ∈ outstanding entries)
    (distinct : (outstanding (entry :: entries)).Nodup)
    (noted : written (entry :: entries) = written entries) :
    Tracks size (entry :: entries) after.state := by
  refine ⟨kept, marked.device ▸ tracks.sized, marked.capacity.trans tracks.capacity,
    fun other => ?_, distinct, fun other page found => ?_⟩
  · rw [marked.used other, live, tracks.live]
  · rw [page_congr (congrArg Device.medium marked.device)]
    exact tracks.pages other page (noted ▸ found)

theorem Tracks.reserved {slot : Nat} (tracks : Tracks size entries before.state)
    (ran : reserve before = .ok slot after) :
    Tracks size (.reserved slot :: entries) after.state := by
  obtain ⟨-, free, -, marked, kept⟩ := (reserve_marks tracks.kept).returned ran
  refine tracks.marked kept marked (fun other => ?_)
    (List.nodup_cons.mpr ⟨fun member => free ((tracks.live slot).mpr member), tracks.distinct⟩) rfl
  rw [outstanding, List.mem_cons]
  by_cases same : other = slot <;> simp [same]

theorem Tracks.released {slot : Nat} (tracks : Tracks size entries before.state)
    (ran : release slot before = .ok () after) :
    Tracks size (.released slot :: entries) after.state := by
  have taken := (taken_of_demandUsed _ _).returned ran
  obtain ⟨marked, kept⟩ := (release_marks tracks.kept taken).returned ran
  refine tracks.marked kept marked (fun other => ?_) (tracks.distinct.erase slot) rfl
  rw [outstanding, tracks.distinct.mem_erase_iff]
  by_cases same : other = slot <;> simp [same]

theorem Tracks.rewritten {slot : Nat} {page : Page} {entry : Entry} {last : Option Page}
    (tracks : Tracks size entries before.state) (make : before.state.SameMake after.state)
    (used : after.state.used = before.state.used)
    (rewritten : after.state.page = Function.update before.state.page slot page)
    (same : outstanding (entry :: entries) = outstanding entries)
    (noted : written (entry :: entries) = Function.update (written entries) slot last)
    (stored : ∀ found, last = some found → found = page) :
    Tracks size (entry :: entries) after.state := by
  -- Which slots are in use is as before, so that only the pages are left to be compared.
  refine ⟨?_, make.size.trans tracks.sized, ?_, fun other => ?_, same ▸ tracks.distinct,
    fun other found there => ?_⟩
  · exact tracks.kept.congr used make.size
  · rw [SwapArea.capacity, used]
    exact tracks.capacity
  · rw [used, same]
    exact tracks.live other
  · rw [noted, Function.update_apply] at there
    rw [rewritten, Function.update_apply]
    split at there
    · rename_i here
      rw [if_pos here]
      exact (stored found there).symm
    · rename_i apart
      rw [if_neg apart]
      exact tracks.pages other found there

theorem Tracks.next {entry : Entry} (tracks : Tracks size entries before.state)
    (happens : entry.Happens before after) : Tracks size (entry :: entries) after.state := by
  cases entry with
  | reserved slot => exact tracks.reserved happens
  | refused cause =>
      obtain ⟨-, same, -⟩ := (reserve_marks tracks.kept).failed happens
      rw [same]
      exact { tracks with }
  | released slot => exact tracks.released happens
  | stored slot page =>
      have taken := (taken_of_demandUsed _ _).returned happens
      obtain ⟨used, -, rewritten⟩ := (store_spec tracks.kept taken page).returned happens
      refine tracks.rewritten ((store_keeps slot page before).returned happens) used rewritten rfl
        rfl ?_
      rintro _ ⟨⟩
      rfl
  | spoiled slot page cause =>
      have taken := (taken_of_demandUsed _ _).failed happens
      obtain ⟨-, used, -, junk, rewritten⟩ := (store_spec tracks.kept taken page).failed happens
      refine tracks.rewritten ((store_keeps slot page before).failed happens) used rewritten rfl
        rfl ?_
      rintro _ ⟨⟩
  | fetched slot transfer =>
      have taken := (taken_of_demandUsed _ _).returned happens
      obtain ⟨used, -, medium, -⟩ := (fetch_spec tracks.kept taken).returned happens
      refine tracks.rewritten ((fetch_keeps slot before).returned happens) used
        ((page_congr medium).trans (Function.update_eq_self slot _).symm) rfl
        (Function.update_eq_self slot _).symm fun found there => (tracks.pages slot found there).symm

theorem History.tracks {first now : Traced SwapArea} (history : History first entries now)
    (tracks : Tracks size [] first.state) : Tracks size entries now.state := by
  induction history with
  | start => exact tracks
  | next earlier happens ih => exact ih.next happens

/-! ## What may be asked next -/

structure SameOutside (slot : Nat) (before after : SwapArea) : Prop where
  used : after.used = before.used
  sectors : ∀ sector, sector / sectorsPerPage ≠ slot →
    after.device.medium.sectorAt sector = before.device.medium.sectorAt sector
  pages : ∀ other, other ≠ slot → after.page other = before.page other

/-- How a page is stored in a slot, always on a device without faults, and that only the sectors of the
slot are looked at. -/
structure Stores (now : Traced SwapArea) (slot : Nat) (page : Page) : Prop where
  ends : (store slot page).Ensures now
    (fun _ after => SameOutside slot now.state after.state ∧ after.state.page slot = page)
    (fun cause after => SameOutside slot now.state after.state ∧ ∃ failure, cause = .device failure)
    fun cause after => cause = .countOverflow ∧ after.state.device.Worn
  succeeds : now.state.device.Serves (sectorSize * now.state.device.size) →
    (store slot page).Ensures now (fun _ _ => True) (fun _ _ => False) fun _ _ => True
  looks : ∀ other, Alike slot now.state other →
    InStep (Alike slot) (store slot page now) (store slot page ⟨other, now.log⟩)

structure Fetches (now : Traced SwapArea) (slot : Nat) (page : Option Page) : Prop where
  ends : (fetch slot).Ensures now
    (fun transfer after => after.state.used = now.state.used ∧
      after.state.device.medium = now.state.device.medium ∧ (transfer.failure = none →
        ∀ found, page = some found → transfer.bytes = found.toList))
    (fun _ _ => False) fun cause after => cause = .countOverflow ∧ after.state.device.Worn
  succeeds : now.state.device.Serves (sectorSize * now.state.device.size) →
    (fetch slot).Ensures now (fun transfer _ => transfer.failure = none) (fun _ _ => False)
      fun _ _ => True
  looks : ∀ other, Alike slot now.state other →
    InStep (Alike slot) (fetch slot now) (fetch slot ⟨other, now.log⟩)

structure Addressed (size slot : Nat) : Prop where
  inside : ∀ sector ∈ sectors slot, sector / sectorsPerPage = slot ∧ sector < size
  countable : sectorsPerPage * slot + sectorsPerPage + 1 < halfWordLimit

/-- A swap area on a device of `size` sectors, after all that has happened to it. -/
structure Faithful (size : Nat) (entries : List Entry) (now : Traced SwapArea) : Prop where
  used : ∀ slot, now.state.used.On slot ↔ slot ∈ outstanding entries
  distinct : (outstanding entries).Nodup
  addressed : ∀ slot ∈ outstanding entries, Addressed size slot
  reserves : reserve.Ensures now
    (fun slot after => slot < size / sectorsPerPage ∧ slot ∉ outstanding entries ∧
      (∀ lower < slot, lower ∈ outstanding entries) ∧ now.state.Marked after.state slot true)
    (fun cause after => cause = .outOfSwap ∧ after.state = now.state ∧
      ∀ slot < size / sectorsPerPage, slot ∈ outstanding entries)
    fun _ _ => False
  releases : ∀ slot ∈ outstanding entries, (release slot).Ensures now
    (fun _ after => now.state.Marked after.state slot false) (fun _ _ => False) fun _ _ => False
  stores : ∀ slot ∈ outstanding entries, ∀ page, Stores now slot page
  fetches : ∀ slot ∈ outstanding entries, Fetches now slot (written entries slot)

variable {now : Traced SwapArea} {slot : Nat}

theorem Tracks.addressed {area : SwapArea} (tracks : Tracks size entries area)
    (small : size < halfWordLimit) (member : slot ∈ outstanding entries) : Addressed size slot := by
  have inside := inside_of_inUse tracks.kept (tracks.taken member)
  have counted : area.used.bits = size / sectorsPerPage := tracks.capacity
  rw [counted] at inside
  simp only [sectorsPerPage, halfWordLimit] at *
  refine ⟨fun sector there => ?_, by simp only [sectorsPerPage, halfWordLimit]; omega⟩
  have here := mem_sectors_iff.mp there
  simp only [sectorsPerPage] at here
  exact ⟨here, by omega⟩

theorem Tracks.reserves (tracks : Tracks size entries now.state) : reserve.Ensures now
    (fun slot after => slot < size / sectorsPerPage ∧ slot ∉ outstanding entries ∧
      (∀ lower < slot, lower ∈ outstanding entries) ∧ now.state.Marked after.state slot true)
    (fun cause after => cause = .outOfSwap ∧ after.state = now.state ∧
      ∀ slot < size / sectorsPerPage, slot ∈ outstanding entries)
    fun _ _ => False := by
  refine (reserve_marks tracks.kept).mono ?_ ?_ fun _ _ never => never
  · rintro slot after ⟨inside, free, lowest, marked, -⟩
    exact ⟨tracks.capacity ▸ inside, fun member => free ((tracks.live slot).mpr member),
      fun lower less => (tracks.live lower).mp (lowest lower less), marked⟩
  · rintro cause after ⟨outOfSwap, same, full⟩
    exact ⟨outOfSwap, same, fun slot inside =>
      (tracks.live slot).mp (full slot (tracks.capacity.symm ▸ inside))⟩

theorem Tracks.present (tracks : Tracks size entries now.state)
    (member : slot ∈ outstanding entries) :
    ∀ sector ∈ sectors slot, sectorSize * sector < sectorSize * now.state.device.size := by
  have inside := inside_of_inUse tracks.kept (tracks.taken member)
  have counted : now.state.used.bits = size / sectorsPerPage := tracks.capacity
  rw [counted] at inside
  intro sector there
  have here := mem_sectors_iff.mp there
  rw [tracks.sized]
  simp only [sectorsPerPage, sectorSize] at *
  omega

theorem Tracks.stores (tracks : Tracks size entries now.state)
    (member : slot ∈ outstanding entries) (page : Page) : Stores now slot page := by
  have taken := tracks.taken member
  refine ⟨?_, fun serves => store_serves tracks.kept taken serves (tracks.present member) page,
    fun other alike => store_parallel slot page now.state other now.log alike⟩
  have outside {after : SwapArea} (used : after.used = now.state.used)
      (same : ∀ sector, sector / sectorsPerPage ≠ slot →
        after.device.medium.sectorAt sector = now.state.device.medium.sectorAt sector) :
      SameOutside slot now.state after := by
    refine ⟨used, same, fun other apart => ?_⟩
    rw [page_of_outside same, Function.update_of_ne apart]
  refine ((store_sectors tracks.kept taken page).and (store_spec tracks.kept taken page)).mono ?_ ?_
    fun _ _ worn => worn.1
  · rintro _ after ⟨⟨used, sectors⟩, -, -, stored⟩
    exact ⟨outside used fun sector apart => (sectors sector).trans (if_neg apart),
      by rw [stored, Function.update_self]⟩
  · rintro cause after ⟨⟨failure, used, sectors⟩, -⟩
    exact ⟨outside used sectors, failure⟩

theorem Tracks.fetches (tracks : Tracks size entries now.state)
    (member : slot ∈ outstanding entries) : Fetches now slot (written entries slot) := by
  have taken := tracks.taken member
  refine ⟨?_, fun serves => fetch_serves tracks.kept taken serves (tracks.present member),
    fun other alike => fetch_parallel
      (numbered_of_inside tracks.kept (inside_of_inUse tracks.kept taken)) now.state other now.log
      alike⟩
  refine (fetch_spec tracks.kept taken).mono ?_ (fun _ _ never => never)
    fun _ _ worn => worn
  rintro transfer after ⟨used, -, medium, -, whole⟩
  refine ⟨used, medium, fun complete found there => ?_⟩
  rw [whole complete, tracks.pages slot found there]

theorem store_faithful {device : Device} {area : SwapArea} {log : Array Event}
    (attached : attach device = .ok area)
    (history : History ⟨area, log⟩ entries now) : Faithful device.size entries now := by
  have tracks := history.tracks (tracks_attach attached)
  refine ⟨tracks.live, tracks.distinct, fun slot => tracks.addressed device.narrow, tracks.reserves,
    fun slot member => ?_, fun slot => tracks.stores, fun slot => tracks.fetches⟩
  exact (release_marks tracks.kept (tracks.taken member)).mono (fun _ _ both => both.1)
    (fun _ _ never => never) fun _ _ never => never

/-- Of two slots, the second is on sectors that are missing from its second one on. -/
theorem store_faithful_of_missing_sectors : ∃ (device : Device) (area : SwapArea) (page : Page)
    (before after : Traced SwapArea) (transfer : Transfer),
    attach device = .ok area ∧
      History ⟨area, #[]⟩ [.spoiled 1 (Block.zero 4096) (.device .sectorOutOfBounds),
        .stored 0 page, .reserved 1, .reserved 0] before ∧
      fetch 0 before = .ok transfer after ∧ transfer.bytes = page.toList := by
  let device : Device :=
    { name := "swap", kind := .swap, size := 16, medium := ⟨9, {}⟩ }
  let area : SwapArea := ⟨.clear (device.size / sectorsPerPage), device⟩
  let page : Page := Vector.replicate 4096 7
  have ran : (do
      let first ← reserve
      let second ← reserve
      store 0 page
      let outcome ← (store 1 (Block.zero 4096)).attempt
      let transfer ← fetch 0
      return (first, second, outcome, transfer.failure) :
        Action PagingError SwapArea _).returned? ⟨area, #[]⟩ =
      some (0, 1, .error (.device .sectorOutOfBounds), none) := by decide +kernel
  obtain ⟨last, ran⟩ := exists_of_returned? ran
  obtain ⟨first, one, reserved, ran⟩ := exists_of_bind ran
  obtain ⟨second, two, reserved', ran⟩ := exists_of_bind ran
  obtain ⟨_, three, stored, ran⟩ := exists_of_bind ran
  obtain ⟨outcome, four, spoiled, ran⟩ := exists_of_bind ran
  obtain ⟨transfer, after, fetched, ran⟩ := exists_of_bind ran
  have ended : EStateM.Result.ok (first, second, outcome, transfer.failure) after =
    .ok (0, 1, .error (.device .sectorOutOfBounds), none) last := ran
  simp only [EStateM.Result.ok.injEq, Prod.mk.injEq] at ended
  obtain ⟨⟨rfl, rfl, rfl, complete⟩, rfl⟩ := ended
  have history : History ⟨area, #[]⟩ [.spoiled 1 (Block.zero 4096) (.device .sectorOutOfBounds),
      .stored 0 page, .reserved 1, .reserved 0] four := by
    refine .next ?_ (show Entry.Happens _ three four from failed_of_attempt spoiled)
    refine .next ?_ (show Entry.Happens _ two three from stored)
    refine .next ?_ (show Entry.Happens _ one two from reserved')
    exact .next .start (show Entry.Happens _ ⟨area, #[]⟩ one from reserved)
  have attached : attach device = .ok area := if_pos (by rfl)
  have known := (store_faithful attached history).fetches 0 (by decide)
  exact ⟨device, area, page, four, after, transfer, attached, history, fetched,
    (known.ends.returned fetched).2.2 complete page rfl⟩

end SwapArea

end DemandPaging
