import DemandPaging.Proofs.Bitmap
import DemandPaging.Proofs.Device
import DemandPaging.Proofs.View

namespace DemandPaging.SwapArea

open DemandPaging.Action

variable {before : Traced SwapArea} {slot : Nat}

structure Kept (area : SwapArea) : Prop where
  sized : area.used.Sized
  tidy : area.used.Tidy
  fits : sectorsPerPage * area.used.bits ≤ area.device.size

theorem kept_clear (device : Device) :
    Kept ⟨.clear (device.size / sectorsPerPage), device⟩ :=
  ⟨Bitmap.sized_clear _, Bitmap.tidy_clear _, Nat.mul_div_le ..⟩

theorem inside_of_inUse {area : SwapArea} (kept : area.Kept) (taken : area.inUse slot = true) :
    slot < area.used.bits :=
  kept.tidy slot (of_decide_eq_true taken)

structure Marked (before after : SwapArea) (slot : Nat) (on : Bool) : Prop where
  used : ∀ other, after.used.On other ↔ if other = slot then on = true else before.used.On other
  capacity : after.capacity = before.capacity
  device : after.device = before.device

theorem marked_put {area : SwapArea} (kept : area.Kept) (inside : slot < area.used.bits)
    (on : Bool) : area.Marked { area with used := area.used.put slot on } slot on :=
  ⟨fun other => Bitmap.on_put _ _ _ other (kept.sized.stored inside), rfl, rfl⟩

theorem Marked.inUse {area marked : SwapArea} {on : Bool} (marks : area.Marked marked slot on) :
    marked.inUse = Function.update area.inUse slot on := by
  funext other
  rw [Function.update_apply, SwapArea.inUse]
  simp only [marks.used other]
  split
  · simp
  · rfl

theorem page_congr {area other : SwapArea} (same : area.device.medium = other.device.medium) :
    area.page = other.page := by
  funext slot
  rw [page, page, same]

theorem kept_put {area : SwapArea} (kept : area.Kept) (inside : slot < area.used.bits)
    (on : Bool) : ({ area with used := area.used.put slot on } : SwapArea).Kept :=
  ⟨Bitmap.sized_put kept.sized slot on, Bitmap.tidy_put kept.sized kept.tidy inside on, kept.fits⟩

theorem Kept.congr {area other : SwapArea} (kept : area.Kept) (used : other.used = area.used)
    (size : other.device.size = area.device.size) : other.Kept :=
  ⟨used ▸ kept.sized, used ▸ kept.tidy, by rw [used, size]; exact kept.fits⟩

theorem reserve_marks (kept : before.state.Kept) : reserve.Ensures before
    (fun slot after => slot < before.state.capacity ∧ ¬ before.state.used.On slot ∧
      (∀ lower < slot, before.state.used.On lower) ∧
      before.state.Marked after.state slot true ∧ after.state.Kept)
    (fun cause after => cause = .outOfSwap ∧ after.state = before.state ∧
      ∀ slot < before.state.capacity, before.state.used.On slot) fun _ _ => False := by
  simp only [reserve, ensures_bind, ensures_look]
  split
  · rename_i slot used claimed
    simp only [ensures_bind, ensures_update, ensures_emit, ensures_pure]
    obtain ⟨inside, free, rfl, lowest⟩ := Bitmap.claim?_spec claimed
    exact ⟨inside, free, lowest, marked_put kept inside true, kept_put kept inside true⟩
  · rename_i refused
    simp only [ensures_bind, ensures_emit, ensures_fail]
    exact ⟨trivial, trivial, fun slot => Bitmap.on_of_claim?_eq_none kept.sized refused⟩

theorem reserve_spec (kept : before.state.Kept) : reserve.Ensures before
    (fun slot after => before.state.inUse slot = false ∧ after.state.Kept ∧
      after.state.inUse = Function.update before.state.inUse slot true ∧
      after.state.page = before.state.page ∧ after.state.capacity = before.state.capacity)
    (fun _ after => after.state = before.state ∧
      ∀ slot < before.state.capacity, before.state.inUse slot = true) fun _ _ => False := by
  refine (reserve_marks kept).mono ?_ ?_ fun _ _ never => never
  · rintro slot after ⟨-, free, -, marked, still⟩
    exact ⟨decide_eq_false free, still, marked.inUse,
      page_congr (congrArg Device.medium marked.device), marked.capacity⟩
  · rintro _ after ⟨-, same, full⟩
    exact ⟨same, fun slot inside => decide_eq_true (full slot inside)⟩

theorem ensures_demandUsed {α : Type} {next : Unit → Action PagingError SwapArea α}
    {returns : α → Traced SwapArea → Prop} {fails : PagingError → Traced SwapArea → Prop}
    {panics : Panic → Traced SwapArea → Prop} (kept : before.state.Kept)
    (taken : before.state.inUse slot = true) (otherwise : Panic) :
    (demandUsed slot otherwise >>= next).Ensures before returns fails panics ↔
      (next ()).Ensures before returns fails panics := by
  have inside := inside_of_inUse kept taken
  have on : before.state.used.On slot := of_decide_eq_true taken
  simp [demandUsed, ensures_bind, isUsed, Bitmap.get_eq kept.sized inside, on]

theorem taken_of_demandUsed {α : Type} (otherwise : Panic)
    (next : Unit → Action PagingError SwapArea α) :
    (demandUsed slot otherwise >>= next).Ensures before
      (fun _ _ => before.state.inUse slot = true) (fun _ _ => before.state.inUse slot = true)
      fun _ _ => True := by
  rw [ensures_bind]
  simp only [demandUsed, ensures_bind, ensures_look, ensures_orPanic, isUsed]
  cases got : before.state.used.get slot with
  | error cause => trivial
  | ok used =>
      simp only
      rw [ensures_insist]
      split
      · rename_i on
        subst on
        have taken : before.state.inUse slot = true := decide_eq_true (Bitmap.on_of_get got)
        unfold Ensures
        split
        · exact taken
        · exact taken
        · trivial
      · trivial

theorem release_marks (kept : before.state.Kept) (taken : before.state.inUse slot = true) :
    (release slot).Ensures before
      (fun _ after => before.state.Marked after.state slot false ∧ after.state.Kept)
      (fun _ _ => False) fun _ _ => False := by
  have inside := inside_of_inUse kept taken
  rw [release, ensures_demandUsed kept taken, ensures_bind, ensures_change,
    Bitmap.set_eq kept.sized inside]
  exact ⟨marked_put kept inside false, kept_put kept inside false⟩

theorem release_spec (kept : before.state.Kept) (taken : before.state.inUse slot = true) :
    (release slot).Ensures before
      (fun _ after => after.state.Kept ∧
        after.state.inUse = Function.update before.state.inUse slot false ∧
        after.state.page = before.state.page ∧ after.state.capacity = before.state.capacity)
      (fun _ _ => False) fun _ _ => False := by
  refine (release_marks kept taken).mono ?_ (fun _ _ never => never) fun _ _ never => never
  rintro _ after ⟨marked, still⟩
  exact ⟨still, marked.inUse, page_congr (congrArg Device.medium marked.device), marked.capacity⟩

/-! ## Pages and sectors -/

def sectors (slot : Nat) : List Nat :=
  (List.range sectorsPerPage).map (sectorsPerPage * slot + ·)

def Numbered (slot : Nat) : Prop := sectorsPerPage * slot + sectorsPerPage + 1 < halfWordLimit

theorem numbered_of_inside {area : SwapArea} (kept : area.Kept) (inside : slot < area.used.bits) :
    Numbered slot := by
  have fits := kept.fits
  have narrow := area.device.narrow
  simp only [Numbered, sectorsPerPage, halfWordLimit] at *
  omega

section Numbers

variable (numbered : Numbered slot)
include numbered

theorem firstSector_eq : firstSector slot = .ok (sectorsPerPage * slot) := by
  simp only [Numbered, sectorsPerPage, halfWordLimit] at numbered
  have small : slot * sectorsPerPage < wordLimit := by
    simp only [sectorsPerPage, wordLimit]
    omega
  have cut : slot * sectorsPerPage % halfWordLimit = sectorsPerPage * slot := by
    simp only [sectorsPerPage, halfWordLimit]
    omega
  simp [firstSector, mulWord_eq small, cut, bind, Except.bind, pure, Except.pure]

theorem countSector_eq {i : Nat} (le : i ≤ sectorsPerPage) :
    countSector (sectorsPerPage * slot) i = .ok (sectorsPerPage * slot + i) :=
  if_pos (Nat.lt_of_le_of_lt (by omega) numbered)

theorem storeSector_eq (page : Page) {i : Nat} (small : i < sectorsPerPage) :
    storeSector (sectorsPerPage * slot) page i =
      Device.writeSector (sectorsPerPage * slot + i) (pageSector page i) := by
  rw [storeSector, countSector_eq numbered (Nat.le_of_lt small)]
  rfl

theorem fetchSector_eq {i : Nat} (small : i < sectorsPerPage) :
    fetchSector (sectorsPerPage * slot) i =
      (do return (← Device.readSector (sectorsPerPage * slot + i)).toList) := by
  have all (data : Sector) : data.slice 0 sectorSize = data.toList := Block.slice_all data
  simp only [fetchSector, countSector_eq numbered (Nat.le_of_lt small), orPanic_ok, pure_bind, all]

end Numbers

theorem getElem_pageSector (page : Page) (index i : Nat) (inside : index < 8) (small : i < 512) :
    (pageSector page index)[i] = page[512 * index + i] := by
  have reached : 512 * index + i < 4096 := by omega
  simp [pageSector, Block.ofBytes, Block.getElem_overlay, Block.getElem?_slice, sectorSize, small,
    reached]

theorem getElem?_sectors (row : Sectors) (start count i : Nat) :
    ((List.range count).flatMap fun k => (row.get (start + k)).toList)[i]? =
      if i < 512 * count then some (row.byteAt (512 * start + i)) else none := by
  have length : ∀ count,
      ((List.range count).flatMap fun k => (row.get (start + k)).toList).length = 512 * count :=
    fun count => by simp [List.length_flatMap, Nat.mul_comm]
  induction count with
  | zero => simp
  | succ count ih =>
      rw [List.range_succ, List.flatMap_append, List.getElem?_append, length, ih]
      by_cases early : i < 512 * count
      · rw [if_pos early, if_pos early, if_pos (by omega)]
      · rw [if_neg early]
        simp only [List.flatMap_cons, List.flatMap_nil, List.append_nil]
        by_cases inside : i < 512 * (count + 1)
        · have near : i - 512 * count < 512 := by omega
          have sector : (512 * start + i) / sectorSize = start + count := by
            simp only [sectorSize]
            omega
          have place : (Sectors.place (512 * start + i)).val = i - 512 * count := by
            simp only [Sectors.place, sectorSize]
            omega
          rw [if_pos inside, Sectors.byteAt, sector]
          simp [place, near]
        · rw [if_neg inside]
          refine List.getElem?_eq_none ?_
          simp only [Vector.length_toList]
          omega

theorem flatMap_sectors (area : SwapArea) (slot : Nat) :
    ((List.range sectorsPerPage).flatMap fun i =>
        (area.device.medium.sectorAt (sectorsPerPage * slot + i)).toList) =
      (area.page slot).toList := by
  apply List.ext_getElem?
  intro i
  have found := getElem?_sectors area.device.medium.row (8 * slot) 8 i
  rw [show 512 * (8 * slot) + i = 4096 * slot + i by omega] at found
  simp only [sectorsPerPage, Medium.sectorAt, found]
  split
  · rename_i small
    rw [Vector.getElem?_toList, Vector.getElem?_eq_getElem small]
    simp [page]
  · rename_i outside
    refine (List.getElem?_eq_none ?_).symm
    simp only [Vector.length_toList]
    omega

/-! ## The device under a swap area -/

def SameMake (before after : SwapArea) : Prop := before.device.SameMake after.device

theorem chained_sameMake : Chained SameMake where
  refl area := Device.chained_sameMake.refl area.device
  trans := Device.chained_sameMake.trans

theorem demandUsed_keeps (slot : Nat) (otherwise : Panic) :
    (demandUsed slot otherwise).Keeps SameMake :=
  (keeps_look chained_sameMake).bind chained_sameMake fun _ =>
    (keeps_orPanic chained_sameMake _).bind chained_sameMake fun _ =>
      keeps_insist chained_sameMake _

theorem onDevice_keeps {ε α : Type} {action : Action ε Device α}
    (kept : action.Keeps Device.SameMake) : (onDevice action).Keeps SameMake := by
  intro before
  rw [onDevice, ensures_within]
  exact kept ⟨before.state.device, before.log⟩

theorem store_keeps (slot : Nat) (page : Page) : (store slot page).Keeps SameMake := by
  refine (demandUsed_keeps slot _).bind chained_sameMake fun _ =>
    (keeps_orPanic chained_sameMake _).bind chained_sameMake fun first =>
      (onDevice_keeps (Keeps.mapFailure ?_ _)).bind chained_sameMake fun _ =>
        (keeps_orPanic chained_sameMake _).bind chained_sameMake fun _ => keeps_pure chained_sameMake _
  exact Keeps.forM Device.chained_sameMake _ fun i _ =>
    (keeps_orPanic Device.chained_sameMake _).bind Device.chained_sameMake fun sector =>
      Device.writeSector_keeps sector _

theorem fetchSectors_keeps {ε : Type} (first : Nat) (indices : List Nat) :
    (Transfer.gather (fetchSector first) indices : Action ε Device Transfer).Keeps
      Device.SameMake :=
  Transfer.gather_keeps Device.chained_sameMake _ fun _ _ =>
    (keeps_orPanic Device.chained_sameMake _).bind Device.chained_sameMake fun sector =>
      (Device.readSector_keeps sector).bind Device.chained_sameMake fun _ =>
        keeps_pure Device.chained_sameMake _

theorem fetch_keeps (slot : Nat) : (fetch slot).Keeps SameMake :=
  (demandUsed_keeps slot _).bind chained_sameMake fun _ =>
    (keeps_orPanic chained_sameMake _).bind chained_sameMake fun first =>
      (onDevice_keeps (fetchSectors_keeps first _)).bind
        chained_sameMake fun _ => Keeps.ite ((keeps_orPanic chained_sameMake _).bind
          chained_sameMake fun _ => keeps_pure chained_sameMake _) (keeps_pure chained_sameMake _)

/-! ## Storing and fetching -/

theorem ensures_store {page : Page} {returns : Unit → Traced SwapArea → Prop}
    {fails : PagingError → Traced SwapArea → Prop} {panics : Panic → Traced SwapArea → Prop}
    (kept : before.state.Kept) (taken : before.state.inUse slot = true) :
    (store slot page).Ensures before returns fails panics ↔
      ((List.range sectorsPerPage).forM (storeSector (sectorsPerPage * slot) page)).Ensures
        ⟨before.state.device, before.log⟩
        (fun _ after => returns () ⟨⟨before.state.used, after.state⟩, after.log⟩)
        (fun cause after =>
          fails (.device cause) ⟨⟨before.state.used, after.state⟩, after.log⟩)
        fun cause after => panics cause ⟨⟨before.state.used, after.state⟩, after.log⟩ := by
  have numbered := numbered_of_inside kept (inside_of_inUse kept taken)
  rw [store, ensures_demandUsed kept taken, ensures_passed (firstSector_eq numbered), ensures_bind,
    onDevice, ensures_within]
  simp only [ensures_mapFailure, ensures_bind, ensures_orPanic,
    countSector_eq numbered (Nat.le_refl _), ensures_pure]

theorem ensures_fetch {returns : Transfer → Traced SwapArea → Prop}
    {fails : PagingError → Traced SwapArea → Prop} {panics : Panic → Traced SwapArea → Prop}
    (kept : before.state.Kept) (taken : before.state.inUse slot = true) :
    (fetch slot).Ensures before returns fails panics ↔
      (Transfer.gather (fetchSector (sectorsPerPage * slot)) (List.range sectorsPerPage) :
        Action PagingError Device Transfer).Ensures ⟨before.state.device, before.log⟩
        (fun transfer after =>
          returns transfer ⟨⟨before.state.used, after.state⟩, after.log⟩)
        (fun cause after => fails cause ⟨⟨before.state.used, after.state⟩, after.log⟩)
        fun cause after => panics cause ⟨⟨before.state.used, after.state⟩, after.log⟩ := by
  have numbered := numbered_of_inside kept (inside_of_inUse kept taken)
  rw [fetch, ensures_demandUsed kept taken, ensures_passed (firstSector_eq numbered), ensures_bind,
    onDevice, ensures_within]
  simp only
  apply iff_of_eq
  congr 1
  funext transfer after
  split
  · rw [ensures_passed (countSector_eq numbered (Nat.le_refl _)), ensures_pure]
  · rfl

theorem fetch_spec (kept : before.state.Kept) (taken : before.state.inUse slot = true) :
    (fetch slot).Ensures before
      (fun transfer after => after.state.used = before.state.used ∧ after.state.Kept ∧
        after.state.device.medium = before.state.device.medium ∧
        transfer.bytes <+: (before.state.page slot).toList ∧
        (transfer.failure = none → transfer.bytes = (before.state.page slot).toList))
      (fun _ _ => False) fun cause after => cause = .countOverflow ∧ after.state.device.Worn := by
  rw [ensures_fetch kept taken]
  refine ((Transfer.gather_spec
    (fun i => (before.state.device.medium.sectorAt (sectorsPerPage * slot + i)).toList)
    (fun after => after.state.medium = before.state.device.medium)
    (List.range sectorsPerPage) ?_ rfl).and (fetchSectors_keeps _ _ _)).mono ?_
    (fun _ _ never => never.1) fun _ _ worn => worn.1
  · intro i small middle same
    rw [fetchSector_eq (numbered_of_inside kept (inside_of_inUse kept taken))
      (List.mem_range.mp small), ensures_bind]
    refine (Device.readSector_spec _).mono ?_ ?_ fun _ _ worn => worn
    · rintro data after ⟨still, rfl⟩
      exact ⟨still.trans same, by rw [same]⟩
    · intro _ after still
      exact still.trans same
  · rintro transfer after ⟨⟨same, all⟩, make⟩
    rw [flatMap_sectors] at all
    exact ⟨rfl, kept.congr rfl make.size, same, all⟩

theorem storeSectors_spec (numbered : Numbered slot) (page : Page) (indices : List Nat)
    (within : ∀ i ∈ indices, i < 8) {before : Traced Device} :
    (indices.forM (storeSector (sectorsPerPage * slot) page)).Ensures before
      (fun _ after => ∀ sector, after.state.medium.row.get sector =
        if 8 * slot ≤ sector ∧ sector - 8 * slot ∈ indices then
          pageSector page (sector - 8 * slot)
        else before.state.medium.row.get sector)
      (fun _ after => ∀ sector, sector / 8 ≠ slot →
        after.state.medium.row.get sector = before.state.medium.row.get sector)
      Device.Overflowed := by
  induction indices generalizing before with
  | nil => simp
  | cons index rest ih =>
      have inside := within index List.mem_cons_self
      rw [ensures_forM_cons, storeSector_eq numbered page inside]
      refine (Device.writeSector_spec _ _).mono ?_ ?_ fun _ _ worn => worn
      · intro _ middle written
        have here (sector : Nat) : middle.state.medium.row.get sector =
            if sector = 8 * slot + index then pageSector page index
            else before.state.medium.row.get sector := by
          rw [written]
          exact Sectors.get_put ..
        refine (ih fun i member => within i (List.mem_cons_of_mem _ member)).mono ?_ ?_
          fun _ _ worn => worn
        · intro _ after later sector
          simp only [later sector, here sector, List.mem_cons]
          by_cases same : sector = 8 * slot + index
          · have place : sector - 8 * slot = index := by omega
            simp [same]
          · have other : 8 * slot ≤ sector → sector - 8 * slot ≠ index := by omega
            by_cases below : 8 * slot ≤ sector
            · simp [same, below, other below]
            · simp [same, below]
        · intro _ after later sector outside
          rw [later sector outside, here sector, if_neg (by omega)]
      · intro _ after same sector _
        rw [same]

theorem getElem_page (area : SwapArea) (i : Nat) (small : i < 4096) :
    (area.page slot)[i] = (area.device.medium.row.get (8 * slot + i / 512))[i % 512] := by
  have sector : (4096 * slot + i) / 512 = 8 * slot + i / 512 := by omega
  have place : (4096 * slot + i) % 512 = i % 512 := by omega
  simp only [page, Vector.getElem_ofFn, Sectors.byteAt, Sectors.place, sectorSize, sector, place,
    Fin.getElem_fin]

/-- A slot that is stored to has the sectors of the page, unless a sector fails. Then some of them may
be there, but no sector outside of the slot has changed. -/
theorem store_sectors (kept : before.state.Kept) (taken : before.state.inUse slot = true)
    (page : Page) : (store slot page).Ensures before
      (fun _ after => after.state.used = before.state.used ∧
        ∀ sector, after.state.device.medium.sectorAt sector =
          if sector / 8 = slot then pageSector page (sector % 8)
          else before.state.device.medium.sectorAt sector)
      (fun cause after => (∃ failure, cause = .device failure) ∧
        after.state.used = before.state.used ∧
        ∀ sector, sector / 8 ≠ slot → after.state.device.medium.sectorAt sector =
          before.state.device.medium.sectorAt sector)
      fun cause after => cause = .countOverflow ∧ after.state.device.Worn := by
  rw [ensures_store kept taken]
  have numbered := numbered_of_inside kept (inside_of_inUse kept taken)
  refine (storeSectors_spec numbered page _ fun i member => List.mem_range.mp member).mono ?_ ?_
    fun _ _ worn => worn
  · intro _ after written
    refine ⟨rfl, fun sector => (written sector).trans ?_⟩
    simp only [List.mem_range]
    by_cases here : sector / 8 = slot
    · rw [if_pos (by omega), if_pos here, show sector - 8 * slot = sector % 8 by omega]
    · rw [if_neg (by omega), if_neg here]
      rfl
  · intro _ after outside
    exact ⟨⟨_, rfl⟩, rfl, outside⟩

theorem page_of_outside {area other : SwapArea} {slot : Nat}
    (same : ∀ sector, sector / 8 ≠ slot →
      other.device.medium.sectorAt sector = area.device.medium.sectorAt sector) :
    other.page = Function.update area.page slot (other.page slot) := by
  rw [Function.eq_update_iff]
  refine ⟨rfl, fun apart distinct => Vector.ext fun i small => ?_⟩
  rw [getElem_page, getElem_page]
  exact congrArg (·[i % 512]) (same (8 * apart + i / 512) (by omega))

theorem store_spec (kept : before.state.Kept) (taken : before.state.inUse slot = true)
    (page : Page) : (store slot page).Ensures before
      (fun _ after => after.state.used = before.state.used ∧ after.state.Kept ∧
        after.state.page = Function.update before.state.page slot page)
      (fun cause after => (∃ failure, cause = .device failure) ∧
        after.state.used = before.state.used ∧ after.state.Kept ∧
        ∃ junk, after.state.page = Function.update before.state.page slot junk)
      fun cause after => cause = .countOverflow ∧ after.state.device.Worn := by
  refine ((store_sectors kept taken page).and (store_keeps slot page before)).mono ?_ ?_
    fun _ _ worn => worn.1
  · rintro _ after ⟨⟨same, written⟩, make⟩
    refine ⟨same, kept.congr same make.size, (page_of_outside fun sector apart => ?_).trans (congrArg _ (Vector.ext ?_))⟩
    · rw [written, if_neg apart]
    · intro i small
      have sector : (8 * slot + i / 512) / 8 = slot := by omega
      have place : (8 * slot + i / 512) % 8 = i / 512 := by omega
      have filled := written (8 * slot + i / 512)
      rw [if_pos sector, place] at filled
      rw [getElem_page]
      refine (congrArg (·[i % 512]) filled).trans ?_
      rw [getElem_pageSector page (i / 512) (i % 512) (by omega) (by omega)]
      simp only [Nat.div_add_mod]
  · rintro cause after ⟨⟨failure, same, outside⟩, make⟩
    exact ⟨failure, same, kept.congr same make.size, _, page_of_outside outside⟩

end DemandPaging.SwapArea
