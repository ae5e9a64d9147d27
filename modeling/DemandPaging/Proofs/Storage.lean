import DemandPaging.Proofs.Device
import DemandPaging.Proofs.View

namespace DemandPaging

open DemandPaging.Action

namespace Storage

def Formed (storage : Storage) : Prop :=
  ∀ (number : Nat) (file : File), storage.files[number]? = some file →
    match file with
    | .flat length _ => length < bufferLimit
    | .extent device _ _ => device < storage.devices.size

theorem formed_of_flat {length : Nat} {row : Sectors} (fits : length < bufferLimit) :
    Formed { files := #[.flat length row] } := by
  intro number file found
  obtain ⟨inside, rfl⟩ := Array.getElem?_eq_some_iff.mp found
  obtain rfl : number = 0 := Nat.lt_one_iff.mp inside
  exact fits

def Worn (storage : Storage) : Prop := ∃ device ∈ storage.devices, device.Worn

structure Idle (before after : Storage) : Prop where
  layouts : after.layout = before.layout
  bytes : after.byteAt = before.byteAt
  journal : after.journal = before.journal
  formed : before.Formed → after.Formed

structure Wrote (before after : Storage) (file : Nat) (layout : Layout) (offset : Nat)
    (data : Bytes) (count : Nat) : Prop where
  layouts : after.layout =
    Function.update before.layout file (some (layout.grown (offset + data.length)))
  bytes : ∀ spot, after.byteAt spot =
    if spot.1 = layout.bank ∧ layout.origin + offset ≤ spot.2 then
      ((data.take count)[spot.2 - (layout.origin + offset)]?).getD (before.byteAt spot)
    else before.byteAt spot
  journal : after.journal = ⟨file, offset, data.length⟩ :: before.journal
  takes : layout.Takes offset count
  formed : before.Formed → after.Formed

variable {storage : Storage} {index : Nat}

/-! ## Devices -/

def withDevice (storage : Storage) (index : Nat) (device : Device) : Storage :=
  { storage with devices := storage.devices.setIfInBounds index device }

theorem byteAt_device (inside : index < storage.devices.size) (position : Nat) :
    storage.byteAt (.device index, position) =
      storage.devices[index].medium.row.byteAt position := by
  simp [byteAt, inside]

theorem byteAt_withDevice (inside : index < storage.devices.size) (device : Device)
    (spot : Bank × Nat) :
    (storage.withDevice index device).byteAt spot =
      if spot.1 = .device index then device.medium.row.byteAt spot.2 else storage.byteAt spot := by
  obtain ⟨number | other, position⟩ := spot
  · rfl
  · by_cases same : other = index
    · subst same
      simp [byteAt, withDevice, inside]
    · simp [byteAt, withDevice, same, Ne.symm same]

theorem formed_withDevice (formed : storage.Formed) (device : Device) :
    (storage.withDevice index device).Formed := by
  intro number file found
  have before := formed number file found
  cases file with
  | flat => exact before
  | extent => simpa [withDevice] using before

theorem ensures_onDevice {ε α : Type} {action : Action ε Device α} {before : Traced Storage}
    {device : Device} (found : before.state.devices[index]? = some device)
    {returns : α → Traced Storage → Prop} {fails : ε → Traced Storage → Prop}
    {panics : Panic → Traced Storage → Prop} :
    (onDevice index action).Ensures before returns fails panics ↔
      action.Ensures ⟨device, before.log⟩
        (fun value after => returns value ⟨before.state.withDevice index after.state, after.log⟩)
        (fun cause after => fails cause ⟨before.state.withDevice index after.state, after.log⟩)
        (fun cause after => panics cause ⟨before.state.withDevice index after.state, after.log⟩) := by
  rw [onDevice, ensures_within]
  simp only [Storage.device, found]
  rfl

theorem not_formed {file start size : Nat}
    (found : storage.files[file]? = some (.extent index start size))
    (missing : storage.devices[index]? = none) : ¬ storage.Formed :=
  fun formed => Nat.not_lt.mpr (Array.getElem?_eq_none_iff.mp missing) (formed file _ found)

theorem ensures_onDevice_missing {ε α : Type} {action : Action ε Device α}
    {before : Traced Storage} (missing : before.state.devices[index]? = none)
    {returns : α → Traced Storage → Prop} {fails : ε → Traced Storage → Prop}
    {panics : Panic → Traced Storage → Prop} :
    (onDevice index action).Ensures before returns fails panics ↔ panics .outOfBounds before := by
  rw [onDevice, ensures_within]
  simp only [Storage.device, missing]

theorem worn_withDevice {storage : Storage} {index : Nat} {device kept : Device}
    (placed : storage.devices[index]? = some device) (worn : kept.Worn) :
    (storage.withDevice index kept).Worn :=
  ⟨kept, Array.mem_setIfInBounds (Array.getElem?_eq_some_iff.mp placed).1, worn⟩

def Moved (before after : Storage) (index : Nat) (device : Device) (moved : Sectors → Prop) : Prop :=
  ∃ kept : Device, device.SameMake kept ∧ moved kept.medium.row ∧
    after = before.withDevice index kept

/-! ## Reading -/

theorem available_eq (size offset length : Nat) :
    available size offset length = min length (size - offset) := by
  simp only [available]
  omega

def pieceBytes (row : Sectors) (start : Nat) (piece : Piece) : Bytes :=
  (row.get (start + piece.start / sectorSize)).slice (piece.start % sectorSize) piece.length

theorem flatMap_pieceBytes (row : Sectors) (start offset length : Nat) :
    (pieces sectorSize offset length).flatMap (pieceBytes row start) =
      row.read (sectorSize * start + offset) length := by
  fun_induction pieces sectorSize offset length with
  | case1 offset length done =>
      have empty : length = 0 := done.resolve_right (by decide)
      simp [Sectors.read, empty]
  | case2 offset length more room ih =>
      have nonempty : length ≠ 0 := fun empty => more (.inl empty)
      have sector : (sectorSize * start + offset) / sectorSize = start + offset / sectorSize := by
        simp only [sectorSize]
        omega
      have place : (sectorSize * start + offset) % sectorSize = offset % sectorSize := by
        simp only [sectorSize]
        omega
      rw [List.flatMap_cons, ih]
      conv => rhs; rw [Sectors.read, if_neg nonempty, sector, place]
      simp only [pieceBytes, Nat.add_assoc, room]

theorem within_extent {size offset length : Nat} {piece : Piece}
    (member : piece ∈ extentPieces size offset length) : piece.Within sectorSize offset length := by
  have within := within_of_mem member
  refine { within with ends := Nat.le_trans within.ends ?_ }
  simp only [available]
  omega

theorem readPiece_spec (row : Sectors) (start : Nat) {offset length : Nat} {piece : Piece}
    (within : piece.Within sectorSize offset length) {before : Traced Device}
    (same : before.state.medium.row = row) : (readPiece start offset length piece).Ensures before
      (fun bytes after => after.state.medium.row = row ∧ bytes = pieceBytes row start piece)
      (fun _ after => after.state.medium.row = row) Device.Overflowed := by
  rw [readPiece, ensures_bind, ensures_orFail, extentSector]
  split
  · rename_i sector found
    split at found
    · cases found
      rw [ensures_bind]
      refine (Device.readSector_spec _).mono ?_ ?_ fun _ _ worn => worn
      · rintro data after ⟨kept, rfl⟩
        rw [ensures_passed (Piece.placeIn_eq within), ensures_orPanic,
          Block.cut_eq _ (show _ ≤ 512 from within.fits), kept, Medium.sectorAt,
          same]
        exact ⟨rfl, rfl⟩
      · intro cause after kept
        rw [kept, same]
    · cases found
  · exact same

theorem readPiece_keeps (start offset length : Nat) (piece : Piece) :
    (readPiece start offset length piece).Keeps Device.SameMake :=
  (keeps_orFail Device.chained_sameMake _).bind Device.chained_sameMake fun sector =>
    (Device.readSector_keeps sector).bind Device.chained_sameMake fun _ =>
      (keeps_orPanic Device.chained_sameMake _).bind Device.chained_sameMake fun _ =>
        keeps_orPanic Device.chained_sameMake _

section Extent

variable {ε : Type} {before : Traced Storage} {file index start size : Nat} {device : Device}
  (found : before.state.files[file]? = some (.extent index start size))
  (placed : before.state.devices[index]? = some device)
include found placed

theorem ensures_readExtent {offset length : Nat} {returns : Transfer → Traced Storage → Prop}
    {fails : ε → Traced Storage → Prop} {panics : Panic → Traced Storage → Prop} :
    (readAt file offset length : Action ε Storage Transfer).Ensures before returns fails panics ↔
      (Transfer.gather (readPiece start offset length) (extentPieces size offset length) :
        Action ε Device Transfer).Ensures ⟨device, before.log⟩
        (fun transfer after =>
          returns transfer ⟨before.state.withDevice index after.state, after.log⟩)
        (fun cause after => fails cause ⟨before.state.withDevice index after.state, after.log⟩)
        (fun cause after =>
          panics cause ⟨before.state.withDevice index after.state, after.log⟩) := by
  rw [readAt, ensures_bind, ensures_look, ensures_bind, ensures_orPanic, Storage.file, found]
  exact ensures_onDevice placed

theorem readExtent_spec (offset length : Nat) :
    (readAt file offset length : Action ε Storage Transfer).Ensures before
      (fun transfer after => before.state.Moved after.state index device (· = device.medium.row) ∧
        transfer.bytes.length ≤ length ∧ (transfer.failure = none → transfer.bytes =
          device.medium.row.read (sectorSize * start + offset) (available size offset length)))
      (fun _ _ => False) fun cause after => cause = .countOverflow ∧ after.state.Worn := by
  rw [ensures_readExtent found placed]
  have kept : (Transfer.gather (readPiece start offset length) (extentPieces size offset length) :
      Action ε Device Transfer).Keeps Device.SameMake :=
    Transfer.gather_keeps Device.chained_sameMake _ fun piece _ =>
      readPiece_keeps start offset length piece
  have gathered : (Transfer.gather (readPiece start offset length) (extentPieces size offset length) :
      Action ε Device Transfer).Ensures ⟨device, before.log⟩
      (fun transfer after => after.state.medium.row = device.medium.row ∧
        transfer.bytes <+: (extentPieces size offset length).flatMap
          (pieceBytes device.medium.row start) ∧
        (transfer.failure = none → transfer.bytes =
          (extentPieces size offset length).flatMap (pieceBytes device.medium.row start)))
      (fun _ _ => False) Device.Overflowed :=
    Transfer.gather_spec _ (fun after : Traced Device => after.state.medium.row =
      device.medium.row) _ (fun piece member middle same =>
        readPiece_spec _ start (within_extent member) same) rfl
  refine (gathered.and (kept _)).mono ?_ (fun _ _ never => never.1)
    fun cause after worn => ⟨worn.1.1, worn_withDevice placed worn.1.2⟩
  rintro transfer after ⟨⟨same, begun, all⟩, make⟩
  rw [extentPieces, flatMap_pieceBytes] at begun all
  refine ⟨⟨after.state, make, same, rfl⟩, Nat.le_trans begun.length_le ?_, all⟩
  rw [Sectors.length_read, available_eq]
  exact Nat.min_le_left ..

end Extent

def Delivered (storage : Storage) (file offset length : Nat) (transfer : Transfer) : Prop :=
  transfer.bytes.length ≤ length ∧ ∃ layout, storage.layout file = some layout ∧ (transfer.failure = none → ∀ i : Nat,
    transfer.bytes[i]? = if i < available layout.length offset length then
      some (storage.byteAt (layout.bank, layout.origin + (offset + i))) else none)

theorem readAt_spec {ε : Type} (file offset length : Nat) {before : Traced Storage} :
    (readAt file offset length : Action ε Storage Transfer).Ensures before
      (fun transfer after => before.state.Idle after.state ∧
        before.state.Delivered file offset length transfer)
      (fun _ _ => False)
      (fun cause after => before.state.Formed → (before.state.layout file).isSome →
        cause = .countOverflow ∧ after.state.Worn) := by
  cases found : before.state.files[file]? with
  | none =>
      rw [readAt, ensures_bind, ensures_look, ensures_bind, ensures_orPanic, Storage.file, found]
      simp [layout, found]
  | some target =>
      cases target with
      | flat size row =>
          rw [readAt, ensures_bind, ensures_look, ensures_bind, ensures_orPanic, Storage.file,
            found]
          refine ⟨⟨rfl, rfl, rfl, id⟩, ?_, ⟨.file file, 0, size⟩, by simp [layout, found], ?_⟩
          · rw [Sectors.length_read, available_eq]
            exact Nat.min_le_left ..
          intro _ i
          simp [Sectors.getElem?_read, byteAt, found]
      | extent index start size =>
          cases placed : before.state.devices[index]? with
          | none =>
              rw [readAt, ensures_bind, ensures_look, ensures_bind, ensures_orPanic, Storage.file,
                found]
              exact (ensures_onDevice_missing placed).mpr fun formed _ =>
                absurd formed (not_formed found placed)
          | some device =>
              obtain ⟨inside, current⟩ := Array.getElem?_eq_some_iff.mp placed
              refine (readExtent_spec found placed offset length).mono ?_ (fun _ _ never => never)
                fun _ _ worn _ _ => worn
              rintro transfer after ⟨⟨kept, -, same, closed⟩, short, all⟩
              rw [closed]
              refine ⟨⟨rfl, funext fun spot => ?_, rfl, fun formed => formed_withDevice formed _⟩,
                short, ⟨.device index, sectorSize * start, size⟩, by simp [layout, found], ?_⟩
              · rw [byteAt_withDevice inside]
                split
                · rename_i here
                  obtain ⟨bank, position⟩ := spot
                  cases here
                  rw [same, byteAt_device inside, current]
                · rfl
              · intro complete i
                rw [all complete, Sectors.getElem?_read, byteAt_device inside, current,
                  Nat.add_assoc]

/-! ## Writing -/

def Started (row after : Sectors) (start : Nat) (data : Bytes) : Prop :=
  ∃ count ≤ data.length, (count = 0 ∨ sectorSize ∣ start + count) ∧
    row.Overwritten after start (data.take count)

theorem writePiece_spec (row : Sectors) (start : Nat) {offset : Nat} {data : Bytes} {piece : Piece}
    (within : piece.Within sectorSize offset data.length) {before : Traced Device}
    (same : before.state.medium.row = row) :
    (writePiece start offset data.toArray piece).Ensures before
      (fun _ after => row.Overwritten after.state.medium.row (sectorSize * start + piece.start)
        (piece.of offset data.toArray))
      (fun _ after => after.state.medium.row = row) Device.Overflowed := by
  rw [writePiece, ensures_bind, ensures_orFail, extentSector]
  split
  · rename_i sector found
    split at found
    · cases found
      have place : (sectorSize * start + piece.start) / sectorSize =
          start + piece.start / sectorSize := by
        simp only [sectorSize]
        omega
      have corner : (sectorSize * start + piece.start) % sectorSize =
          piece.start % sectorSize := by
        simp only [sectorSize]
        omega
      -- What was in the sector does not matter where the piece fills all of it.
      have length := Piece.length_of within
      have fits : piece.start % sectorSize + (piece.of offset data.toArray).length ≤ 512 := by
        rw [length]
        exact within.fits
      have written (old : Sector) (kept : old.overlay (piece.start % sectorSize)
              (piece.of offset data.toArray) =
            (row.get (start + piece.start / sectorSize)).overlay (piece.start % sectorSize)
              (piece.of offset data.toArray))
          {middle : Traced Device} (still : middle.state.medium.row = row) :
          (do
            let bytes ← orPanic (piece.takeFrom offset data.toArray)
            let filled ← orPanic (old.lay (piece.start % sectorSize) bytes)
            Device.writeSector (start + piece.start / sectorSize) filled :
              Action DeviceError Device Unit).Ensures middle
              (fun _ after => row.Overwritten after.state.medium.row
                (sectorSize * start + piece.start) (piece.of offset data.toArray))
              (fun _ after => after.state.medium.row = row) Device.Overflowed := by
        rw [ensures_passed (Piece.takeFrom_eq within),
          ensures_passed (Block.lay_eq _ fits)]
        refine (Device.writeSector_spec _ _).mono ?_ ?_ fun _ _ worn => worn
        · intro _ after put
          rw [put, kept, still, ← place, ← corner]
          apply Sectors.overwritten_put row
          rw [corner]
          exact fits
        · intro _ after unchanged
          rw [unchanged, still]
      split
      · rw [ensures_bind]
        refine (Device.readSector_spec _).mono ?_ ?_ fun _ _ worn => worn
        · rintro old middle ⟨still, rfl⟩
          refine written _ ?_ (by rw [still, same])
          rw [Medium.sectorAt, same]
        · intro _ middle still
          rw [still, same]
      · rename_i whole
        have within := within.fits
        have full : piece.start % sectorSize = 0 := by omega
        rw [ensures_bind, ensures_pure]
        refine written _ ?_ same
        rw [full]
        apply Block.overlay_full _ _
        simp only [sectorSize] at within whole full
        omega
    · cases found
  · exact same

theorem writePieces_spec (row : Sectors) (start offset : Nat) (data : Bytes) (position length : Nat)
    (reached : offset ≤ position) (within : position + length ≤ offset + data.length)
    {before : Traced Device} (same : before.state.medium.row = row) :
    ((pieces sectorSize position length).forM
        (writePiece start offset data.toArray)).Ensures before
      (fun _ after => row.Overwritten after.state.medium.row (sectorSize * start + position)
        ((data.drop (position - offset)).take length))
      (fun _ after => 0 < length ∧ Started row after.state.medium.row
        (sectorSize * start + position) ((data.drop (position - offset)).take length))
      Device.Overflowed := by
  fun_induction pieces sectorSize position length generalizing row before with
  | case1 position length done =>
      have empty : length = 0 := done.resolve_right (by decide)
      simpa [empty, same] using Sectors.overwritten_nil row (sectorSize * start + position)
  | case2 position length more room ih =>
      rw [ensures_forM_cons]
      have positive : 0 < length := Nat.pos_of_ne_zero fun empty => more (.inl empty)
      have short : room ≤ length := Nat.min_le_right ..
      have small := Nat.mod_lt position (show 0 < sectorSize by decide)
      have near : Piece.Within sectorSize offset data.length ⟨position, room⟩ := by
        have := Nat.min_le_left (sectorSize - position % sectorSize) length
        exact ⟨reached, by simp only; omega, by simp only; omega⟩
      have split : (data.drop (position - offset)).take length =
          (data.drop (position - offset)).take room ++
            (data.drop (position + room - offset)).take (length - room) := by
        rw [show position + room - offset = position - offset + room by omega, ← List.drop_drop,
          ← List.take_add, Nat.add_sub_cancel' short]
      have size : ((data.drop (position - offset)).take room).length = room := by
        rw [List.length_take, List.length_drop]
        omega
      have whole := writePiece_spec row start near same
      rw [Piece.of_toArray] at whole
      refine whole.mono ?_ ?_ fun _ _ worn => worn
      · intro _ middle first
        refine (ih middle.state.medium.row (by omega) (by omega) rfl).mono ?_ ?_
          fun _ _ worn => worn
        · intro _ after later
          rw [split]
          apply first.append
          rw [size, Nat.add_assoc]
          exact later
        · rintro _ after ⟨rest, count, few, ends, later⟩
          -- As there is a next piece, this one fills its sector.
          have full : room = sectorSize - position % sectorSize := by omega
          refine ⟨positive, room + count, ?_, .inr ?_, ?_⟩
          · rw [split, List.length_append, size]
            omega
          · rcases ends with rfl | ends
            · simp only [sectorSize] at *
              omega
            · simp only [sectorSize] at *
              omega
          · rw [split, List.take_append, size, Nat.add_sub_cancel_left,
              List.take_of_length_le (by omega)]
            apply first.append
            rw [size, Nat.add_assoc]
            exact later
      · intro _ after unchanged
        refine ⟨positive, 0, Nat.zero_le _, .inl rfl, ?_⟩
        rw [unchanged, List.take_zero]
        exact Sectors.overwritten_nil row _

theorem writePiece_keeps (start offset : Nat) (data : Array UInt8) (piece : Piece) :
    (writePiece start offset data piece).Keeps Device.SameMake := by
  refine (keeps_orFail Device.chained_sameMake _).bind Device.chained_sameMake fun sector => ?_
  have written (old : Sector) : (do
      let bytes ← orPanic (piece.takeFrom offset data)
      let filled ← orPanic (old.lay (piece.start % sectorSize) bytes)
      Device.writeSector sector filled : Action DeviceError Device Unit).Keeps Device.SameMake :=
    (keeps_orPanic Device.chained_sameMake _).bind Device.chained_sameMake fun _ =>
      (keeps_orPanic Device.chained_sameMake _).bind Device.chained_sameMake fun _ =>
        Device.writeSector_keeps _ _
  exact Keeps.ite ((Device.readSector_keeps sector).bind Device.chained_sameMake written)
    ((keeps_pure Device.chained_sameMake _).bind Device.chained_sameMake written)

def journaled (storage : Storage) (request : WriteRequest) : Storage :=
  { storage with journal := request :: storage.journal }

section Extent

variable {before : Traced Storage} {file index start size : Nat} {device : Device}
  (found : before.state.files[file]? = some (.extent index start size))
  (placed : before.state.devices[index]? = some device)
include found placed

theorem ensures_writeExtent {offset : Nat} {data : Bytes} {returns : Nat → Traced Storage → Prop}
    {fails : DeviceError → Traced Storage → Prop} {panics : Panic → Traced Storage → Prop} :
    (writeAt file offset data).Ensures before returns fails panics ↔
      ((extentPieces size offset data.length).forM
        (writePiece start offset data.toArray)).Ensures ⟨device, before.log⟩
        (fun _ after => returns (available size offset data.length)
          ⟨(before.state.journaled ⟨file, offset, data.length⟩).withDevice index after.state,
            after.log⟩)
        (fun cause after => fails cause
          ⟨(before.state.journaled ⟨file, offset, data.length⟩).withDevice index after.state,
            after.log⟩)
        (fun cause after => panics cause
          ⟨(before.state.journaled ⟨file, offset, data.length⟩).withDevice index after.state,
            after.log⟩) := by
  rw [writeAt, ensures_bind, ensures_look, ensures_bind, ensures_orPanic, Storage.file, found]
  simp only [ensures_bind, ensures_update]
  exact ensures_onDevice (by exact placed)

theorem writeExtent_spec (offset : Nat) (data : Bytes) :
    (writeAt file offset data).Ensures before
      (fun count after => count = available size offset data.length ∧
        (before.state.journaled ⟨file, offset, data.length⟩).Moved after.state index device
          fun row =>
            device.medium.row.Overwritten row (sectorSize * start + offset) (data.take count))
      (fun _ after => ∃ count ≤ available size offset data.length,
        (count = 0 ∨ sectorSize ∣ offset + count) ∧
          (before.state.journaled ⟨file, offset, data.length⟩).Moved after.state index device
            fun row =>
              device.medium.row.Overwritten row (sectorSize * start + offset) (data.take count))
      fun cause after => cause = .countOverflow ∧ after.state.Worn := by
  rw [ensures_writeExtent found placed]
  have few : available size offset data.length ≤ data.length := by
    rw [available_eq]
    exact Nat.min_le_left ..
  have kept : ((extentPieces size offset data.length).forM
      (writePiece start offset data.toArray)).Keeps Device.SameMake :=
    Keeps.forM Device.chained_sameMake _ fun piece _ => writePiece_keeps start offset _ piece
  refine ((writePieces_spec device.medium.row start offset data offset
    (available size offset data.length) (Nat.le_refl _) (by omega) rfl).and (kept _)).mono ?_ ?_
    fun cause after worn => ⟨worn.1.1, worn_withDevice placed worn.1.2⟩
  · rintro _ after ⟨replaced, make⟩
    rw [Nat.sub_self, List.drop_zero] at replaced
    exact ⟨rfl, after.state, make, replaced, rfl⟩
  · rintro _ after ⟨⟨-, count, small, ends, replaced⟩, make⟩
    rw [Nat.sub_self, List.drop_zero] at small replaced
    rw [List.length_take] at small
    rw [List.take_take, Nat.min_eq_left (by omega)] at replaced
    refine ⟨count, by omega, ends.imp_right fun aligned => ?_, after.state, make, replaced, rfl⟩
    rw [Nat.add_assoc] at aligned
    exact (Nat.dvd_add_right (Nat.dvd_mul_right sectorSize start)).mp aligned

end Extent

theorem grownLength_ok {size offset length grown : Nat}
    (fits : grownLength size offset length = .ok grown) :
    grown = max size (offset + length) ∧ (size < bufferLimit → grown < bufferLimit) := by
  simp only [grownLength] at fits
  split at fits
  · cases fits
  · split at fits
    · cases fits
    · cases fits
      refine ⟨rfl, fun small => ?_⟩
      simp only [bufferLimit] at *
      omega

theorem grownLength_of_fits {size offset length : Nat} (fits : offset + length ≤ size)
    (small : size < bufferLimit) : ∃ grown, grownLength size offset length = .ok grown := by
  refine ⟨max size (offset + length), ?_⟩
  simp only [grownLength]
  rw [if_neg (by simp only [wordLimit, bufferLimit] at *; omega), if_neg (by omega)]

theorem wrote_flat {file offset size : Nat} {row : Sectors} {data : Bytes}
    (found : storage.files[file]? = some (.flat size row))
    (small : size < bufferLimit → max size (offset + data.length) < bufferLimit) :
    storage.Wrote ⟨storage.devices, storage.files.setIfInBounds file
        (.flat (max size (offset + data.length)) (row.write offset data)),
        ⟨file, offset, data.length⟩ :: storage.journal⟩
      file ⟨.file file, 0, size⟩ offset data data.length := by
  have inside := (Array.getElem?_eq_some_iff.mp found).1
  refine ⟨?_, ?_, rfl, .inl ⟨file, rfl⟩, ?_⟩
  · funext other
    rw [Function.update_apply]
    simp only [layout, Array.getElem?_setIfInBounds, eq_comm (a := file)]
    split
    · rename_i same
      subst same
      simp [Layout.grown]
    · rfl
  · rintro ⟨number | other, position⟩
    · by_cases same : number = file
      · subst same
        simp only [byteAt, found, Array.getElem?_setIfInBounds, inside, if_true, true_and,
          Nat.zero_add, List.take_length, Sectors.byteAt_write]
      · simp [byteAt, same, Ne.symm same]
    · simp [byteAt]
  · intro formed number other there
    simp only [Array.getElem?_setIfInBounds, inside, if_true] at there
    split at there
    · cases there
      exact small (formed file _ found)
    · exact formed number other there

theorem wrote_extent {file index start size count offset : Nat} {data : Bytes} {device : Device}
    {after : Storage} (found : storage.files[file]? = some (.extent index start size))
    (placed : storage.devices[index]? = some device)
    (few : count ≤ available size offset data.length)
    (moved : (storage.journaled ⟨file, offset, data.length⟩).Moved after index device fun row =>
      device.medium.row.Overwritten row (sectorSize * start + offset) (data.take count)) :
    storage.Wrote after file ⟨.device index, sectorSize * start, size⟩ offset data count := by
  obtain ⟨inside, row⟩ := Array.getElem?_eq_some_iff.mp placed
  obtain ⟨kept, -, replaced, rfl⟩ := moved
  have takes : count = 0 ∨ offset + count ≤ size := by
    simp only [available] at few
    omega
  refine ⟨?_, fun spot => ?_, rfl, .inr takes, fun formed => formed_withDevice formed kept⟩
  · refine (Function.update_eq_self_iff.mpr ?_).symm
    simp [layout, journaled, withDevice, found, Layout.grown]
  · apply (byteAt_withDevice inside kept spot).trans
    obtain ⟨bank, position⟩ := spot
    by_cases here : bank = .device index
    · subst here
      simp only [if_true, true_and, replaced position, byteAt_device inside, row]
    · simp only [here, if_false, false_and]

theorem writeAt_spec (file offset : Nat) (data : Bytes) {before : Traced Storage} :
    (writeAt file offset data).Ensures before
      (fun count after => ∃ layout, before.state.layout file = some layout ∧
        count ≤ data.length ∧ before.state.Wrote after.state file layout offset data count)
      (fun _ after => ∃ layout count, before.state.layout file = some layout ∧
        count ≤ data.length ∧ before.state.Wrote after.state file layout offset data count)
      (fun cause after => before.state.Formed →
        (∃ layout, before.state.layout file = some layout ∧
          offset + data.length ≤ layout.length) →
        cause = .countOverflow ∧ after.state.Worn) := by
  cases found : before.state.files[file]? with
  | none =>
      rw [writeAt, ensures_bind, ensures_look, ensures_bind, ensures_orPanic, Storage.file, found]
      simp [layout, found]
  | some target =>
      cases target with
      | flat size row =>
          have there : before.state.layout file = some ⟨.file file, 0, size⟩ := by
            simp [layout, found]
          rw [writeAt, ensures_bind, ensures_look, ensures_bind, ensures_orPanic, Storage.file,
            found]
          simp only [ensures_bind, ensures_update, ensures_orPanic]
          -- A write that stays within the file is not refused for the length the file would have.
          cases grown : grownLength size offset data.length with
          | error cause =>
              rintro formed ⟨place, here, fits⟩
              rw [there] at here
              cases here
              obtain ⟨length, fine⟩ := grownLength_of_fits fits (formed file _ found)
              rw [fine] at grown
              cases grown
          | ok length =>
              obtain ⟨rfl, small⟩ := grownLength_ok grown
              exact ⟨_, there, Nat.le_refl _, wrote_flat found small⟩
      | extent index start size =>
          have there : before.state.layout file =
              some ⟨.device index, sectorSize * start, size⟩ := by
            simp [layout, found]
          have few : available size offset data.length ≤ data.length := by
            simp only [available]
            omega
          cases placed : before.state.devices[index]? with
          | none =>
              rw [writeAt, ensures_bind, ensures_look, ensures_bind, ensures_orPanic, Storage.file,
                found]
              simp only [ensures_bind, ensures_update]
              exact (ensures_onDevice_missing (by exact placed)).mpr fun formed _ =>
                absurd formed (not_formed found placed)
          | some device =>
              refine (writeExtent_spec found placed offset data).mono ?_ ?_ fun _ _ worn _ _ => worn
              · rintro count after ⟨rfl, moved⟩
                exact ⟨_, there, few, wrote_extent found placed (Nat.le_refl _) moved⟩
              · rintro _ after ⟨count, small, -, moved⟩
                exact ⟨_, count, there, Nat.le_trans small few, wrote_extent found placed small moved⟩

/-! ## Windows -/

theorem load_spec {ε : Type} (window : FileWindow) {before : Traced Storage} :
    (load window : Action ε Storage Transfer).Ensures before
      (fun transfer after => before.state.Idle after.state ∧
        transfer.bytes.length ≤ window.length ∧ (transfer.failure = none → ∀ i, transfer.bytes[i]? =
          (before.state.layout window.file).bind fun layout =>
            if i < available layout.length window.offset window.length then
              some (before.state.byteAt (layout.bank, layout.origin + (window.offset + i)))
            else none))
      (fun _ _ => False)
      (fun cause after => before.state.Formed →
        (window.length = 0 ∨ (before.state.layout window.file).isSome) →
        cause = .countOverflow ∧ after.state.Worn) := by
  rw [load]
  split
  · rename_i empty
    refine ⟨⟨rfl, rfl, rfl, id⟩, Nat.zero_le _, fun _ i => ?_⟩
    cases before.state.layout window.file with
    | none => rfl
    | some layout =>
        have none : available layout.length window.offset window.length = 0 := by
          simp only [available]
          omega
        simp [none]
  · rename_i filled
    rw [ensures_bind, ensures_insist, if_pos window.short, ensures_bind]
    refine (readAt_spec window.file window.offset window.length).mono ?_ (fun _ _ never => never) ?_
    · rintro transfer after ⟨idle, short, layout, there, all⟩
      have known : before.state.Idle after.state ∧ transfer.bytes.length ≤ window.length ∧ (transfer.failure = none → ∀ i : Nat,
          transfer.bytes[i]? = (before.state.layout window.file).bind fun layout =>
            if i < available layout.length window.offset window.length then
              some (before.state.byteAt (layout.bank, layout.origin + (window.offset + i)))
            else none) := by
        refine ⟨idle, short, fun complete i => ?_⟩
        rw [all complete i, there, Option.bind_some]
      dsimp only
      split
      · simpa only [ensures_bind, ensures_emit, ensures_pure] using known
      · simpa only [ensures_bind, ensures_pure] using known
    · intro cause after panicked formed present
      exact panicked formed (present.resolve_left filled)

theorem save_spec (window : FileWindow) (page : Page) {before : Traced Storage} :
    (save window page).Ensures before
      (fun _ after => (window.length = 0 ∧ after.state = before.state) ∨
        0 < window.length ∧ ∃ layout, before.state.layout window.file = some layout ∧
          before.state.Wrote after.state window.file layout window.offset
            (page.slice 0 window.length) window.length)
      (fun cause after => (∃ failure, cause = .device failure) ∧ 0 < window.length ∧
        ∃ layout count, before.state.layout window.file = some layout ∧ count ≤ window.length ∧
          before.state.Wrote after.state window.file layout window.offset
            (page.slice 0 window.length) count)
      (fun cause after => before.state.Formed →
        (window.length = 0 ∨ ∃ layout, before.state.layout window.file = some layout ∧
          window.offset + window.length ≤ layout.length) →
        cause = .countOverflow ∧ after.state.Worn) := by
  rw [save]
  split
  · rename_i empty
    exact .inl ⟨empty, rfl⟩
  · rename_i filled
    have positive := Nat.pos_of_ne_zero filled
    have size : (page.slice 0 window.length).length = window.length := by
      rw [Block.length_slice]
      exact Nat.min_eq_left window.short
    have cut := page.cut_eq (show 0 + window.length ≤ 4096 by rw [Nat.zero_add]; exact window.short)
    rw [ensures_passed cut, ensures_bind, ensures_mapFailure]
    refine (writeAt_spec window.file window.offset (page.slice 0 window.length)).mono ?_ ?_ ?_
    · rintro count after ⟨layout, there, few, wrote⟩
      rw [size] at few
      rw [ensures_require]
      split
      · rename_i same
        subst same
        exact .inr ⟨positive, layout, there, wrote⟩
      · exact ⟨⟨_, rfl⟩, positive, layout, count, there, few, wrote⟩
    · rintro cause after ⟨layout, count, there, few, wrote⟩
      exact ⟨⟨_, rfl⟩, positive, layout, count, there, size ▸ few, wrote⟩
    · intro cause after panicked formed fits
      apply panicked formed
      rw [size]
      exact fits.resolve_left filled

end Storage

end DemandPaging
