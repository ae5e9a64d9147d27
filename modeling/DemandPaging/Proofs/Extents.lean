import DemandPaging.Proofs.Storage

/-!
# Extents as flat files

An extent is a flat file of fixed length, whatever offsets it is read and written at. What a read
delivers are bytes of the extent, and a write replaces them and nothing else on the device; a write
that fails has replaced a first part that ends where a sector does. Where no transfer can fail, reads
and writes that fit can not tell an extent from a flat file with the same bytes
(`extent_acts_as_flat`).
-/

namespace DemandPaging

open DemandPaging.Action

namespace Storage

/-! ## Pieces -/

section Pieces

variable {before : Traced Device} {stop start : Nat} {piece : Piece}

theorem extentSector_ok {device : Device} {position : Nat} (serves : device.Serves stop)
    (inside : sectorSize * start + position < stop) :
    extentSector start position = .ok (start + position / sectorSize) ∧
      sectorSize * (start + position / sectorSize) < stop := by
  have below : sectorSize * (start + position / sectorSize) < stop := by
    simp only [sectorSize] at *
    omega
  refine ⟨if_pos ?_, below⟩
  exact Nat.lt_trans (serves.offers below).1 serves.countable

theorem readPiece_serves (serves : before.state.Serves stop)
    (inside : sectorSize * start + piece.start < stop) {offset length : Nat} :
    (readPiece start offset length piece).Ensures before (fun _ after => after.state.Serves stop)
      (fun _ _ => False) fun _ _ => True := by
  obtain ⟨sector, below⟩ := extentSector_ok serves inside
  simp only [readPiece, ensures_bind, ensures_orFail, sector]
  refine (Device.readSector_serves serves below).mono ?_ (fun _ _ never => never)
    fun _ _ panicked => panicked
  intro data after still
  rw [ensures_orPanic]
  cases piece.placeIn offset length with
  | error cause => trivial
  | ok place =>
      rw [ensures_orPanic]
      cases data.cut (piece.start % sectorSize) piece.length with
      | error cause => trivial
      | ok bytes => exact still

theorem writePiece_serves (serves : before.state.Serves stop)
    (inside : sectorSize * start + piece.start < stop) {offset : Nat} (data : Array UInt8) :
    (writePiece start offset data piece).Ensures before (fun _ after => after.state.Serves stop)
      (fun _ _ => False) fun _ _ => True := by
  obtain ⟨sector, below⟩ := extentSector_ok serves inside
  have filled {middle : Traced Device} (still : middle.state.Serves stop) (old : Sector) : (do
      let bytes ← orPanic (piece.takeFrom offset data)
      let filled ← orPanic (old.lay (piece.start % sectorSize) bytes)
      Device.writeSector (start + piece.start / sectorSize) filled :
        Action DeviceError Device Unit).Ensures middle (fun _ after => after.state.Serves stop)
          (fun _ _ => False) fun _ _ => True := by
    rw [ensures_bind, ensures_orPanic]
    cases piece.takeFrom offset data with
    | error cause => trivial
    | ok bytes =>
        simp only
        rw [ensures_bind, ensures_orPanic]
        cases old.lay (piece.start % sectorSize) bytes with
        | error cause => trivial
        | ok whole => exact Device.writeSector_serves still below _
  rw [writePiece, ensures_bind, ensures_orFail, sector]
  dsimp only
  split
  · rw [ensures_bind]
    exact (Device.readSector_serves serves below).mono (fun old _ still => filled still old)
      (fun _ _ never => never) fun _ _ panicked => panicked
  · exact filled serves _

end Pieces

/-! ## Extents that can not fail -/

section Extent

variable {ε : Type} {before : Traced Storage} {file index start size : Nat} {device : Device}
  (found : before.state.files[file]? = some (.extent index start size))
  (placed : before.state.devices[index]? = some device)
  (serves : device.Serves (sectorSize * start + size))
include found placed serves

theorem readExtent_serves (offset length : Nat) :
    (readAt file offset length : Action ε Storage Transfer).Ensures before
      (fun transfer _ => transfer.failure = none) (fun _ _ => False) fun _ _ => True := by
  rw [ensures_readExtent found placed]
  refine Ensures.mono (Transfer.gather_complete
    (fun after : Traced Device => after.state.Serves (sectorSize * start + size)) _
    (fun piece member middle still => readPiece_serves still ?_) serves)
    (fun _ _ complete => complete.2) (fun _ _ never => never) fun _ _ _ => trivial
  have inside := piece_within_range member
  have positive := (piece_within_block member).1
  rw [available] at inside
  omega

theorem writeExtent_serves (offset : Nat) (data : Bytes) :
    (writeAt file offset data).Ensures before (fun _ _ => True) (fun _ _ => False)
      fun _ _ => True := by
  rw [ensures_writeExtent found placed]
  refine (Ensures.forM (fun coming (after : Traced Device) =>
    after.state.Serves (sectorSize * start + size) ∧
      ∀ piece ∈ coming, piece ∈ extentPieces size offset data.length) ?_ _
    ⟨serves, fun _ member => member⟩).mono (fun _ _ _ => trivial) (fun _ _ never => never)
    fun _ _ panicked => panicked
  rintro piece rest middle ⟨still, all⟩
  obtain ⟨here, there⟩ := List.forall_mem_cons.mp all
  have inside := piece_within_range here
  have positive := (piece_within_block here).1
  rw [available] at inside
  exact (writePiece_serves still (by omega) _).mono (fun _ _ later => ⟨later, there⟩)
    (fun _ _ never => never) fun _ _ panicked => panicked

end Extent

/-! ## Flat files -/

theorem readFlat {ε : Type} {before : Traced Storage} {file size : Nat} {row : Sectors}
    (found : before.state.files[file]? = some (.flat size row)) (offset length : Nat) :
    (readAt file offset length : Action ε Storage Transfer) before =
      .ok ⟨row.read offset (available size offset length), none⟩ before := by
  apply Ensures.ran
  rw [readAt, ensures_bind, ensures_look, ensures_bind, ensures_orPanic, Storage.file, found]
  exact ⟨rfl, rfl⟩

theorem writeFlat {before : Traced Storage} {file size : Nat} {row : Sectors}
    (found : before.state.files[file]? = some (.flat size row)) (small : size < bufferLimit)
    {offset : Nat} {data : Bytes} (fits : offset + data.length ≤ size) :
    ∃ after, writeAt file offset data before = .ok data.length after ∧
      after.state.files[file]? = some (.flat size (row.write offset data)) := by
  obtain ⟨grown, taken⟩ := grownLength_of_fits fits small
  obtain ⟨rfl, -⟩ := grownLength_ok taken
  rw [Nat.max_eq_left fits] at taken
  have inside := (Array.getElem?_eq_some_iff.mp found).1
  have ends : (writeAt file offset data).Ensures before (fun count after => count = data.length ∧
      after.state.files[file]? = some (.flat size (row.write offset data))) (fun _ _ => False)
      fun _ _ => False := by
    rw [writeAt, ensures_bind, ensures_look, ensures_bind, ensures_orPanic, Storage.file, found]
    simp only [ensures_bind, ensures_update, ensures_orPanic, taken, ensures_pure]
    exact ⟨trivial, by simp [inside]⟩
  obtain ⟨count, after, ran, rfl, there⟩ := ends.exists_returned
  exact ⟨after, ran, there⟩

/-! ## Calls -/

inductive FileCall where
  | read (offset length : Nat)
  | write (offset : Nat) (data : Bytes)

inductive FileReply where
  | delivered (transfer : Transfer)
  | taken (count : Nat)
  deriving DecidableEq, Repr

namespace FileCall

def perform (file : Nat) : FileCall → Action DeviceError Storage FileReply
  | read offset length => return .delivered (← readAt file offset length)
  | write offset data => return .taken (← writeAt file offset data)

/-- What is written fits in a file of `size` bytes. -/
def Fits (size : Nat) : FileCall → Prop
  | read _ _ => True
  | write offset data => offset + data.length ≤ size

end FileCall

structure Mirrors (file index start size number : Nat) (one other : Storage) : Prop where
  extent : one.files[file]? = some (.extent index start size)
  bytes : ∃ (device : Device) (row : Sectors), one.devices[index]? = some device ∧
    device.Serves (sectorSize * start + size) ∧ other.files[number]? = some (.flat size row) ∧
    ∀ i < size, row.byteAt i = device.medium.row.byteAt (sectorSize * start + i)

theorem read_congr {row other : Sectors} {start start' length : Nat}
    (same : ∀ i < length, row.byteAt (start + i) = other.byteAt (start' + i)) :
    row.read start length = other.read start' length := by
  apply List.ext_getElem?
  intro i
  rw [Sectors.getElem?_read, Sectors.getElem?_read]
  split
  · rename_i inside
    rw [same i inside]
  · rfl

section Calls

variable {file index start size number : Nat} {before other : Traced Storage}

theorem Mirrors.moved {one later last : Storage} {device : Device} {moved : Sectors → Prop}
    {row : Sectors} (moves : one.Moved later index device moved)
    (extent : one.files[file]? = some (.extent index start size))
    (placed : one.devices[index]? = some device)
    (serves : device.Serves (sectorSize * start + size))
    (found : last.files[number]? = some (.flat size row))
    (same : ∀ sectors, moved sectors →
      ∀ i < size, row.byteAt i = sectors.byteAt (sectorSize * start + i)) :
    Mirrors file index start size number later last := by
  obtain ⟨kept, make, holds, rfl⟩ := moves
  have inside := (Array.getElem?_eq_some_iff.mp placed).1
  exact ⟨extent, kept, row, Array.getElem?_setIfInBounds_self_of_lt inside, serves.after make, found,
    same _ holds⟩

theorem Mirrors.read (mirrors : Mirrors file index start size number before.state other.state)
    (offset length : Nat) :
    (readAt file offset length : Action DeviceError Storage Transfer).Ensures before
      (fun transfer after =>
        (readAt number offset length : Action DeviceError Storage Transfer) other =
          .ok transfer other ∧ Mirrors file index start size number after.state other.state)
      (fun _ _ => False) fun cause after => cause = .countOverflow ∧ after.state.Worn := by
  obtain ⟨extent, device, row, placed, serves, found, same⟩ := mirrors
  refine ((readExtent_spec extent placed offset length).and
    (readExtent_serves extent placed serves offset length)).mono ?_ (fun _ _ never => never.1)
    fun _ _ worn => worn.1
  rintro ⟨bytes, failure⟩ after ⟨⟨moved, -, all⟩, complete⟩
  cases complete
  refine ⟨?_, .moved moved extent placed serves found fun _ here => here ▸ same⟩
  have delivered : row.read offset (available size offset length) = bytes := by
    rw [show bytes = _ from all rfl]
    refine read_congr fun i small => ?_
    rw [available] at small
    rw [Nat.add_assoc]
    exact same (offset + i) (by omega)
  rw [readFlat found, delivered]

theorem Mirrors.write (mirrors : Mirrors file index start size number before.state other.state)
    {offset : Nat} {data : Bytes} (fits : offset + data.length ≤ size) :
    (writeAt file offset data).Ensures before
      (fun count after => ∃ last, writeAt number offset data other = .ok count last ∧
        Mirrors file index start size number after.state last.state)
      (fun _ _ => False) fun cause after => cause = .countOverflow ∧ after.state.Worn := by
  obtain ⟨extent, device, row, placed, serves, found, same⟩ := mirrors
  have small : size < bufferLimit := by
    have offered := serves.offered
    have countable := serves.countable
    simp only [sectorSize, halfWordLimit, bufferLimit] at *
    omega
  obtain ⟨last, ran, written⟩ := writeFlat found small fits
  refine ((writeExtent_spec extent placed offset data).and
    (writeExtent_serves extent placed serves offset data)).mono ?_ (fun _ _ never => never.2)
    fun _ _ worn => worn.1
  rintro count after ⟨⟨counted, moved⟩, -⟩
  have all : count = data.length := by
    rw [counted, available]
    omega
  subst all
  refine ⟨last, ran, .moved moved extent placed serves written fun sectors replaced i inside => ?_⟩
  rw [List.take_length] at replaced
  rw [Sectors.byteAt_write, replaced, same i inside]
  by_cases reached : offset ≤ i
  · rw [if_pos reached, if_pos (by omega),
      show sectorSize * start + i - (sectorSize * start + offset) = i - offset by omega]
  · rw [if_neg reached, if_neg (by omega)]

theorem Mirrors.perform (mirrors : Mirrors file index start size number before.state other.state)
    {call : FileCall} (fits : call.Fits size) : (call.perform file).Ensures before
      (fun reply after => ∃ last, call.perform number other = .ok reply last ∧
        Mirrors file index start size number after.state last.state)
      (fun _ _ => False) fun cause after => cause = .countOverflow ∧ after.state.Worn := by
  cases call with
  | read offset length =>
      rw [FileCall.perform, ensures_bind]
      refine (mirrors.read offset length).mono ?_ (fun _ _ never => never) fun _ _ worn => worn
      rintro transfer after ⟨ran, still⟩
      exact ⟨other, bind_of_ok ran _, still⟩
  | write offset data =>
      rw [FileCall.perform, ensures_bind]
      refine (mirrors.write fits).mono ?_ (fun _ _ never => never) fun _ _ worn => worn
      rintro count after ⟨last, ran, still⟩
      exact ⟨last, bind_of_ok ran _, still⟩

theorem Mirrors.performAll (calls : List FileCall) (fits : ∀ call ∈ calls, call.Fits size)
    {before other : Traced Storage}
    (mirrors : Mirrors file index start size number before.state other.state) :
    (calls.mapM (FileCall.perform file)).Ensures before
      (fun replies after => ∃ last, calls.mapM (FileCall.perform number) other = .ok replies last ∧
        Mirrors file index start size number after.state last.state)
      (fun _ _ => False) fun cause after => cause = .countOverflow ∧ after.state.Worn := by
  induction calls generalizing before other with
  | nil =>
      rw [ensures_mapM_nil]
      exact ⟨other, rfl, mirrors⟩
  | cons first rest ih =>
      obtain ⟨here, there⟩ := List.forall_mem_cons.mp fits
      rw [ensures_mapM_cons]
      refine (mirrors.perform here).mono ?_ (fun _ _ never => never) fun _ _ worn => worn
      rintro reply middle ⟨next, ran, still⟩
      refine (ih there still).mono ?_ (fun _ _ never => never) fun _ _ worn => worn
      rintro replies after ⟨last, ranOn, mirrors⟩
      exact ⟨last, mapM_cons_ok ran ranOn, mirrors⟩

end Calls

/-! ## The main statement -/

/-- A file that is an extent of a device acts as a flat file of the same length. -/
structure ActsAsFlat (before : Traced Storage) (file index start size : Nat) (device : Device) :
    Prop where
  /-- What is moved are stretches of the asked range that lie in the extent, whatever was asked for. -/
  stays : ∀ (offset length : Nat), ∀ piece ∈ extentPieces size offset length,
    0 < piece.length ∧ offset ≤ piece.start ∧ piece.start + piece.length ≤ offset + length ∧
      piece.start + piece.length ≤ size
  reads : ∀ {ε : Type} (offset length : Nat),
    (readAt file offset length : Action ε Storage Transfer).Ensures before
      (fun transfer after => before.state.Moved after.state index device (· = device.medium.row) ∧
        (transfer.failure = none → transfer.bytes.length = min length (size - offset) ∧
          ∀ (buffer : Block length) (i : Nat) (small : i < length),
            (buffer.overlay 0 transfer.bytes)[i] = if i < min length (size - offset) then
              device.medium.row.byteAt (sectorSize * start + (offset + i)) else buffer[i]))
      (fun _ _ => False) fun cause after => cause = .countOverflow ∧ after.state.Worn
  writes : ∀ (offset : Nat) (data : Bytes),
    (writeAt file offset data).Ensures before
      (fun count after => count = min data.length (size - offset) ∧
        (before.state.journaled ⟨file, offset, data.length⟩).Moved after.state index device
          fun row =>
            device.medium.row.Overwritten row (sectorSize * start + offset) (data.take count))
      (fun _ after => ∃ count ≤ min data.length (size - offset),
        (count = 0 ∨ sectorSize ∣ offset + count) ∧
          (before.state.journaled ⟨file, offset, data.length⟩).Moved after.state index device
            fun row =>
              device.medium.row.Overwritten row (sectorSize * start + offset) (data.take count))
      fun cause after => cause = .countOverflow ∧ after.state.Worn
  replays : device.Serves (sectorSize * start + size) →
    ∀ (calls : List FileCall), (∀ call ∈ calls, call.Fits size) →
    ∀ (flat : Traced Storage) (number : Nat) (row : Sectors),
      flat.state.files[number]? = some (.flat size row) →
      (∀ i < size, row.byteAt i = device.medium.row.byteAt (sectorSize * start + i)) →
      (calls.mapM (FileCall.perform file)).Ensures before
        (fun replies after => ∃ last,
          calls.mapM (FileCall.perform number) flat = .ok replies last ∧
            Mirrors file index start size number after.state last.state)
        (fun _ _ => False) fun cause after => cause = .countOverflow ∧ after.state.Worn

theorem extent_acts_as_flat {before : Traced Storage} {file index start size : Nat}
    {device : Device} (found : before.state.files[file]? = some (.extent index start size))
    (placed : before.state.devices[index]? = some device) :
    ActsAsFlat before file index start size device := by
  refine ⟨fun offset length piece member => ?_, fun offset length => ?_, fun offset data => ?_,
    fun serves calls fits flat number row there same =>
      Mirrors.performAll calls fits ⟨found, device, row, placed, serves, there, same⟩⟩
  · have within := piece_within_range member
    have positive := (piece_within_block member).1
    rw [available] at within
    omega
  · refine (readExtent_spec found placed offset length).mono ?_ (fun _ _ never => never)
      fun _ _ worn => worn
    rintro transfer after ⟨moved, -, all⟩
    refine ⟨moved, fun complete => ?_⟩
    rw [all complete, available_eq]
    refine ⟨Sectors.length_read .., fun buffer i small => ?_⟩
    rw [Block.getElem_overlay, if_pos (Nat.zero_le i), Nat.sub_zero, Sectors.getElem?_read,
      Nat.add_assoc]
    split <;> rfl
  · have spec := writeExtent_spec found placed offset data
    rw [available_eq] at spec
    exact spec

/-- Four bytes across the end of a sector are written and read back. If the second sector can not be
written, the first of them has been. -/
theorem extent_acts_as_flat_across_sectors :
    (∃ (device : Device) (storage : Storage),
      storage.files[0]? = some (.extent 0 1 1000) ∧ storage.devices[0]? = some device ∧
      ([.write 510 [1, 2, 3, 4], .read 508 8].mapM (FileCall.perform 0)).Ensures ⟨storage, #[]⟩
        (fun replies _ => replies = [.taken 4, .delivered ⟨[0, 0, 1, 2, 3, 4, 0, 0], none⟩])
        (fun _ _ => False) fun cause after => cause = .countOverflow ∧ after.state.Worn) ∧
    ∃ (device : Device) (storage : Storage) (after : Traced Storage) (count : Nat),
      storage.files[0]? = some (.extent 0 1 1000) ∧ storage.devices[0]? = some device ∧
      writeAt 0 510 [1, 2, 3, 4] ⟨storage, #[]⟩ = .error (.failed .writeError) after ∧
      count ≤ 4 ∧ (count = 0 ∨ sectorSize ∣ 510 + count) ∧
      (storage.journaled ⟨0, 510, 4⟩).Moved after.state 0 device fun row =>
        device.medium.row.Overwritten row (sectorSize * 1 + 510) (List.take count [1, 2, 3, 4]) := by
  constructor
  · let device : Device := { name := "hda1", kind := .fileSystem, size := 3, medium := ⟨3, {}⟩ }
    let storage : Storage := { devices := #[device], files := #[.extent 0 1 1000, .flat 1000 {}] }
    let first : Traced Storage := ⟨storage, #[]⟩
    have found : first.state.files[0]? = some (.extent 0 1 1000) := rfl
    have placed : first.state.devices[0]? = some device := rfl
    have flat : first.state.files[1]? = some (.flat 1000 {}) := rfl
    have serves : device.Serves (sectorSize * 1 + 1000) :=
      ⟨by decide, by decide, by decide, by decide, fun _ => rfl, fun _ => rfl⟩
    have zero (position : Nat) : ({} : Sectors).byteAt position = 0 := by
      simp [Sectors.byteAt, Sectors.get, Block.zero]
    obtain ⟨middle, wrote, there⟩ := writeFlat flat (by decide)
      (show 510 + [1, 2, 3, 4].length ≤ 1000 by decide)
    have delivered : (({} : Sectors).write 510 [1, 2, 3, 4]).read 508 (available 1000 508 8) =
        [0, 0, 1, 2, 3, 4, 0, 0] := by
      apply List.ext_getElem?
      intro i
      rw [Sectors.getElem?_read, Sectors.byteAt_write, zero]
      by_cases inside : i < 8
      · revert i
        decide
      · rw [if_neg (show ¬ i < available 1000 508 8 from inside),
          List.getElem?_eq_none (Nat.le_of_not_lt inside)]
    have read : (FileCall.read 508 8).perform 1 middle =
        .ok (.delivered ⟨[0, 0, 1, 2, 3, 4, 0, 0], none⟩) middle := by
      rw [FileCall.perform, bind_of_ok (readFlat there 508 8), delivered]
      rfl
    have written : (FileCall.write 510 [1, 2, 3, 4]).perform 1 first = .ok (.taken 4) middle :=
      bind_of_ok wrote _
    refine ⟨device, storage, found, placed, ?_⟩
    refine ((extent_acts_as_flat found placed).replays serves _ ?_ first 1 {} flat
      fun i _ => (zero _).trans (zero _).symm).mono ?_ (fun _ _ never => never) fun _ _ worn => worn
    · simp [FileCall.Fits]
    · rintro replies after ⟨last, ran, -⟩
      rw [mapM_cons_ok written (mapM_cons_ok read rfl)] at ran
      cases ran
      rfl
  · let device : Device :=
      { name := "hda1", kind := .fileSystem, size := 3, medium := ⟨3, {}⟩,
        writeFaults := .after (some 1) }
    let storage : Storage := { devices := #[device], files := #[.extent 0 1 1000] }
    let first : Traced Storage := ⟨storage, #[]⟩
    have found : first.state.files[0]? = some (.extent 0 1 1000) := rfl
    have placed : first.state.devices[0]? = some device := rfl
    have cut : extentPieces 1000 510 ([1, 2, 3, 4] : Bytes).length = [⟨510, 2⟩, ⟨512, 2⟩] := by
      simp [extentPieces, pieces, available, sectorSize]
    have ends : (writeAt 0 510 [1, 2, 3, 4]).Ensures first (fun _ _ => False)
        (fun cause _ => cause = .writeError) fun _ _ => False := by
      rw [ensures_writeExtent found placed, cut]
      rfl
    obtain ⟨cause, after, ran, rfl⟩ := ends.exists_failed
    obtain ⟨count, few, aligned, moved⟩ :=
      ((extent_acts_as_flat found placed).writes 510 [1, 2, 3, 4]).failed ran
    exact ⟨device, storage, after, count, found, placed, ran, few, aligned, moved⟩

end Storage

end DemandPaging
