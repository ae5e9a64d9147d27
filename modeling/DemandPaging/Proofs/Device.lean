import DemandPaging.Device
import DemandPaging.Piece
import DemandPaging.Proofs.Keeps

namespace DemandPaging

def Sectors.Overwritten (row after : Sectors) (start : Nat) (data : Bytes) : Prop :=
  ∀ position, after.byteAt position =
    if start ≤ position then (data[position - start]?).getD (row.byteAt position)
    else row.byteAt position

namespace Sectors

theorem overwritten_nil (row : Sectors) (start : Nat) : row.Overwritten row start [] :=
  fun _ => by simp

theorem Overwritten.append {row middle after : Sectors} {start : Nat} {data more : Bytes}
    (first : row.Overwritten middle start data)
    (second : middle.Overwritten after (start + data.length) more) :
    row.Overwritten after start (data ++ more) := by
  intro position
  rw [second position, first position, List.getElem?_append]
  by_cases reached : start ≤ position
  · by_cases early : position - start < data.length
    · rw [if_neg (by omega), if_pos reached, if_pos reached, if_pos early]
    · have missing : data[position - start]? = none := List.getElem?_eq_none (by omega)
      rw [if_pos (by omega), if_pos reached, if_pos reached, if_neg early, missing,
        show position - (start + data.length) = position - start - data.length by omega]
      rfl
  · rw [if_neg (by omega), if_neg reached, if_neg reached]

theorem overwritten_put (row : Sectors) {start : Nat} {data : Bytes}
    (fits : start % sectorSize + data.length ≤ 512) :
    row.Overwritten (row.put (start / sectorSize)
      ((row.get (start / sectorSize)).overlay (start % sectorSize) data)) start data := by
  intro position
  rw [byteAt_put_overlay]
  by_cases reached : start ≤ position
  · by_cases same : position / sectorSize = start / sectorSize
    · rw [if_pos ⟨reached, same⟩, if_pos reached]
    · have missing : data[position - start]? = none := by
        refine List.getElem?_eq_none ?_
        simp only [sectorSize] at fits same
        omega
      rw [if_neg fun both => same both.2, if_pos reached, missing]
      rfl
  · rw [if_neg fun both => reached both.1, if_neg reached]

end Sectors

theorem Block.overlay_full {size : Nat} (block other : Block size) {data : Bytes}
    (full : data.length = size) : block.overlay 0 data = other.overlay 0 data := by
  ext i small
  have inside : i < data.length := full.symm ▸ small
  simp [getElem_overlay, inside]

theorem Block.overlay_toList {size : Nat} (block other : Block size) :
    block.overlay 0 other.toList = other := by
  ext i small
  simp [getElem_overlay, small]

namespace Device

open DemandPaging.Action

def Worn (device : Device) : Prop :=
  halfWordLimit ≤ device.reads + 1 ∨ halfWordLimit ≤ device.writes + 1

def Overflowed (cause : Panic) (after : Traced Device) : Prop :=
  cause = .countOverflow ∧ after.state.Worn

theorem counted_error {count : Nat} {cause : Panic} (refused : counted count = .error cause) :
    cause = .countOverflow ∧ halfWordLimit ≤ count + 1 := by
  unfold counted at refused
  split at refused
  · cases refused
  · rename_i full
    cases refused
    exact ⟨rfl, Nat.le_of_not_lt full⟩

variable {before : Traced Device}

structure SameMake (before after : Device) : Prop where
  kind : after.kind = before.kind
  size : after.size = before.size
  sectors : after.medium.size = before.medium.size
  readFaults : after.readFaults.fails = before.readFaults.fails
  writeFaults : after.writeFaults.fails = before.writeFaults.fails

theorem chained_sameMake : Chained SameMake where
  refl _ := ⟨rfl, rfl, rfl, rfl, rfl⟩
  trans one two := ⟨two.kind.trans one.kind, two.size.trans one.size,
    two.sectors.trans one.sectors, two.readFaults.trans one.readFaults,
    two.writeFaults.trans one.writeFaults⟩

theorem readSector_keeps (sector : Nat) : (readSector sector).Keeps SameMake := by
  intro before
  simp only [readSector, ensures_bind, ensures_look, ensures_require, ensures_update]
  have same (reads : Nat) : before.state.SameMake
      { before.state with readFaults := before.state.readFaults.next, reads := reads } :=
    ⟨rfl, rfl, rfl, rfl, rfl⟩
  split
  · split
    · cases before.state.medium.read? sector with
      | none => exact same _
      | some data =>
          simp only [ensures_bind, ensures_orPanic]
          split
          · exact same _
          · trivial
    · exact same _
  · exact chained_sameMake.refl _

theorem writeSector_keeps (sector : Nat) (data : Sector) :
    (writeSector sector data).Keeps SameMake := by
  intro before
  simp only [writeSector, ensures_bind, ensures_look, ensures_require, ensures_update]
  have same {medium : Medium} (size : medium.size = before.state.medium.size) (writes : Nat) :
      before.state.SameMake { before.state with
        writeFaults := before.state.writeFaults.next, medium := medium, writes := writes } :=
    ⟨rfl, rfl, size, rfl, rfl⟩
  split
  · split
    · split
      · cases written : before.state.medium.write? sector data with
        | none => exact same rfl _
        | some medium =>
            simp only [Medium.write?, Option.ite_none_right_eq_some, Option.some.injEq] at written
            simp only [ensures_bind, ensures_orPanic, ensures_update]
            split
            · exact same (by rw [← written.2]) _
            · trivial
      · exact same rfl _
    · exact chained_sameMake.refl _
  · exact chained_sameMake.refl _

theorem readSector_spec (sector : Nat) : (readSector sector).Ensures before
    (fun data after => after.state.medium = before.state.medium ∧
      data = before.state.medium.sectorAt sector)
    (fun _ after => after.state.medium = before.state.medium) Overflowed := by
  simp only [readSector, ensures_bind, ensures_look, ensures_require, ensures_update]
  split
  · split
    · cases read : before.state.medium.read? sector with
      | none => simp
      | some data =>
          simp only [Medium.read?, Option.ite_none_right_eq_some, Option.some.injEq] at read
          simp only [ensures_bind, ensures_orPanic]
          split
          · simpa using read.2.symm
          · rename_i refused
            exact (counted_error refused).imp_right .inl
    · trivial
  · trivial

theorem writeSector_spec (sector : Nat) (data : Sector) : (writeSector sector data).Ensures before
    (fun _ after => after.state.medium.row = before.state.medium.row.put sector data)
    (fun _ after => after.state.medium = before.state.medium) Overflowed := by
  simp only [writeSector, ensures_bind, ensures_look, ensures_require, ensures_update]
  split
  · split
    · split
      · cases written : before.state.medium.write? sector data with
        | none => simp
        | some medium =>
            simp only [Medium.write?, Option.ite_none_right_eq_some, Option.some.injEq] at written
            simp only [ensures_bind, ensures_orPanic, ensures_update]
            split
            · rw [← written.2]
            · rename_i refused
              exact (counted_error refused).imp_right .inr
      · trivial
    · trivial
  · trivial

/-! ## Transfers that can not fail -/

variable {stop sector : Nat}

structure Serves (device : Device) (stop : Nat) : Prop where
  writable : device.kind ≠ .foreign
  countable : device.size < halfWordLimit
  offered : stop ≤ sectorSize * device.size
  present : stop ≤ sectorSize * device.medium.size
  reads : ∀ attempt, device.readFaults.fails attempt = false
  writes : ∀ attempt, device.writeFaults.fails attempt = false

theorem Serves.after {device after : Device} (serves : device.Serves stop)
    (make : device.SameMake after) : after.Serves stop where
  writable := make.kind ▸ serves.writable
  countable := make.size ▸ serves.countable
  offered := make.size ▸ serves.offered
  present := make.sectors ▸ serves.present
  reads := make.readFaults ▸ serves.reads
  writes := make.writeFaults ▸ serves.writes

theorem Serves.offers {device : Device} (serves : device.Serves stop)
    (inside : sectorSize * sector < stop) : sector < device.size ∧ sector < device.medium.size :=
  ⟨Nat.lt_of_mul_lt_mul_left (Nat.lt_of_lt_of_le inside serves.offered),
    Nat.lt_of_mul_lt_mul_left (Nat.lt_of_lt_of_le inside serves.present)⟩

theorem readSector_serves (serves : before.state.Serves stop) (inside : sectorSize * sector < stop) :
    (readSector sector).Ensures before (fun _ after => after.state.Serves stop)
      (fun _ _ => False) fun _ _ => True := by
  have succeeds : (readSector sector).Ensures before (fun _ _ => True) (fun _ _ => False)
      fun _ _ => True := by
    obtain ⟨offered, present⟩ := serves.offers inside
    have sound : ¬ before.state.readFaults.failsNext = true := by
      rw [Faults.failsNext, serves.reads]
      exact Bool.false_ne_true
    simp only [readSector, ensures_bind, ensures_look, ensures_require, ensures_update,
      Medium.read?, if_pos offered, if_pos present, if_pos sound, ensures_orPanic, ensures_pure]
    split <;> trivial
  exact (succeeds.and (readSector_keeps sector before)).mono
    (fun _ _ both => serves.after both.2) (fun _ _ both => both.1) fun _ _ _ => trivial

theorem writeSector_serves (serves : before.state.Serves stop)
    (inside : sectorSize * sector < stop) (data : Sector) :
    (writeSector sector data).Ensures before (fun _ after => after.state.Serves stop)
      (fun _ _ => False) fun _ _ => True := by
  have succeeds : (writeSector sector data).Ensures before (fun _ _ => True) (fun _ _ => False)
      fun _ _ => True := by
    obtain ⟨offered, present⟩ := serves.offers inside
    have sound : ¬ before.state.writeFaults.failsNext = true := by
      rw [Faults.failsNext, serves.writes]
      exact Bool.false_ne_true
    simp only [writeSector, ensures_bind, ensures_look, ensures_require, ensures_update,
      Medium.write?, if_pos offered, if_pos present, if_pos serves.writable, if_pos sound,
      ensures_orPanic]
    split <;> trivial
  exact (succeeds.and (writeSector_keeps sector data before)).mono
    (fun _ _ both => serves.after both.2) (fun _ _ both => both.1) fun _ _ _ => trivial

end Device

theorem Transfer.gather_keeps {δ σ α : Type} {relation : σ → σ → Prop}
    {read : α → Action DeviceError σ Bytes} (chained : Action.Chained relation) (steps : List α)
    (kept : ∀ step ∈ steps, (read step).Keeps relation) :
    (gather read steps : Action δ σ Transfer).Keeps relation := by
  induction steps with
  | nil => exact Action.keeps_pure chained _
  | cons step rest ih =>
      obtain ⟨here, there⟩ := List.forall_mem_cons.mp kept
      refine here.attempt.bind chained fun outcome => ?_
      cases outcome with
      | error cause => exact Action.keeps_pure chained _
      | ok bytes => exact (ih there).bind chained fun _ => Action.keeps_pure chained _

/-- Where each step delivers its part or fails, a transfer without a failure has all the parts. -/
theorem Transfer.gather_spec {δ σ α : Type} {read : α → Action DeviceError σ Bytes}
    {fails : δ → Traced σ → Prop} {panics : Panic → Traced σ → Prop} (part : α → Bytes)
    (keep : Traced σ → Prop) (steps : List α)
    (spec : ∀ step ∈ steps, ∀ before, keep before → (read step).Ensures before
      (fun bytes after => keep after ∧ bytes = part step) (fun _ after => keep after) panics)
    {before : Traced σ} (kept : keep before) :
    (gather read steps).Ensures before
      (fun transfer after => keep after ∧ transfer.bytes <+: steps.flatMap part ∧
        (transfer.failure = none → transfer.bytes = steps.flatMap part)) fails panics := by
  induction steps generalizing before with
  | nil => exact ⟨kept, List.prefix_rfl, fun _ => rfl⟩
  | cons step rest ih =>
      simp only [gather, Action.ensures_bind, Action.ensures_attempt]
      refine (spec step List.mem_cons_self before kept).mono ?_ ?_ fun _ _ panicked => panicked
      · rintro bytes middle ⟨still, rfl⟩
        refine (ih (fun other member => spec other (List.mem_cons_of_mem _ member)) still).mono ?_
          (fun _ _ failed => failed) fun _ _ panicked => panicked
        rintro later after ⟨same, begun, all⟩
        rw [List.flatMap_cons]
        exact ⟨same, List.prefix_append_right_inj _ |>.mpr begun, fun complete =>
          congrArg _ (all complete)⟩
      · intro cause middle still
        exact ⟨still, List.nil_prefix, fun complete => absurd complete (Option.some_ne_none cause)⟩

theorem Transfer.gather_complete {δ σ α : Type} {read : α → Action DeviceError σ Bytes}
    {fails : δ → Traced σ → Prop} {panics : Panic → Traced σ → Prop} (keep : Traced σ → Prop)
    (steps : List α)
    (spec : ∀ step ∈ steps, ∀ before, keep before → (read step).Ensures before
      (fun _ after => keep after) (fun _ _ => False) panics)
    {before : Traced σ} (kept : keep before) :
    (gather read steps).Ensures before
      (fun transfer after => keep after ∧ transfer.failure = none) fails panics := by
  induction steps generalizing before with
  | nil => exact ⟨kept, rfl⟩
  | cons step rest ih =>
      simp only [gather, Action.ensures_bind, Action.ensures_attempt]
      obtain ⟨here, there⟩ := List.forall_mem_cons.mp spec
      refine (here before kept).mono ?_ (fun _ _ never => never.elim) fun _ _ panicked => panicked
      exact fun bytes middle still => ih there still

end DemandPaging
