import DemandPaging.Proofs.View
import Mathlib.Data.Finset.Card
import Mathlib.Order.Interval.Finset.Nat

namespace DemandPaging.Pool

variable {pool after : Pool} {frame : Nat}

theorem lt_size_of_holder {holder : Holder} (held : pool.holder frame = some holder) :
    frame < pool.size := by
  simp only [Pool.holder, occupant?, Option.bind_eq_bind, Option.map_eq_some_iff,
    Option.bind_eq_some_iff] at held
  obtain ⟨_, ⟨_, found, -⟩, -⟩ := held
  exact (Array.getElem?_eq_some_iff.mp found).1

theorem contents_eq (inside : frame < pool.size) : pool.contents frame = .ok (pool.page frame) := by
  have found : pool.frames[frame]? = some pool.frames[frame] := Array.getElem?_eq_getElem inside
  simp [contents, page, found]

theorem holder_setOccupant (inside : frame < pool.size) (occupant : Option Occupant) :
    (pool.setOccupant frame occupant).holder =
      Function.update pool.holder frame (occupant.map Occupant.holder) := by
  funext other
  rw [Function.update_apply, Pool.holder, occupant?_setOccupant _ _ _ inside]
  split <;> rfl

theorem page_setOccupant (occupant : Option Occupant) :
    (pool.setOccupant frame occupant).page = pool.page := by
  funext other
  simp only [page, setOccupant, Array.getElem?_modify]
  split
  · cases pool.frames[other]? <;> rfl
  · rfl

theorem holder_edit (f : Page → Page) : (pool.edit frame f).holder = pool.holder := by
  funext other
  rw [Pool.holder, occupant?_edit, Pool.holder]

theorem page_edit (inside : frame < pool.size) (f : Page → Page) :
    (pool.edit frame f).page = Function.update pool.page frame (f (pool.page frame)) := by
  funext other
  have found : pool.frames[frame]? = some pool.frames[frame] := Array.getElem?_eq_getElem inside
  rw [Function.update_apply]
  simp only [page, edit, Array.getElem?_modify, eq_comm (a := frame)]
  split
  · rename_i same
    subst same
    simp [found]
  · rfl

theorem size_edit (f : Page → Page) : (pool.edit frame f).size = pool.size := by
  simp [edit, Pool.size]

theorem edit_congr {f g : Page → Page} (same : f (pool.page frame) = g (pool.page frame)) :
    pool.edit frame f = pool.edit frame g := by
  unfold edit
  congr 1
  apply Array.ext_getElem?
  intro other
  rw [Array.getElem?_modify, Array.getElem?_modify]
  split
  · rename_i here
    subst here
    cases found : pool.frames[frame]? with
    | none => rfl
    | some old =>
        rw [page, found] at same
        exact congrArg some (congrArg (Frame.mk · old.occupant) same)
  · rfl

theorem rewrite_eq (inside : frame < pool.size) {f : Page → Except Panic Page} (g : Page → Page)
    (changed : f (pool.page frame) = .ok (g (pool.page frame))) :
    pool.rewrite frame f = .ok (pool.edit frame g) := by
  have same : pool.edit frame (fun _ => g (pool.page frame)) = pool.edit frame g := edit_congr rfl
  simp [rewrite, contents_eq inside, changed, same, bind, Except.bind, pure, Except.pure]

theorem holder_eq_none (inside : frame < pool.frames.size) :
    pool.holder frame = none ↔ pool.frames[frame].occupant.isNone = true := by
  have there : pool.frames[frame]? = some pool.frames[frame] := Array.getElem?_eq_getElem inside
  simp [Pool.holder, occupant?, there]

/-! ## The number of frames in use -/

def occupied (pool : Pool) : Finset Nat :=
  (Finset.range pool.size).filter fun frame => (pool.holder frame).isSome

def Counted (pool : Pool) : Prop := pool.resident = pool.occupied.card

theorem mem_occupied : frame ∈ pool.occupied ↔ (pool.holder frame).isSome := by
  simp only [occupied, Finset.mem_filter, Finset.mem_range, and_iff_right_iff_imp]
  intro some
  obtain ⟨holder, held⟩ := Option.isSome_iff_exists.mp some
  exact lt_size_of_holder held

theorem occupied_congr (same : ∀ frame, (after.holder frame).isSome = (pool.holder frame).isSome) :
    after.occupied = pool.occupied := by
  ext frame
  rw [mem_occupied, mem_occupied, same]

theorem counted_ofSize (size : Nat) : (ofSize size).Counted := by
  have vacant : ∀ frame, (ofSize size).holder frame = none := by
    intro frame
    simp only [Pool.holder, occupant?, ofSize, Array.getElem?_replicate]
    split <;> rfl
  have unused : (ofSize size).occupied = ∅ := by
    ext frame
    simp [mem_occupied, vacant]
  rw [Counted, unused]
  rfl

theorem counted_edit (counted : pool.Counted) (f : Page → Page) : (pool.edit frame f).Counted := by
  have same : (pool.edit frame f).occupied = pool.occupied :=
    occupied_congr fun other => by rw [holder_edit]
  rw [Counted, same]
  exact counted

/-! ## Free frames -/

def Full (pool : Pool) : Prop := ∀ frame < pool.size, pool.holder frame ≠ none

structure LowestFree (pool : Pool) (frame : Nat) : Prop where
  inside : frame < pool.size
  free : pool.holder frame = none
  below : ∀ lower < frame, pool.holder lower ≠ none

theorem lowestFree?_spec (found : pool.lowestFree? = some frame) : pool.LowestFree frame := by
  simp only [lowestFree?, Option.ite_none_left_eq_some] at found
  obtain ⟨inside, vacant, below⟩ := Array.findIdx?_eq_some_iff_getElem.mp found.2
  refine ⟨inside, (holder_eq_none inside).mpr vacant, fun lower less free => ?_⟩
  exact below lower less ((holder_eq_none (Nat.lt_trans less inside)).mp free)

theorem Counted.full (counted : pool.Counted) (refused : pool.lowestFree? = none) : pool.Full := by
  intro frame inside vacant
  unfold lowestFree? at refused
  split at refused
  · rename_i resident
    have all : pool.occupied = Finset.range pool.size := by
      apply Finset.eq_of_subset_of_card_le (Finset.filter_subset ..)
      exact Nat.le_of_eq ((Finset.card_range _).trans (resident.symm.trans counted))
    have member : frame ∈ pool.occupied := by
      rw [all]
      exact Finset.mem_range.mpr inside
    rw [mem_occupied, vacant] at member
    cases member
  · have taken := Array.findIdx?_eq_none_iff.mp refused _ (Array.getElem_mem inside)
    rw [(holder_eq_none inside).mp vacant] at taken
    cases taken

/-! ## Operations -/

structure Tended (pool after : Pool) : Prop where
  size : after.size = pool.size
  counted : pool.Counted → after.Counted
  hand : pool.hand < pool.size → after.hand < after.size

theorem Tended.trans {middle : Pool} (first : Tended pool middle) (second : Tended middle after) :
    Tended pool after :=
  ⟨second.size.trans first.size, second.counted ∘ first.counted, second.hand ∘ first.hand⟩

theorem tended_edit (f : Page → Page) : Tended pool (pool.edit frame f) :=
  ⟨size_edit f, fun counted => counted_edit counted f, fun hand => (size_edit f).symm ▸ hand⟩

structure Amended (pool after : Pool) (frame : Nat) (f : Holder → Holder) : Prop
    extends Tended pool after where
  holder : after.holder = Function.update pool.holder frame ((pool.holder frame).map f)
  page : after.page = pool.page

theorem amended_setOccupant {occupant next : Occupant} {f : Holder → Holder}
    (found : pool.occupant? frame = some occupant) (amended : next.holder = f occupant.holder) :
    Amended pool (pool.setOccupant frame (some next)) frame f := by
  have held : pool.holder frame = some occupant.holder := by simp [Pool.holder, found]
  have inside := lt_size_of_holder held
  have changed : (pool.setOccupant frame (some next)).holder =
      Function.update pool.holder frame ((pool.holder frame).map f) := by
    rw [holder_setOccupant inside, held, Option.map_some, Option.map_some, amended]
  have size := size_setOccupant pool frame (some next)
  refine ⟨⟨size, fun counted => ?_, fun hand => size.symm ▸ hand⟩, changed, page_setOccupant _⟩
  have same : (pool.setOccupant frame (some next)).occupied = pool.occupied := by
    apply occupied_congr
    intro other
    rw [changed, Function.update_apply]
    split
    · rename_i this
      simp [this]
    · rfl
  rw [Counted, same]
  exact counted

theorem exists_occupant {holder : Holder} (held : pool.holder frame = some holder) :
    ∃ occupant, pool.occupant? frame = some occupant ∧ occupant.holder = holder :=
  Option.map_eq_some_iff.mp held

theorem amend_ok {f : Occupant → Except Panic Occupant} (done : pool.amend frame f = .ok after) :
    ∃ occupant next, pool.occupant? frame = some occupant ∧ f occupant = .ok next ∧
      after = pool.setOccupant frame (some next) := by
  unfold amend at done
  split at done
  · rename_i occupant found
    cases noted : f occupant with
    | ok next =>
        rw [noted] at done
        cases done
        exact ⟨occupant, next, found, noted, rfl⟩
    | error cause =>
        rw [noted] at done
        cases done
  · cases done

theorem pin_spec {holder : Holder} (held : pool.holder frame = some holder) :
    pool.pin frame = .error (.pinOverflow frame) ∨ ∃ after, pool.pin frame = .ok after ∧
      Amended pool after frame fun holder => { holder with pins := holder.pins + 1 } := by
  obtain ⟨occupant, found, -⟩ := exists_occupant held
  simp only [pin, amend, found]
  split
  · exact .inr ⟨_, rfl, amended_setOccupant found rfl⟩
  · exact .inl rfl

theorem unpin_spec {holder : Holder} (held : pool.holder frame = some holder) :
    ∃ after, pool.unpin frame = .ok after ∧
      Amended pool after frame fun holder => { holder with pins := holder.pins - 1 } := by
  obtain ⟨occupant, found, -⟩ := exists_occupant held
  simp only [unpin, amend, found]
  exact ⟨_, rfl, amended_setOccupant found rfl⟩

theorem touch_spec {holder : Holder} (held : pool.holder frame = some holder) (write : Bool) :
    ∃ after, pool.touch frame write = .ok after ∧
      Amended pool after frame fun holder => { holder with written := write || holder.written } := by
  obtain ⟨occupant, found, -⟩ := exists_occupant held
  simp only [touch, amend, found]
  refine ⟨_, rfl, amended_setOccupant found ?_⟩
  cases write <;> simp [Occupant.holder]

theorem Amended.held {f : Holder → Holder} {holder : Holder} (amended : Amended pool after frame f)
    (held : pool.holder frame = some holder) : after.holder frame = some (f holder) := by
  rw [amended.holder, Function.update_self, held, Option.map_some]

theorem Amended.trans {middle : Pool} {f g : Holder → Holder} (first : Amended pool middle frame f)
    (second : Amended middle after frame g) : Amended pool after frame (g ∘ f) where
  toTended := first.toTended.trans second.toTended
  holder := by
    rw [second.holder, first.holder, Function.update_self, Option.map_map, Function.update_idem]
  page := second.page.trans first.page

theorem finish_spec {holder : Holder} (held : pool.holder frame = some holder)
    (write : Option Bool) :
    ∃ after, pool.finish frame write = .ok after ∧ Amended pool after frame fun holder =>
      { holder with written := write.getD false || holder.written, pins := holder.pins - 1 } := by
  cases write with
  | none =>
      obtain ⟨after, done, amended⟩ := unpin_spec held
      refine ⟨after, done, ?_⟩
      simpa using amended
  | some write =>
      obtain ⟨middle, touched, first⟩ := touch_spec held write
      obtain ⟨after, done, second⟩ := unpin_spec (first.held held)
      refine ⟨after, ?_, first.trans second⟩
      simp only [finish, touched]
      exact done

theorem vacate_ok (done : pool.vacate frame = .ok after) :
    (∃ holder, pool.holder frame = some holder) ∧
      after = { pool.setOccupant frame none with resident := pool.resident - 1 } := by
  unfold vacate at done
  split at done
  · cases done
  · rename_i found there
    split at done
    · rename_i taken
      obtain ⟨occupant, same⟩ := Option.isSome_iff_exists.mp taken
      refine ⟨⟨occupant.holder, by simp [Pool.holder, occupant?, there, same]⟩, ?_⟩
      unfold subWord at done
      split at done
      · cases done
        rfl
      · cases done
    · cases done

theorem vacate_elsewhere (done : pool.vacate frame = .ok after) :
    (∀ {other}, other ≠ frame → after.frames[other]? = pool.frames[other]?) ∧
      after.hand = pool.hand := by
  obtain ⟨-, rfl⟩ := vacate_ok done
  refine ⟨fun distinct => ?_, rfl⟩
  simp [setOccupant, Array.getElem?_modify, Ne.symm distinct]

theorem Counted.positive {holder : Holder} (counted : pool.Counted)
    (held : pool.holder frame = some holder) : 0 < pool.resident := by
  rw [show pool.resident = _ from counted]
  exact Finset.card_pos.mpr ⟨frame, mem_occupied.mpr (by simp [held])⟩

theorem vacate_spec {holder : Holder} (counted : pool.Counted)
    (held : pool.holder frame = some holder) :
    ∃ after, pool.vacate frame = .ok after ∧
      after.holder = Function.update pool.holder frame none ∧ after.page = pool.page ∧
      Tended pool after := by
  have inside := lt_size_of_holder held
  have found : pool.frames[frame]? = some pool.frames[frame] := Array.getElem?_eq_getElem inside
  have taken : pool.frames[frame].occupant.isSome = true := by
    have := congrArg Option.isSome held
    simpa [Pool.holder, occupant?, found] using this
  have changed : (pool.setOccupant frame none).holder = Function.update pool.holder frame none :=
    holder_setOccupant inside none
  have size := size_setOccupant pool frame none
  refine ⟨{ pool.setOccupant frame none with resident := pool.resident - 1 }, ?_, changed,
    page_setOccupant none, size, fun _ => ?_, fun hand => size.symm ▸ hand⟩
  · simp [vacate, found, taken, subWord_eq (counted.positive held)]
  · have fewer : (pool.setOccupant frame none).occupied = pool.occupied.erase frame := by
      ext other
      rw [Finset.mem_erase, mem_occupied, mem_occupied, changed, Function.update_apply]
      split <;> simp_all
    change pool.resident - 1 = (pool.setOccupant frame none).occupied.card
    rw [fewer, Finset.card_erase_of_mem (mem_occupied.mpr (by simp [held])), ← counted]

theorem lend_spec (inside : frame < pool.size) (free : pool.holder frame = none)
    (owner page : Nat) (clear : Bool) :
    (pool.lend frame owner page clear).holder =
        Function.update pool.holder frame (some ⟨owner, page, 0, false⟩) ∧
      (pool.lend frame owner page clear).page = Function.update pool.page frame
        (if clear then Block.zero 4096 else pool.page frame) ∧
      Tended pool (pool.lend frame owner page clear) := by
  let taken := { pool.setOccupant frame (some { owner, page }) with resident := pool.resident + 1 }
  have clean : ({} : KernelTouch).dirty = false := by decide
  have changed : taken.holder =
      Function.update pool.holder frame (some ⟨owner, page, 0, false⟩) := by
    rw [← clean]
    exact holder_setOccupant inside (some { owner, page })
  have wide : taken.size = pool.size := size_setOccupant ..
  have bytes : taken.page = pool.page := page_setOccupant (some { owner, page })
  have counted : pool.Counted → taken.Counted := by
    intro counted
    have more : taken.occupied = insert frame pool.occupied := by
      ext other
      rw [Finset.mem_insert, mem_occupied, mem_occupied, changed, Function.update_apply]
      split <;> simp_all
    have absent : frame ∉ pool.occupied := by simp [mem_occupied, free]
    rw [Counted, more, Finset.card_insert_of_notMem absent, ← counted]
  have tended : Tended pool taken := ⟨wide, counted, fun hand => wide.symm ▸ hand⟩
  cases clear with
  | false =>
      refine ⟨changed, ?_, tended⟩
      change taken.page = _
      rw [bytes, if_neg Bool.false_ne_true, Function.update_eq_self]
  | true =>
      have cleared : pool.lend frame owner page true =
          taken.edit frame fun _ => Block.zero 4096 := rfl
      rw [cleared]
      refine ⟨(holder_edit _).trans changed, ?_, tended.trans (tended_edit _)⟩
      rw [page_edit (wide.symm ▸ inside), bytes, if_pos rfl]

theorem occupy_ok {owner page : Nat} {clear : Bool}
    (done : pool.occupy frame owner page clear = .ok after) :
    after = pool.lend frame owner page clear := by
  unfold occupy at done
  split at done
  · cases done
  · unfold addWord at done
    split at done
    · cases done
      rfl
    · cases done

theorem occupy_eq (inside : frame < pool.size) (small : pool.resident + 1 < wordLimit)
    (owner page : Nat) (clear : Bool) :
    pool.occupy frame owner page clear = .ok (pool.lend frame owner page clear) := by
  simp [occupy, Nat.not_le.mpr inside, addWord_eq small, bind, Except.bind, pure, Except.pure]

theorem Counted.countable (counted : pool.Counted) (inside : frame < pool.size)
    (free : pool.holder frame = none) (small : pool.size < wordLimit) :
    pool.resident + 1 < wordLimit := by
  have absent : frame ∉ pool.occupied := by simp [mem_occupied, free]
  have fewer : pool.occupied.card < (Finset.range pool.size).card :=
    Finset.card_lt_card ((Finset.ssubset_iff_of_subset (Finset.filter_subset ..)).mpr
      ⟨frame, Finset.mem_range.mpr inside, absent⟩)
  rw [Finset.card_range, ← show pool.resident = _ from counted] at fewer
  omega

end DemandPaging.Pool
