import DemandPaging.Machine.Copy
import DemandPaging.Proofs.Machine.Fault
import DemandPaging.Proofs.View.Memory

namespace DemandPaging

def Step.Copies (id : Nat) : Step → Prop
  | .kernelWrite key _ _ _ | .userWrite key _ _ _ => key.1 = id
  | step => step.Paging

def Memory.store (memory : Memory) (id start stop : Nat) (bytes : Nat → Option UInt8) : Memory :=
  fun key i =>
    if key.1 = id ∧ start ≤ key.2 + i ∧ key.2 + i < stop then
      (memory key i).map fun old => (bytes (key.2 + i)).getD old
    else memory key i

theorem Memory.store_self (memory : Memory) (id start : Nat) (bytes : Nat → Option UInt8) :
    memory.store id start start bytes = memory := by
  funext key i
  rw [store, if_neg (by omega)]

theorem Memory.store_store (memory : Memory) (id : Nat) {start middle stop : Nat}
    (bytes : Nat → Option UInt8) (first : start ≤ middle) (last : middle ≤ stop) :
    (memory.store id start middle bytes).store id middle stop bytes =
      memory.store id start stop bytes := by
  funext key i
  simp only [store]
  by_cases early : key.1 = id ∧ start ≤ key.2 + i ∧ key.2 + i < middle
  · rw [if_pos early, if_neg (by omega), if_pos (by omega)]
  · rw [if_neg early]
    by_cases late : key.1 = id ∧ middle ≤ key.2 + i ∧ key.2 + i < stop
    · rw [if_pos late, if_pos (by omega)]
    · rw [if_neg late, if_neg (by omega)]

theorem Memory.store_congr (memory : Memory) {id start stop : Nat} {bytes others : Nat → Option UInt8}
    (same : ∀ address, start ≤ address → address < stop → bytes address = others address) :
    memory.store id start stop bytes = memory.store id start stop others := by
  funext key i
  unfold store
  split
  · rename_i covered
    rw [same _ covered.2.1 covered.2.2]
  · rfl

theorem Step.Paging.silent {step : Step} (paging : step.Paging) : step.Silent := by
  cases step with
  | kernelWrite | userWrite => exact paging.elim
  | _ => trivial

theorem Step.Paging.copies {step : Step} (paging : step.Paging) (id : Nat) : step.Copies id := by
  cases step with
  | kernelWrite | userWrite => exact paging.elim
  | _ => exact paging

theorem Step.Copies.inner {id : Nat} {step : Step} (copies : step.Copies id) : step.Inner := by
  cases step with
  | create | destroy => exact copies.elim
  | _ => trivial

theorem Step.Copies.addsNone {id : Nat} {step : Step} (copies : step.Copies id) :
    step.AddsNone := by
  cases step with
  | install => exact copies.elim
  | _ => trivial

theorem page_of_covered {address page i : Nat} (aligned : Aligned page) (small : i < pageSize)
    (covered : address ≤ page + i ∧ page + i < pageOf address + pageSize) :
    page = pageOf address ∧ pageOffset address ≤ i ∧
      address + (i - pageOffset address) = page + i := by
  simp only [Aligned, pageOffset, pageOf, pageSize] at aligned small covered ⊢
  omega

theorem Memory.patch_eq_store (memory : Memory) {id address stop : Nat} {data : Bytes}
    {bytes : Nat → Option UInt8}
    (cut : stop = min (address + data.length) (pageOf address + pageSize))
    (same : ∀ j < data.length, data[j]? = bytes (address + j)) {key : Nat × Nat} {i : Nat}
    (aligned : Aligned key.2) (small : i < pageSize) :
    memory.patch (id, pageOf address) (pageOffset address) data key i =
      memory.store id address stop bytes key i := by
  obtain ⟨owner, page⟩ := key
  simp only [patch, store, Prod.mk.injEq]
  by_cases covered : owner = id ∧ address ≤ page + i ∧ page + i < stop
  · have inside : address ≤ page + i ∧ page + i < pageOf address + pageSize := by omega
    obtain ⟨here, reached, place⟩ := page_of_covered aligned small inside
    rw [if_pos covered, if_pos ⟨⟨covered.1, here⟩, reached⟩,
      same (i - pageOffset address) (by omega), place]
  · rw [if_neg covered]
    split
    · rename_i patched
      obtain ⟨⟨rfl, rfl⟩, reached⟩ := patched
      have whole := pageOf_add_offset address
      have past : data.length ≤ i - pageOffset address := by omega
      simp [List.getElem?_eq_none past]
    · rfl

namespace Machine

open DemandPaging.Action

variable {strict : Prop} {machine middle after : Machine} {log : Array Event} {id page frame : Nat}
  {bytes : Nat → Option UInt8}

def Stores (strict : Prop) (before : Machine) (id start stop : Nat) (bytes : Nat → Option UInt8)
    (after : Machine) : Prop :=
  ∃ steps, Moves strict before steps after ∧ (∀ step ∈ steps, step.Copies id) ∧
    ∀ memory key i, Aligned key.2 → i < pageSize →
      effects steps memory key i = memory.store id start stop bytes key i

theorem Through.stores (through : machine.Through strict Step.Paging after) (start : Nat) :
    machine.Stores strict id start start bytes after := by
  obtain ⟨steps, moves, paging⟩ := through
  refine ⟨steps, moves, fun step member => (paging step member).copies id, fun memory key i _ _ => ?_⟩
  rw [effects_of_silent fun step member => (paging step member).silent, Memory.store_self]

theorem Stores.through {start stop : Nat} (stores : machine.Stores strict id start stop bytes after) :
    machine.Through strict (Step.Copies id) after := by
  obtain ⟨steps, moves, copies, -⟩ := stores
  exact ⟨steps, moves, copies⟩

theorem Stores.congr {start stop : Nat} {others : Nat → Option UInt8}
    (stores : machine.Stores strict id start stop bytes after)
    (same : ∀ address, start ≤ address → address < stop → bytes address = others address) :
    machine.Stores strict id start stop others after := by
  obtain ⟨steps, moves, copies, stored⟩ := stores
  refine ⟨steps, moves, copies, fun memory key i aligned small => ?_⟩
  rw [stored _ _ _ aligned small, memory.store_congr same]

theorem Stores.trans {start here stop : Nat}
    (first : machine.Stores strict id start here bytes middle)
    (second : middle.Stores strict id here stop bytes after) (before : start ≤ here)
    (later : here ≤ stop) : machine.Stores strict id start stop bytes after := by
  obtain ⟨steps, moves, copies, stored⟩ := first
  obtain ⟨more, moves', copies', stored'⟩ := second
  refine ⟨steps ++ more, moves.trans moves', fun step member => ?_,
    fun memory key i aligned small => ?_⟩
  · rcases List.mem_append.mp member with early | late
    · exact copies step early
    · exact copies' step late
  · rw [effects_append, stored' _ _ _ aligned small, ← memory.store_store id bytes before later]
    simp only [Memory.store, stored memory key i aligned small]

structure Stored (strict : Prop) (before : Machine) (id start stop : Nat)
    (bytes : Nat → Option UInt8) (after : Machine) : Prop where
  stores : before.Stores strict id start stop bytes after
  pins : after.view.pins = before.view.pins
  stays : ∀ {key frame}, before.view.frameOf key = some frame → before.view.pins key ≠ 0 →
    after.view.frameOf key = some frame ∧ ∀ i < pageSize, (after.view.contents frame)[i]? =
      Memory.store (fun _ i => (before.view.contents frame)[i]?) id start stop bytes key i

theorem Settled.stored (settled : machine.Settled strict after) (start : Nat) :
    machine.Stored strict id start start bytes after where
  stores := settled.through.stores start
  pins := settled.pins
  stays {key frame} found pinned := by
    obtain ⟨here, same⟩ := settled.firm.stays found pinned
    exact ⟨here, fun i _ => by rw [Memory.store_self, same]⟩

theorem Stored.trans {start here stop : Nat}
    (first : machine.Stored strict id start here bytes middle)
    (second : middle.Stored strict id here stop bytes after) (before : start ≤ here)
    (later : here ≤ stop) : machine.Stored strict id start stop bytes after where
  stores := first.stores.trans second.stores before later
  pins := second.pins.trans first.pins
  stays {key frame} found pinned := by
    obtain ⟨resident, same⟩ := first.stays found pinned
    obtain ⟨resident', same'⟩ := second.stays resident (by rwa [first.pins])
    refine ⟨resident', fun i small => ?_⟩
    rw [same' i small, ← Memory.store_store _ id bytes before later]
    simp only [Memory.store, same i small]

theorem Stored.congr {start stop : Nat} {others : Nat → Option UInt8}
    (stored : machine.Stored strict id start stop bytes after)
    (same : ∀ address, start ≤ address → address < stop → bytes address = others address) :
    machine.Stored strict id start stop others after where
  stores := stored.stores.congr same
  pins := stored.pins
  stays {key frame} found pinned := by
    obtain ⟨resident, written⟩ := stored.stays found pinned
    exact ⟨resident, fun i small => by rw [written i small, Memory.store_congr _ same]⟩

theorem Sound.placed (sound : machine.Sound strict) {key : Nat × Nat}
    (found : machine.view.frameOf key = some frame) : Aligned key.2 := by
  obtain ⟨window, dirty, recorded⟩ := View.exists_holds found
  exact (sound.consistent.placed recorded).2.1

/-! ## Pieces -/

theorem forPieces_eq {α : Type} {start length : Nat} (user : IsUserRange start length) (write : Bool)
    (access : (frame : Nat) → Piece → Action PagingError Machine α) :
    forPieces id start length write access =
      (pieces pageSize start length).mapM (visit id write access) := by
  have small : start + length < wordLimit := Nat.lt_of_le_of_lt user.2 (by decide)
  rw [forPieces, require, if_pos user, addWord_eq small, orPanic_ok, pure_bind, pure_bind]

theorem takeSlice_eq {start length : Nat} {piece : Piece} (within : piece.Within pageSize start length)
    (inside : frame < machine.pool.size) : takeSlice frame piece ⟨machine, log⟩ =
      .ok ((machine.view.contents frame).slice (pageOffset piece.start) piece.length)
        ⟨machine, log⟩ := by
  have fits : pageOffset piece.start + piece.length ≤ 4096 := within.fits
  apply Ensures.ran
  rw [takeSlice, ensures_bind, ensures_contents inside, ensures_orPanic, Block.cut_eq _ fits]
  exact ⟨rfl, rfl⟩

theorem putSlice_eq {start : Nat} {data : Bytes} {piece : Piece}
    (within : piece.Within pageSize start data.length) (inside : frame < machine.pool.size) :
    putSlice start data.toArray frame piece ⟨machine, log⟩ = .ok () ⟨machine.withPool
      (machine.pool.edit frame (·.overlay (pageOffset piece.start) (piece.of start data.toArray))),
      log⟩ := by
  have fits : pageOffset piece.start + (piece.of start data.toArray).length ≤ 4096 := by
    rw [Piece.length_of within]
    exact within.fits
  apply Ensures.ran
  let laid (page : Page) : Page :=
    page.overlay (pageOffset piece.start) (piece.of start data.toArray)
  have done : piece.takeFrom start data.toArray >>=
      (machine.pool.page frame).lay (pageOffset piece.start) =
        .ok (laid (machine.pool.page frame)) := by
    rw [Piece.takeFrom_eq within]
    exact Block.lay_eq _ fits
  rw [putSlice, ensures_changePool (Pool.rewrite_eq inside laid done)]
  exact ⟨rfl, rfl⟩

theorem end_of_within {start length : Nat} {piece : Piece}
    (within : piece.Within pageSize start length) (user : IsUserRange start length) :
    piece.start + piece.length < wordLimit :=
  Nat.lt_of_le_of_lt (Nat.le_trans within.ends user.2) (by decide)

theorem ensures_visit {α : Type} {write : Bool} {piece : Piece} {start length : Nat}
    {access : (frame : Nat) → Piece → Action PagingError Machine α} {before : Traced Machine}
    {returns : α → Traced Machine → Prop} {fails : PagingError → Traced Machine → Prop}
    {panics : Panic → Traced Machine → Prop} (user : IsUserRange start length)
    (within : piece.Within pageSize start length) :
    (visit id write access piece).Ensures before returns fails panics ↔
      (faultIn id piece.start).Ensures before (fun frame resident =>
        (access frame piece).Ensures resident (fun value touched =>
          (releasePin id (pageOf piece.start) frame (some write)).Ensures touched
            (fun _ after => returns value after) fails panics) fails panics) fails panics := by
  simp only [visit, ensures_bind, ensures_orPanic, addWord_eq (end_of_within within user),
    ensures_pure]

theorem writeFrame_spec (sound : machine.Sound strict) (live : machine.view.live id = true)
    {window : Option FileWindow} (holds : machine.view.Holds (id, page) frame window)
    (offset : Nat) (data : Bytes) :
    (releasePin id page frame (some true)).Ensures
      ⟨machine.withPool (machine.pool.edit frame (·.overlay offset data)), log⟩
      (fun _ (after : Traced Machine) => Moves strict machine
        [.kernelWrite (id, page) frame offset data, .unpin (id, page) frame] after.state)
      (fun _ _ => False) fun _ _ => False := by
  obtain ⟨pins, written, held⟩ := sound.consistent.exists_holder holds
  have edited := view_of_edit (Pool.lt_size_of_holder held) (·.overlay offset data)
  refine Ensures.mono (releasePin_spec (sound.shaped.edit _) (by rw [edited]; exact live)
    (by rw [edited]; exact holds) (by rw [edited]; exact held) _) ?_
    (fun _ _ never => never) fun _ _ never => never
  rintro _ ⟨(after : Machine), log⟩ ⟨shaped, seen⟩
  let write : Step := .kernelWrite (id, page) frame offset data
  let done : Step := .unpin (id, page) frame
  have last : after.view = (machine.view.after write).after done := by
    rw [seen, edited]
    simp only [View.after, View.hold, View.fill, held, Option.map_some, Function.update_self,
      Function.update_idem, write, done]
    rfl
  have permitted : machine.view.Permits strict write := ⟨window, holds⟩
  have permitted' : (machine.view.after write).Permits strict done := ⟨window, holds⟩
  exact ⟨last ▸ .cons permitted (.single permitted'), shaped⟩

theorem FaultedIn.write {address : Nat} {data : Bytes} (sound : machine.Sound strict)
    (faulted : machine.FaultedIn strict (id, pageOf address) frame 1 middle)
    (within : pageOffset address + data.length ≤ pageSize)
    (same : ∀ j < data.length, data[j]? = bytes (address + j))
    (moves : Moves strict middle [.kernelWrite (id, pageOf address) frame (pageOffset address) data,
      .unpin (id, pageOf address) frame] after) :
    machine.Stored strict id address (address + data.length) bytes after := by
  have soundMiddle := sound.through faulted.through
  let write : Step := .kernelWrite (id, pageOf address) frame (pageOffset address) data
  let done : Step := .unpin (id, pageOf address) frame
  obtain ⟨permitted, permitted', last⟩ : middle.view.Permits strict write ∧
      (middle.view.after write).Permits strict done ∧
      after.view = (middle.view.after write).after done := by
    cases moves.path with
    | cons permitted later => exact ⟨permitted, later.of_single⟩
  have consistent := soundMiddle.consistent.after permitted
  have patched (memory : Memory) {key : Nat × Nat} {i : Nat} (aligned : Aligned key.2)
      (small : i < pageSize) :
      memory.patch (id, pageOf address) (pageOffset address) data key i =
        memory.store id address (address + data.length) bytes key i := by
    have whole := pageOf_add_offset address
    exact memory.patch_eq_store (by omega) same aligned small
  have unpinned : (middle.view.after write).pins = middle.view.pins :=
    View.pins_after soundMiddle.consistent permitted
  refine ⟨(faulted.through.stores address).trans ⟨[write, done], moves, ?_, ?_⟩ (Nat.le_refl _)
      (Nat.le_add_right ..), ?_, ?_⟩
  · simp [write, done, Step.Copies, Step.Paging]
  · exact fun memory key i aligned small => patched memory aligned small
  · rw [last, View.pins_after consistent permitted', unpinned]
    exact faulted.pins_back
  · intro key place found pinned
    obtain ⟨resident, before⟩ := faulted.firm.stays found pinned
    have pinned' : middle.view.pins key ≠ 0 := by
      have := faulted.firm.pins key
      omega
    obtain ⟨stays, written⟩ :=
      soundMiddle.consistent.stays_after permitted (by simp [write]) resident pinned'
    obtain ⟨stays', kept⟩ :=
      consistent.stays_after permitted' (by simp [done]) stays (unpinned ▸ pinned')
    rw [last]
    refine ⟨stays', fun i small => ?_⟩
    rw [kept i, ← patched _ (sound.placed found) small, ← before]
    exact written i

theorem putSlice_take {start count : Nat} {data : Bytes} {piece : Piece}
    (within : piece.Within pageSize start data.length) (short : count ≤ data.length)
    (ends : piece.start + piece.length ≤ start + count) (frame : Nat) :
    putSlice start (data.take count).toArray frame piece =
      putSlice start data.toArray frame piece := by
  have size : (data.take count).length = count := by
    rw [List.length_take, Nat.min_eq_left short]
  have within' : piece.Within pageSize start (data.take count).length :=
    { within with ends := size.symm ▸ ends }
  have begun := within.begun
  have same : piece.of start (data.take count).toArray = piece.of start data.toArray := by
    rw [Piece.of_toArray, Piece.of_toArray, List.drop_take, List.take_take,
      Nat.min_eq_left (by omega)]
  simp only [putSlice, Piece.takeFrom_eq within, Piece.takeFrom_eq within', same]

theorem storePiece_spec (sound : machine.Sound strict) (live : machine.view.live id = true)
    {start : Nat} {data : Bytes} {piece : Piece} (user : IsUserRange start data.length)
    (within : piece.Within pageSize start data.length) :
    (visit id true (putSlice start data.toArray) piece).Ensures ⟨machine, log⟩
      (fun _ (after : Traced Machine) => machine.Stored strict id piece.start
        (piece.start + piece.length) (fun address => data[address - start]?) after.state)
      (fun cause (after : Traced Machine) =>
        faultIn id piece.start ⟨machine, log⟩ = .error (.failed cause) after)
      (Excused strict) := by
  have begun := within.begun
  have ends := within.ends
  rw [ensures_visit user within]
  refine Ensures.mono (faultIn_spec sound live).known ?_ (fun _ _ failed => failed.2)
    fun _ _ panicked => panicked.1
  rintro frame ⟨(resident : Machine), log⟩ ⟨⟨-, faulted⟩, -⟩
  have through := faulted.through
  obtain ⟨window, holds⟩ := faulted.holds
  have alive : resident.view.live id = true := by
    rw [through.live]
    exact live
  obtain ⟨pins, written, held⟩ := (sound.through through).consistent.exists_holder holds
  unfold Ensures
  rw [putSlice_eq within (Pool.lt_size_of_holder held)]
  refine Ensures.mono (writeFrame_spec (sound.through through) alive holds _ _) ?_
    (fun _ _ never => never.elim) fun _ _ never => never.elim
  rintro _ ⟨(after : Machine), log⟩ moves
  have size := Piece.length_of within
  rw [← size]
  refine faulted.write sound (size.symm ▸ within.fits) (fun j small => ?_) moves
  rw [size] at small
  rw [Piece.of_toArray, List.getElem?_take, if_pos small, List.getElem?_drop]
  congr 1
  omega

theorem storePieces_spec (sound : machine.Sound strict) (live : machine.view.live id = true)
    {start : Nat} {data : Bytes} (user : IsUserRange start data.length) (position length : Nat)
    (begun : start ≤ position) (enough : position + length ≤ start + data.length) :
    ((pieces pageSize position length).mapM (visit id true (putSlice start data.toArray))).Ensures
      ⟨machine, log⟩
      (fun _ (after : Traced Machine) => machine.Stored strict id position (position + length)
        (fun address => data[address - start]?) after.state)
      (fun cause (after : Traced Machine) => ∃ here parts middle, position ≤ here ∧
        here < position + length ∧ (here = position ∨ Aligned here) ∧
        (pieces pageSize position (here - position)).mapM
          (visit id true (putSlice start (data.take (here - start)).toArray)) ⟨machine, log⟩ =
            .ok parts middle ∧
        faultIn id here middle = .error (.failed cause) after)
      (Excused strict) := by
  fun_induction pieces pageSize position length generalizing machine log with
  | case1 position length done =>
      have empty : length = 0 := by simpa [pageSize] using done
      subst empty
      rw [ensures_mapM_nil]
      exact (Settled.still rfl sound.shaped).stored position
  | case2 =>
      rename_i position length more room ih
      have cut : room = min (pageSize - position % pageSize) length := rfl
      clear_value room
      have within : Piece.Within pageSize start data.length ⟨position, room⟩ := by
        refine ⟨begun, by dsimp only; omega, ?_⟩
        simp only [pageSize] at cut ⊢
        omega
      have boundary : room < length → Aligned (position + room) := by
        simp only [Aligned, pageOffset, pageSize] at cut ⊢
        omega
      rw [ensures_mapM_cons]
      refine Ensures.mono (storePiece_spec sound live user within).known
        ?_ ?_ fun _ _ panicked => panicked.1
      · rintro _ ⟨(middle : Machine), log⟩ ⟨first, ran⟩
        have through := first.stores.through
        have alive : middle.view.live id = true := by
          rw [through.live_eq fun _ => Step.Copies.inner]
          exact live
        refine Ensures.mono (ih (sound.through through) alive (by omega) (by omega)) ?_ ?_
          fun _ _ excused => excused
        · intro _ after second
          rw [show position + room + (length - room) = position + length by omega] at second
          exact first.trans second (by dsimp only; omega) (by dsimp only; omega)
        · rintro cause after ⟨here, parts, last, late, early, place, ranOn, failed⟩
          refine ⟨here, () :: parts, last, by omega, by omega, .inr (place.elim (fun same => by
            rw [same]; exact boundary (by omega)) fun aligned => aligned), ?_, failed⟩
          -- The copy stopped at a page boundary, up to which a shorter range is cut the same way.
          have shorter : pieces pageSize position (here - position) =
              ⟨position, room⟩ :: pieces pageSize (position + room) (here - (position + room)) := by
            rw [pieces, if_neg (by simp only [pageSize] at cut ⊢; omega)]
            have sameRoom : min (pageSize - position % pageSize) (here - position) = room := by
              rcases place with same | aligned
              · omega
              · simp only [Aligned, pageOffset, pageSize] at cut aligned ⊢
                omega
            simp only [sameRoom]
            rw [show here - position - room = here - (position + room) by omega]
          rw [shorter]
          refine mapM_cons_ok (Eq.trans ?_ ran) ranOn
          have shorter := putSlice_take within (show here - start ≤ data.length by omega)
            (by dsimp only; omega)
          simp only [visit, shorter]
      · rintro cause after ⟨failed, -⟩
        refine ⟨position, [], _, Nat.le_refl _, by omega, .inl rfl, ?_, failed⟩
        rw [Nat.sub_self, pieces_zero]
        rfl

theorem writeUser_eq {start : Nat} {data : Bytes} (user : IsUserRange start data.length) :
    writeUser id start data = (do
      let _ ← (pieces pageSize start data.length).mapM
        (visit id true (putSlice start data.toArray))) := by
  rw [writeUser, forPieces_eq user]

/-- A write came to a page that could not be faulted in. What lies before that page is stored as by
a shorter write. -/
def Interrupted (before : Traced Machine) (id start : Nat) (data : Bytes) (stop : Nat)
    (cause : PagingError) (after : Traced Machine) : Prop :=
  IsUserRange start data.length ∧ start ≤ stop ∧ stop < start + data.length ∧
    (stop = start ∨ Aligned stop) ∧
    ∃ middle, writeUser id start (data.take (stop - start)) before = .ok () middle ∧
      faultIn id stop middle = .error (.failed cause) after

theorem writeUser_spec (sound : machine.Sound strict) (live : machine.view.live id = true)
    {start : Nat} {data : Bytes} : (writeUser id start data).Ensures ⟨machine, log⟩
      (fun _ (after : Traced Machine) => machine.Stored strict id start (start + data.length)
        (fun address => data[address - start]?) after.state)
      (fun cause (after : Traced Machine) =>
        ¬ IsUserRange start data.length ∧ after.state = machine ∧ cause ≠ .outOfSwap ∨
          ∃ stop, Interrupted ⟨machine, log⟩ id start data stop cause after)
      (Excused strict) := by
  by_cases user : IsUserRange start data.length
  · rw [writeUser_eq user, ensures_bind]
    refine Ensures.mono (storePieces_spec sound live user start data.length (Nat.le_refl _)
      (Nat.le_refl _)) (fun _ _ stores => stores) ?_ fun _ _ excused => excused
    rintro cause after ⟨stop, parts, middle, late, early, place, ran, failed⟩
    refine .inr ⟨stop, user, late, early, place, middle, ?_, failed⟩
    have size : (data.take (stop - start)).length = stop - start := by
      rw [List.length_take, Nat.min_eq_left (by omega)]
    have short : IsUserRange start (data.take (stop - start)).length :=
      ⟨user.1, by have := user.2; omega⟩
    rw [writeUser_eq short, size, bind_of_ok ran]
    rfl
  · rw [writeUser, forPieces, ensures_bind, ensures_bind, ensures_require, if_neg user]
    exact .inl ⟨user, rfl, by simp⟩

theorem Interrupted.stored (sound : machine.Sound strict) (live : machine.view.live id = true)
    {start stop : Nat} {data : Bytes} {cause : PagingError} {after : Traced Machine}
    (interrupted : Interrupted ⟨machine, log⟩ id start data stop cause after) :
    machine.Stored strict id start stop (fun address => data[address - start]?) after.state ∧
      machine.Warranted cause := by
  obtain ⟨-, late, early, -, middle, wrote, failed⟩ := interrupted
  have size : (data.take (stop - start)).length = stop - start := by
    rw [List.length_take, Nat.min_eq_left (by omega)]
  have first := (writeUser_spec sound live).returned wrote
  rw [size, Nat.add_sub_cancel' late] at first
  have through := first.stores.through
  have failed := (faultIn_spec (sound.through through)
    (by rw [through.live_eq fun _ => Step.Copies.inner]; exact live)).failed failed
  refine ⟨(first.trans (failed.stored stop) late (Nat.le_refl _)).congr fun address _ small => ?_,
    through.warranted (fun _ => Step.Copies.addsNone) failed.warranted⟩
  rw [List.getElem?_take, if_pos (by omega)]

/-! ## Reading -/

/-- Each byte was read from its page while that was in a frame. -/
def Reads (strict : Prop) (before : Machine) (id start : Nat) (read : Bytes) : Prop :=
  ∀ j < read.length, ∃ middle frame window, before.Through strict Step.Paging middle ∧
    middle.view.Holds (id, pageOf (start + j)) frame window ∧
    read[j]? = (middle.view.contents frame)[pageOffset (start + j)]?

theorem Reads.append {start : Nat} {read more : Bytes} (first : machine.Reads strict id start read)
    (through : machine.Through strict Step.Paging middle)
    (second : middle.Reads strict id (start + read.length) more) :
    machine.Reads strict id start (read ++ more) := by
  intro j small
  by_cases early : j < read.length
  · obtain ⟨here, frame, window, reached, holds, same⟩ := first j early
    exact ⟨here, frame, window, reached, holds, (List.getElem?_append_left early).trans same⟩
  · rw [List.length_append] at small
    obtain ⟨here, frame, window, reached, holds, same⟩ := second (j - read.length) (by omega)
    rw [show start + read.length + (j - read.length) = start + j by omega] at holds same
    exact ⟨here, frame, window, through.trans reached, holds,
      (List.getElem?_append_right (by omega)).trans same⟩

theorem Reads.slice {address length : Nat} {window : Option FileWindow}
    (through : machine.Through strict Step.Paging middle)
    (holds : middle.view.Holds (id, pageOf address) frame window) :
    machine.Reads strict id address
      ((middle.view.contents frame).slice (pageOffset address) length) := by
  intro j small
  rw [Block.length_slice] at small
  have samePage : pageOf (address + j) = pageOf address := by
    simp only [pageOf, pageOffset, pageSize] at small ⊢
    omega
  have place : pageOffset (address + j) = pageOffset address + j := by
    simp only [pageOffset, pageSize] at small ⊢
    omega
  refine ⟨middle, frame, window, through, samePage ▸ holds, ?_⟩
  rw [Block.getElem?_slice, if_pos (by omega), place]

theorem readPiece_spec (sound : machine.Sound strict) (live : machine.view.live id = true)
    {start length : Nat} {piece : Piece} (user : IsUserRange start length)
    (within : piece.Within pageSize start length) :
    (visit id false takeSlice piece).Ensures ⟨machine, log⟩
      (fun read (after : Traced Machine) => machine.Settled strict after.state ∧
        read.length = piece.length ∧ machine.Reads strict id piece.start read)
      (fun cause (after : Traced Machine) => machine.Failed strict cause after.state)
      (Excused strict) := by
  rw [ensures_visit user within]
  refine Ensures.mono (faultIn_spec sound live) ?_ (fun _ _ failed => failed)
    fun _ _ excused => excused
  rintro frame ⟨(resident : Machine), log⟩ ⟨-, faulted⟩
  have through := faulted.through
  obtain ⟨window, holds⟩ := faulted.holds
  obtain ⟨pins, written, held⟩ := (sound.through through).consistent.exists_holder holds
  have alive : resident.view.live id = true := by
    rw [through.live]
    exact live
  unfold Ensures
  rw [takeSlice_eq within (Pool.lt_size_of_holder held)]
  refine Ensures.mono (giveBack_spec through.shaped alive holds held rfl) ?_
    (fun _ _ never => never.elim) fun _ _ never => never.elim
  rintro _ ⟨(after : Machine), log⟩ last
  have size : ((resident.view.contents frame).slice (pageOffset piece.start) piece.length).length =
      piece.length := by
    have fits : pageOffset piece.start + piece.length ≤ 4096 := within.fits
    rw [Block.length_slice]
    omega
  exact ⟨(faulted.unpin sound last).settled, size, .slice through holds⟩

theorem readPieces_spec (sound : machine.Sound strict) (live : machine.view.live id = true)
    {start whole : Nat} (user : IsUserRange start whole) (position length : Nat)
    (begun : start ≤ position) (enough : position + length ≤ start + whole) :
    ((pieces pageSize position length).mapM (visit id false takeSlice)).Ensures ⟨machine, log⟩
      (fun parts (after : Traced Machine) => machine.Settled strict after.state ∧
        parts.flatten.length = length ∧ machine.Reads strict id position parts.flatten)
      (fun cause (after : Traced Machine) => machine.Failed strict cause after.state)
      (Excused strict) := by
  fun_induction pieces pageSize position length generalizing machine log with
  | case1 position length done =>
      have empty : length = 0 := by simpa [pageSize] using done
      rw [ensures_mapM_nil]
      exact ⟨.still rfl sound.shaped, empty.symm, fun j small => by simp at small⟩
  | case2 =>
      rename_i position length more room ih
      have cut : room = min (pageSize - position % pageSize) length := rfl
      clear_value room
      have within : Piece.Within pageSize start whole ⟨position, room⟩ := by
        refine ⟨begun, by dsimp only; omega, ?_⟩
        simp only [pageSize] at cut ⊢
        omega
      rw [ensures_mapM_cons]
      refine Ensures.mono (readPiece_spec sound live user within) ?_ (fun _ _ failed => failed)
        fun _ _ excused => excused
      rintro read ⟨(middle : Machine), log⟩ ⟨settled, size, first⟩
      have through := settled.through
      change read.length = room at size
      have alive : middle.view.live id = true := by
        rw [through.live]
        exact live
      refine Ensures.mono (ih (sound.through through) alive (by omega) (by omega)) ?_
        (fun _ _ failed => settled.fail failed) fun _ _ excused => excused
      rintro parts after ⟨more, rest, second⟩
      refine ⟨settled.trans more, ?_, ?_⟩
      · rw [List.flatten_cons, List.length_append, size, rest]
        omega
      · rw [← size] at second
        exact first.append through second

theorem readUser_spec (sound : machine.Sound strict) (live : machine.view.live id = true)
    {start length : Nat} : (readUser id start length).Ensures ⟨machine, log⟩
      (fun read (after : Traced Machine) => machine.Settled strict after.state ∧
        read.length = length ∧ machine.Reads strict id start read)
      (fun cause (after : Traced Machine) => machine.Failed strict cause after.state)
      (Excused (strict ∧ length < bufferLimit)) := by
  rw [readUser, ensures_bind, ensures_insist]
  split
  · rw [ensures_bind]
    by_cases user : IsUserRange start length
    · rw [forPieces_eq user]
      exact Ensures.mono (readPieces_spec sound live user start length (Nat.le_refl _)
        (Nat.le_refl _)) (fun _ _ known => known) (fun _ _ failed => failed)
        fun _ _ excused => excused.mono And.left
    · rw [forPieces, ensures_bind, ensures_require, if_neg user]
      exact .refl sound.shaped (by simp)
  · rename_i long
    rintro ⟨-, small⟩
    exact absurd small long

end Machine

end DemandPaging
