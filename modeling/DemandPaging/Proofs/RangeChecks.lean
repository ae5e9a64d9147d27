import DemandPaging.Proofs.Run

/-!
# Ranges outside user memory

Every operation on a range of addresses checks first that these are user addresses. A range that is
not is refused, and nothing at all is changed (`bad_ranges_refused`). A read makes an exception: it
asks for its buffer before it looks at the range, and panics if there is no such buffer.
-/

namespace DemandPaging

namespace Operation

def range? : Operation → Option (Nat × Nat)
  | mapFile _ start _ _ length | unmapRange _ start length | pinRange _ start length
  | unpinRange _ start length | readUser _ start length => some (start, length)
  | writeUser _ start data => some (start, data.length)
  | _ => none

/-- What is read needs a buffer that cannot be had. -/
def Oversized : Operation → Prop
  | readUser _ _ length => bufferLimit ≤ length
  | _ => False

end Operation

namespace Machine

open DemandPaging.Action

variable {α : Type} {before : Traced Machine} {id start length : Nat}

def Refuses (action : Action PagingError Machine α) (before : Traced Machine) : Prop :=
  action.Ensures before (fun _ _ => False) (fun cause last => cause = .badAddress ∧ last = before)
    fun _ _ => False

theorem refuses_require {condition : Prop} [Decidable condition]
    (next : Unit → Action PagingError Machine α) (broken : ¬ condition) :
    Refuses (require condition .badAddress >>= next) before := by
  rw [Refuses, ensures_bind, ensures_require, if_neg broken]
  exact ⟨rfl, rfl⟩

theorem Refuses.bind {β : Type} {action : Action PagingError Machine α}
    (refuses : Refuses action before) (next : α → Action PagingError Machine β) :
    Refuses (action >>= next) before := by
  rw [Refuses, ensures_bind]
  exact refuses.mono (fun _ _ never => never.elim) (fun _ _ failed => failed) fun _ _ never => never

theorem forPieces_refuses (write : Bool) (access : Nat → Piece → Action PagingError Machine α)
    (bad : ¬ IsUserRange start length) :
    Refuses (forPieces id start length write access) before :=
  refuses_require _ bad

theorem readUser_refuses (bad : ¬ IsUserRange start length) (small : length < bufferLimit) :
    Refuses (readUser id start length) before := by
  rw [Refuses, readUser, ensures_bind, ensures_insist, if_pos small]
  exact (forPieces_refuses false _ bad).bind _

theorem readUser_panics (long : bufferLimit ≤ length) :
    readUser id start length before = .error (.panicked .capacity) before := by
  apply Ensures.stopped
  rw [readUser, ensures_bind, ensures_insist, if_neg (Nat.not_lt.mpr long)]
  exact ⟨rfl, rfl⟩

end Machine

theorem Operation.perform_refuses {operation : Operation} {start length : Nat}
    (asked : operation.range? = some (start, length)) (bad : ¬ IsUserRange start length)
    (fits : ¬ operation.Oversized) (before : Traced Machine) :
    Machine.Refuses operation.perform before := by
  cases operation with
  | mapFile =>
      cases asked
      exact (Machine.refuses_require _ fun asked => bad asked.2.2.2.1).bind _
  | unmapRange =>
      cases asked
      exact Machine.refuses_require _ fun asked => bad asked.2
  | pinRange | unpinRange =>
      cases asked
      exact Machine.refuses_require _ bad
  | readUser =>
      cases asked
      exact (Machine.readUser_refuses bad (Nat.not_le.mp fits)).bind _
  | writeUser =>
      cases asked
      exact (Machine.forPieces_refuses true _ bad).bind _
  | _ => cases asked

theorem Operation.perform_panics {operation : Operation} {before : Traced Machine}
    (oversized : operation.Oversized) :
    operation.perform before = .error (.panicked .capacity) before := by
  cases operation with
  | readUser =>
      apply Action.Ensures.stopped
      rw [Operation.perform, Action.ensures_bind, Action.Ensures, Machine.readUser_panics oversized]
      exact ⟨rfl, rfl⟩
  | _ => exact oversized.elim

/-- An operation on a range that is not one of user addresses fails and changes nothing, unless it
asks for a buffer that cannot be had. -/
theorem bad_ranges_refused {operation : Operation} {start length : Nat}
    (asked : operation.range? = some (start, length)) (bad : ¬ IsUserRange start length)
    (before : Traced Machine) :
    (¬ operation.Oversized → operation.Ends before (.error .badAddress) before) ∧
      (operation.Oversized → operation.perform before = .error (.panicked .capacity) before) :=
  ⟨fun fits => (operation.perform_refuses asked bad fits before).refused,
    operation.perform_panics⟩

/-- At the start, a pinning across the last user address is refused, and a read of as many bytes as
there are user addresses. A read of more than a buffer holds panics. -/
theorem bad_ranges_refused_at_start : ∃ (device : Device) (first : Traced Machine),
    Machine.start ⟨1⟩ device {} = .ok first ∧
      (Operation.pinRange 1 (kernelBase - 1) 2).Ends first (.error .badAddress) first ∧
      (Operation.readUser 1 4096 kernelBase).Ends first (.error .badAddress) first ∧
      (Operation.readUser 1 4096 bufferLimit).perform first =
        .error (.panicked .capacity) first := by
  have ends : (Operation.trial 1 1 {} []).isSome = true := by decide +kernel
  obtain ⟨⟨first, now⟩, tried⟩ := Option.isSome_iff_exists.mp ends
  obtain ⟨⟨device, -, started⟩, -⟩ := Operation.trial_ok tried
  have fits : ¬ (Operation.readUser 1 4096 kernelBase).Oversized :=
    Nat.not_le.mpr (by decide)
  exact ⟨device, first, started, (bad_ranges_refused rfl (by decide) first).1 id,
    (bad_ranges_refused rfl (by decide) first).1 fits,
    (bad_ranges_refused rfl (by decide) first).2 (Nat.le_refl bufferLimit)⟩

/-- A read of half of all addresses panics, in a space that has just been created. -/
theorem oversized_read_panics : ∃ (device : Device) (first now : Traced Machine),
    Machine.start ⟨1⟩ device {} = .ok first ∧
      Run (fun before operation _ => operation.Addressed before) first now ∧
      (Operation.readUser 1 4096 bufferLimit).Addressed now.state ∧
      ¬ IsUserRange 4096 bufferLimit ∧
      ¬ (Operation.readUser 1 4096 bufferLimit).Ends now (.error .badAddress) now ∧
      (Operation.readUser 1 4096 bufferLimit).perform now = .error (.panicked .capacity) now := by
  have ends : (Operation.trial 1 1 {} [.createSpace none {}]).map (fun ends =>
      ends.2.state.view.live 1) = some true := by decide +kernel
  simp only [Option.map_eq_some_iff, Prod.exists] at ends
  obtain ⟨first, now, tried, live⟩ := ends
  obtain ⟨⟨device, -, started⟩, done⟩ := Operation.trial_ok tried
  have run : Run (fun before operation _ => operation.Addressed before) first now :=
    Operation.run_of_performAll done fun _ _ _ _ addressed => addressed
  have panics : (Operation.readUser 1 4096 bufferLimit).perform now =
      .error (.panicked .capacity) now := Operation.perform_panics (Nat.le_refl bufferLimit)
  refine ⟨device, first, now, started, run, ?_, by decide, fun refused => ?_, panics⟩
  · rintro _ ⟨⟩
    exact live
  · rw [Operation.Ends, panics] at refused
    cases refused

end DemandPaging
