import DemandPaging.Transfer

namespace DemandPaging.Action

variable {ε δ σ τ α β : Type}

def InStep (related : σ → σ → Prop) :
    EStateM.Result (Stop ε) (Traced σ) α → EStateM.Result (Stop ε) (Traced σ) α → Prop
  | .ok value after, .ok value' after' =>
    value = value' ∧ after.log = after'.log ∧ related after.state after'.state
  | .error stop after, .error stop' after' =>
    stop = stop' ∧ after.log = after'.log ∧ related after.state after'.state
  | .ok _ _, .error _ _ => False
  | .error _ _, .ok _ _ => False

def Parallel (related : σ → σ → Prop) (action other : Action ε σ α) : Prop :=
  ∀ one two log, related one two → InStep related (action ⟨one, log⟩) (other ⟨two, log⟩)

variable {related : σ → σ → Prop} {action other : Action ε σ α}

theorem InStep.cases {result result' : EStateM.Result (Stop ε) (Traced σ) α}
    (ended : InStep related result result') :
    (∃ value one two log, result = .ok value ⟨one, log⟩ ∧ result' = .ok value ⟨two, log⟩ ∧
      related one two) ∨
    ∃ stop one two log, result = .error stop ⟨one, log⟩ ∧ result' = .error stop ⟨two, log⟩ ∧
      related one two := by
  cases result with
  | ok value after =>
      obtain ⟨one, log⟩ := after
      cases result' with
      | ok value' after' =>
          obtain ⟨two, log'⟩ := after'
          obtain ⟨rfl, rfl, alike⟩ := ended
          exact .inl ⟨value, one, two, log, rfl, rfl, alike⟩
      | error => exact ended.elim
  | error stop after =>
      obtain ⟨one, log⟩ := after
      cases result' with
      | ok => exact ended.elim
      | error stop' after' =>
          obtain ⟨two, log'⟩ := after'
          obtain ⟨rfl, rfl, alike⟩ := ended
          exact .inr ⟨stop, one, two, log, rfl, rfl, alike⟩

theorem Parallel.bind {next next' : α → Action ε σ β} (first : Parallel related action other)
    (later : ∀ value, Parallel related (next value) (next' value)) :
    Parallel related (action >>= next) (other >>= next') := by
  intro one two log alike
  change InStep related (EStateM.bind action next ⟨one, log⟩) (EStateM.bind other next' ⟨two, log⟩)
  unfold EStateM.bind
  obtain ⟨value, one', two', log', ran, ran', alike'⟩ |
      ⟨stop, one', two', log', ran, ran', alike'⟩ :=
    (first one two log alike).cases
  · rw [ran, ran']
    exact later value one' two' log' alike'
  · rw [ran, ran']
    exact ⟨rfl, rfl, alike'⟩

theorem Parallel.look {next next' : σ → Action ε σ α}
    (later : ∀ one two, related one two → Parallel related (next one) (next' two)) :
    Parallel related (look >>= next) (look >>= next') :=
  fun one two log alike => later one two alike one two log alike

theorem parallel_pure (value : α) : Parallel related (pure value : Action ε σ α) (pure value) :=
  fun _ _ _ alike => ⟨rfl, rfl, alike⟩

theorem parallel_fail (cause : ε) : Parallel related (fail cause : Action ε σ α) (fail cause) :=
  fun _ _ _ alike => ⟨rfl, rfl, alike⟩

theorem parallel_panic (cause : Panic) :
    Parallel related (panic cause : Action ε σ α) (panic cause) :=
  fun _ _ _ alike => ⟨rfl, rfl, alike⟩

theorem parallel_update {f g : σ → σ} (kept : ∀ one two, related one two → related (f one) (g two)) :
    Parallel related (update f : Action ε σ Unit) (update g) :=
  fun one two _ alike => ⟨rfl, rfl, kept one two alike⟩

theorem parallel_require (condition : Prop) [Decidable condition] (otherwise : ε) :
    Parallel related (require condition otherwise) (require condition otherwise) := by
  unfold require
  split
  · exact parallel_pure ()
  · exact parallel_fail otherwise

theorem parallel_insist (condition : Prop) [Decidable condition] (otherwise : Panic) :
    Parallel related (insist condition otherwise : Action ε σ Unit)
      (insist condition otherwise) := by
  unfold insist
  split
  · exact parallel_pure ()
  · exact parallel_panic otherwise

theorem parallel_orPanic (outcome : Except Panic α) :
    Parallel related (orPanic outcome : Action ε σ α) (orPanic outcome) := by
  cases outcome with
  | ok value => exact parallel_pure value
  | error cause => exact parallel_panic cause

theorem Parallel.attempt (parallel : Parallel related action other) :
    Parallel related (action.attempt : Action δ σ (Except ε α)) other.attempt := by
  intro one two log alike
  unfold Action.attempt
  obtain ⟨value, one', two', log', ran, ran', alike'⟩ |
      ⟨stop, one', two', log', ran, ran', alike'⟩ :=
    (parallel one two log alike).cases
  · rw [ran, ran']
    exact ⟨rfl, rfl, alike'⟩
  · rw [ran, ran']
    cases stop <;> exact ⟨rfl, rfl, alike'⟩

theorem Parallel.mapFailure (parallel : Parallel related action other) (f : ε → δ) :
    Parallel related (action.mapFailure f) (other.mapFailure f) := by
  intro one two log alike
  unfold Action.mapFailure
  obtain ⟨value, one', two', log', ran, ran', alike'⟩ |
      ⟨stop, one', two', log', ran, ran', alike'⟩ :=
    (parallel one two log alike).cases
  · rw [ran, ran']
    exact ⟨rfl, rfl, alike'⟩
  · rw [ran, ran']
    cases stop <;> exact ⟨rfl, rfl, alike'⟩

theorem Parallel.forM {action other : β → Action ε σ Unit} (elements : List β)
    (parallel : ∀ element ∈ elements, Parallel related (action element) (other element)) :
    Parallel related (elements.forM action) (elements.forM other) := by
  induction elements with
  | nil => exact parallel_pure ()
  | cons first rest ih =>
      obtain ⟨here, there⟩ := List.forall_mem_cons.mp parallel
      exact here.bind fun _ => ih there

theorem Parallel.gather {read read' : β → Action DeviceError σ Bytes} (steps : List β)
    (parallel : ∀ step ∈ steps, Parallel related (read step) (read' step)) :
    Parallel related (Transfer.gather read steps : Action δ σ Transfer)
      (Transfer.gather read' steps) := by
  induction steps with
  | nil => exact parallel_pure _
  | cons first rest ih =>
      obtain ⟨here, there⟩ := List.forall_mem_cons.mp parallel
      refine here.attempt.bind fun outcome => ?_
      cases outcome with
      | error cause => exact parallel_pure _
      | ok bytes => exact (ih there).bind fun _ => parallel_pure _

theorem Parallel.within {part : σ → Except Panic τ} {restore : σ → τ → σ} {alike : τ → τ → Prop}
    {action other : Action ε τ α} (parallel : Parallel alike action other)
    (parts : ∀ one two, related one two → ∃ inner inner', part one = .ok inner ∧
      part two = .ok inner' ∧ alike inner inner' ∧
      ∀ inner inner', alike inner inner' → related (restore one inner) (restore two inner')) :
    Parallel related (action.within part restore) (other.within part restore) := by
  intro one two log joined
  obtain ⟨inner, inner', opened, opened', paired, closes⟩ := parts one two joined
  unfold Action.within
  simp only [opened, opened']
  obtain ⟨value, one', two', log', ran, ran', alike'⟩ |
      ⟨stop, one', two', log', ran, ran', alike'⟩ :=
    (parallel inner inner' log paired).cases
  · rw [ran, ran']
    exact ⟨rfl, rfl, closes one' two' alike'⟩
  · rw [ran, ran']
    exact ⟨rfl, rfl, closes one' two' alike'⟩

end DemandPaging.Action
