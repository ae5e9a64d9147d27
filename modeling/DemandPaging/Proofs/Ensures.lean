import DemandPaging.Action

/-!
# What an action ensures

An action ends in one of three ways, and `Ensures` states what is then true of the state it ends
in. The conditions are worked out backwards through an action: one rule for each primitive, and
`Ensures.mono` to replace a part of an action by what is known of it.
-/

namespace DemandPaging.Action

variable {ε δ σ τ α β : Type}

/-- However an action ends, the condition for that ending holds of its outcome and final state. -/
def Ensures (action : Action ε σ α) (before : Traced σ) (returns : α → Traced σ → Prop)
    (fails : ε → Traced σ → Prop) (panics : Panic → Traced σ → Prop) : Prop :=
  match action before with
  | .ok value after => returns value after
  | .error (.failed cause) after => fails cause after
  | .error (.panicked cause) after => panics cause after

variable {before : Traced σ} {returns returns' : α → Traced σ → Prop}
  {fails fails' : ε → Traced σ → Prop} {panics panics' : Panic → Traced σ → Prop}

theorem Ensures.mono {action : Action ε σ α} (known : action.Ensures before returns fails panics)
    (returned : ∀ value after, returns value after → returns' value after)
    (failed : ∀ cause after, fails cause after → fails' cause after)
    (panicked : ∀ cause after, panics cause after → panics' cause after) :
    action.Ensures before returns' fails' panics' := by
  unfold Ensures at known ⊢
  split at known
  · exact returned _ _ known
  · exact failed _ _ known
  · exact panicked _ _ known

theorem ensures_bind {action : Action ε σ α} {next : α → Action ε σ β}
    {returns : β → Traced σ → Prop} :
    (action >>= next).Ensures before returns fails panics ↔
      action.Ensures before (fun value middle => (next value).Ensures middle returns fails panics)
        fails panics := by
  change (match EStateM.bind action next before with
    | .ok value after => returns value after
    | .error (.failed cause) after => fails cause after
    | .error (.panicked cause) after => panics cause after) ↔ _
  unfold EStateM.bind Ensures
  rcases action before with _ | ⟨_ | _, _⟩ <;> rfl

@[simp] theorem ensures_pure {value : α} :
    (pure value : Action ε σ α).Ensures before returns fails panics ↔ returns value before :=
  Iff.rfl

@[simp] theorem ensures_look {returns : σ → Traced σ → Prop} :
    (look : Action ε σ σ).Ensures before returns fails panics ↔ returns before.state before :=
  Iff.rfl

@[simp] theorem ensures_update {f : σ → σ} {returns : Unit → Traced σ → Prop} :
    (update f : Action ε σ Unit).Ensures before returns fails panics ↔
      returns () { before with state := f before.state } :=
  Iff.rfl

@[simp] theorem ensures_emit {event : Event} {returns : Unit → Traced σ → Prop} :
    (emit event : Action ε σ Unit).Ensures before returns fails panics ↔
      returns () { before with log := before.log.push event } :=
  Iff.rfl

@[simp] theorem ensures_fail {cause : ε} :
    (fail cause : Action ε σ α).Ensures before returns fails panics ↔ fails cause before :=
  Iff.rfl

@[simp] theorem ensures_panic {cause : Panic} :
    (panic cause : Action ε σ α).Ensures before returns fails panics ↔ panics cause before :=
  Iff.rfl

@[simp] theorem ensures_require {condition : Prop} [Decidable condition] {otherwise : ε}
    {returns : Unit → Traced σ → Prop} :
    (require condition otherwise).Ensures before returns fails panics ↔
      if condition then returns () before else fails otherwise before := by
  unfold require
  split <;> rfl

@[simp] theorem ensures_insist {condition : Prop} [Decidable condition] {otherwise : Panic}
    {returns : Unit → Traced σ → Prop} :
    (insist condition otherwise : Action ε σ Unit).Ensures before returns fails panics ↔
      if condition then returns () before else panics otherwise before := by
  unfold insist
  split <;> rfl

@[simp] theorem ensures_orPanic {outcome : Except Panic α} :
    (orPanic outcome : Action ε σ α).Ensures before returns fails panics ↔
      match outcome with
      | .ok value => returns value before
      | .error cause => panics cause before := by
  cases outcome <;> rfl

theorem orPanic_ok (value : α) : (orPanic (.ok value) : Action ε σ α) = pure value :=
  rfl

theorem ensures_passed {outcome : Except Panic α} {value : α} (passed : outcome = .ok value)
    {next : α → Action ε σ β} {returns : β → Traced σ → Prop} :
    (orPanic outcome >>= next).Ensures before returns fails panics ↔
      (next value).Ensures before returns fails panics := by
  rw [ensures_bind, ensures_orPanic, passed]

@[simp] theorem ensures_orFail {outcome : Except ε α} :
    (orFail outcome : Action ε σ α).Ensures before returns fails panics ↔
      match outcome with
      | .ok value => returns value before
      | .error cause => fails cause before := by
  cases outcome <;> rfl

@[simp] theorem ensures_change {f : σ → Except Panic σ} {returns : Unit → Traced σ → Prop} :
    (change f : Action ε σ Unit).Ensures before returns fails panics ↔
      match f before.state with
      | .ok state => returns () { before with state := state }
      | .error cause => panics cause before := by
  simp only [change, ensures_bind, ensures_look, ensures_orPanic, ensures_update]

@[simp] theorem ensures_attempt {action : Action ε σ α} {fails : δ → Traced σ → Prop}
    {returns : Except ε α → Traced σ → Prop} :
    (action.attempt : Action δ σ (Except ε α)).Ensures before returns fails panics ↔
      action.Ensures before (fun value => returns (.ok value)) (fun cause => returns (.error cause))
        panics := by
  unfold Ensures attempt
  rcases action before with _ | ⟨_ | _, _⟩ <;> rfl

@[simp] theorem ensures_mapFailure {f : ε → δ} {action : Action ε σ α}
    {fails : δ → Traced σ → Prop} :
    (action.mapFailure f).Ensures before returns fails panics ↔
      action.Ensures before returns (fun cause => fails (f cause)) panics := by
  unfold Ensures mapFailure
  rcases action before with _ | ⟨_ | _, _⟩ <;> rfl

theorem ensures_within {part : σ → Except Panic τ} {restore : σ → τ → σ}
    {action : Action ε τ α} :
    (action.within part restore).Ensures before returns fails panics ↔
      match part before.state with
      | .error cause => panics cause before
      | .ok inner => action.Ensures ⟨inner, before.log⟩
          (fun value after => returns value ⟨restore before.state after.state, after.log⟩)
          (fun cause after => fails cause ⟨restore before.state after.state, after.log⟩)
          (fun cause after => panics cause ⟨restore before.state after.state, after.log⟩) := by
  unfold Ensures within
  cases part before.state with
  | error cause => rfl
  | ok inner =>
      simp only
      rcases action ⟨inner, before.log⟩ with _ | ⟨_ | _, _⟩ <;> rfl

/-! ## Lists of actions -/

theorem forM_congr {action other : α → Action ε σ Unit} {elements : List α}
    (same : ∀ element ∈ elements, action element = other element) :
    elements.forM action = elements.forM other := by
  induction elements with
  | nil => rfl
  | cons first rest ih =>
      obtain ⟨here, there⟩ := List.forall_mem_cons.mp same
      change (action first >>= fun _ => rest.forM action) = (other first >>= fun _ => rest.forM other)
      rw [here, ih there]

theorem ensures_forM_cons {action : α → Action ε σ Unit} {first : α} {rest : List α}
    {returns : Unit → Traced σ → Prop} :
    ((first :: rest).forM action).Ensures before returns fails panics ↔
      (action first).Ensures before
        (fun _ middle => (rest.forM action).Ensures middle returns fails panics) fails panics :=
  ensures_bind

/-- What is true of the elements still to come before an element is true of the rest after it. -/
theorem Ensures.forM {action : α → Action ε σ Unit} (coming : List α → Traced σ → Prop)
    (step : ∀ first rest before, coming (first :: rest) before →
      (action first).Ensures before (fun _ after => coming rest after) fails panics)
    (elements : List α) (begins : coming elements before) :
    (elements.forM action).Ensures before (fun _ after => coming [] after) fails panics := by
  induction elements generalizing before with
  | nil => exact begins
  | cons first rest ih =>
      rw [ensures_forM_cons]
      exact (step first rest before begins).mono (fun _ _ later => ih later) (fun _ _ h => h)
        fun _ _ h => h

theorem ensures_mapM_nil {action : α → Action ε σ β} {returns : List β → Traced σ → Prop} :
    (([] : List α).mapM action).Ensures before returns fails panics ↔ returns [] before := by
  rw [List.mapM_nil, ensures_pure]

theorem ensures_mapM_cons {action : α → Action ε σ β} {first : α} {rest : List α}
    {returns : List β → Traced σ → Prop} :
    ((first :: rest).mapM action).Ensures before returns fails panics ↔
      (action first).Ensures before (fun value middle =>
        (rest.mapM action).Ensures middle (fun values => returns (value :: values)) fails panics)
        fails panics := by
  simp only [List.mapM_cons, ensures_bind, ensures_pure]

theorem Ensures.and {action : Action ε σ α} (one : action.Ensures before returns fails panics)
    (other : action.Ensures before returns' fails' panics') :
    action.Ensures before (fun value after => returns value after ∧ returns' value after)
      (fun cause after => fails cause after ∧ fails' cause after)
      fun cause after => panics cause after ∧ panics' cause after := by
  unfold Ensures at one other ⊢
  split at one <;> exact ⟨one, by simp_all⟩

theorem ensures_self (action : Action ε σ α) (before : Traced σ) : action.Ensures before
    (fun value after => action before = .ok value after)
    (fun cause after => action before = .error (.failed cause) after)
    fun cause after => action before = .error (.panicked cause) after := by
  unfold Ensures
  split <;> assumption

theorem Ensures.known {action : Action ε σ α} (ensures : action.Ensures before returns fails panics) :
    action.Ensures before
      (fun value after => returns value after ∧ action before = .ok value after)
      (fun cause after => fails cause after ∧ action before = .error (.failed cause) after)
      (fun cause after => panics cause after ∧ action before = .error (.panicked cause) after) := by
  unfold Ensures at ensures ⊢
  split at ensures
  · rename_i value after ended
    rw [ended]
    exact ⟨ensures, rfl⟩
  · rename_i cause after ended
    rw [ended]
    exact ⟨ensures, rfl⟩
  · rename_i cause after ended
    rw [ended]
    exact ⟨ensures, rfl⟩

def Leads (action : Action ε σ α) (before after : σ) : Prop :=
  ∃ log log', (∃ value, action ⟨before, log⟩ = .ok value ⟨after, log'⟩) ∨
    ∃ cause, action ⟨before, log⟩ = .error (.failed cause) ⟨after, log'⟩

theorem Ensures.leads {action : Action ε σ α} (ensures : action.Ensures before returns fails panics) :
    action.Ensures before
      (fun value after => returns value after ∧ action.Leads before.state after.state)
      (fun cause after => fails cause after ∧ action.Leads before.state after.state) panics :=
  ensures.known.mono (fun value _ known => ⟨known.1, _, _, .inl ⟨value, known.2⟩⟩)
    (fun cause _ known => ⟨known.1, _, _, .inr ⟨cause, known.2⟩⟩) fun _ _ known => known.1

theorem Ensures.of_leads {action : Action ε σ α} {before after : σ}
    {reached : σ → Prop} (leads : action.Leads before after)
    (ensures : ∀ log, action.Ensures ⟨before, log⟩ (fun _ after => reached after.state)
      (fun _ after => reached after.state) fun _ _ => True) : reached after := by
  obtain ⟨log, log', ⟨value, ran⟩ | ⟨cause, ran⟩⟩ := leads
  · simpa only [Ensures, ran] using ensures log
  · simpa only [Ensures, ran] using ensures log

theorem Ensures.ran {action : Action ε σ α} {value : α} {after : Traced σ}
    (ensures : action.Ensures before (fun result last => result = value ∧ last = after)
      (fun _ _ => False) fun _ _ => False) : action before = .ok value after := by
  unfold Ensures at ensures
  split at ensures
  · rename_i ended
    rw [ended, ensures.1, ensures.2]
  · exact ensures.elim
  · exact ensures.elim

def returned? (action : Action ε σ α) (before : Traced σ) : Option α :=
  match action before with
  | .ok value _ => some value
  | .error _ _ => none

theorem exists_of_returned? {action : Action ε σ α} {value : α}
    (returned : action.returned? before = some value) :
    ∃ after, action before = .ok value after := by
  unfold returned? at returned
  split at returned
  · rename_i ended
    cases returned
    exact ⟨_, ended⟩
  · cases returned

theorem bind_of_ok {action : Action ε σ α} {value : α} {middle : Traced σ}
    (ran : action before = .ok value middle) (next : α → Action ε σ β) :
    (action >>= next) before = next value middle := by
  change EStateM.bind action next before = next value middle
  unfold EStateM.bind
  rw [ran]

theorem bind_of_error {action : Action ε σ α} {stop : Stop ε} {after : Traced σ}
    (ran : action before = .error stop after) (next : α → Action ε σ β) :
    (action >>= next) before = .error stop after := by
  change EStateM.bind action next before = .error stop after
  unfold EStateM.bind
  rw [ran]

theorem exists_of_bind {action : Action ε σ α} {next : α → Action ε σ β} {value : β}
    {after : Traced σ} (ran : (action >>= next) before = .ok value after) :
    ∃ first middle, action before = .ok first middle ∧ next first middle = .ok value after := by
  change EStateM.bind action next before = .ok value after at ran
  unfold EStateM.bind at ran
  split at ran
  · rename_i first middle ended
    exact ⟨first, middle, ended, ran⟩
  · cases ran

theorem failed_of_attempt {action : Action ε σ α} {cause : ε} {after : Traced σ}
    (ran : (action.attempt : Action δ σ (Except ε α)) before = .ok (.error cause) after) :
    action before = .error (.failed cause) after := by
  unfold attempt at ran
  split at ran
  · cases ran
  · rename_i ended
    cases ran
    exact ended
  · cases ran

theorem Ensures.exists_returned {action : Action ε σ α}
    (ensures : action.Ensures before returns (fun _ _ => False) fun _ _ => False) :
    ∃ value after, action before = .ok value after ∧ returns value after := by
  unfold Ensures at ensures
  split at ensures
  · rename_i value after ended
    exact ⟨value, after, ended, ensures⟩
  · exact ensures.elim
  · exact ensures.elim

theorem Ensures.exists_failed {action : Action ε σ α}
    (ensures : action.Ensures before (fun _ _ => False) fails fun _ _ => False) :
    ∃ cause after, action before = .error (.failed cause) after ∧ fails cause after := by
  unfold Ensures at ensures
  split at ensures
  · exact ensures.elim
  · rename_i cause after ended
    exact ⟨cause, after, ended, ensures⟩
  · exact ensures.elim

theorem Ensures.refused {action : Action ε σ α} {cause : ε} {after : Traced σ}
    (ensures : action.Ensures before (fun _ _ => False)
      (fun failure last => failure = cause ∧ last = after) fun _ _ => False) :
    action before = .error (.failed cause) after := by
  unfold Ensures at ensures
  split at ensures
  · exact ensures.elim
  · rename_i ended
    rw [ended, ensures.1, ensures.2]
  · exact ensures.elim

theorem Ensures.stopped {action : Action ε σ α} {cause : Panic} {after : Traced σ}
    (ensures : action.Ensures before (fun _ _ => False) (fun _ _ => False)
      fun panic last => panic = cause ∧ last = after) :
    action before = .error (.panicked cause) after := by
  unfold Ensures at ensures
  split at ensures
  · exact ensures.elim
  · exact ensures.elim
  · rename_i ended
    rw [ended, ensures.1, ensures.2]

theorem Ensures.returned {action : Action ε σ α} {value : α} {after : Traced σ}
    (ensures : action.Ensures before returns fails panics) (ran : action before = .ok value after) :
    returns value after := by
  simpa only [Ensures, ran] using ensures

theorem Ensures.failed {action : Action ε σ α} {cause : ε} {after : Traced σ}
    (ensures : action.Ensures before returns fails panics)
    (ran : action before = .error (.failed cause) after) : fails cause after := by
  simpa only [Ensures, ran] using ensures

theorem Ensures.panicked {action : Action ε σ α} {cause : Panic} {after : Traced σ}
    (ensures : action.Ensures before returns fails panics)
    (ran : action before = .error (.panicked cause) after) : panics cause after := by
  simpa only [Ensures, ran] using ensures

theorem mapM_cons_ok {action : α → Action ε σ β} {first : α} {rest : List α} {value : β}
    {values : List β} {middle after : Traced σ} (ran : action first before = .ok value middle)
    (ranOn : rest.mapM action middle = .ok values after) :
    (first :: rest).mapM action before = .ok (value :: values) after := by
  apply Ensures.ran
  rw [ensures_mapM_cons]
  simp only [Ensures, ran, ranOn, and_self]

end DemandPaging.Action
