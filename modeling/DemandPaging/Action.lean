import DemandPaging.Event

/-!
# Actions

An action changes a state and reports events. It returns a value, fails with an error that its
caller may act on, or panics. A failure keeps what was done before it, in the state as in the log.
-/

namespace DemandPaging

/-- Why an action returned no value. -/
inductive Stop (ε : Type) where
  | failed (cause : ε)
  | panicked (cause : Panic)
  deriving DecidableEq, Repr

/-- A state with the events reported so far, the latest last. -/
structure Traced (σ : Type) where
  state : σ
  log : Array Event := #[]

abbrev Action (ε σ α : Type) : Type := EStateM (Stop ε) (Traced σ) α

namespace Action

variable {ε δ σ τ α β : Type}

def look : Action ε σ σ := fun traced => .ok traced.state traced

def update (f : σ → σ) : Action ε σ Unit := fun traced =>
  .ok () { traced with state := f traced.state }

def emit (event : Event) : Action ε σ Unit := fun traced =>
  .ok () { traced with log := traced.log.push event }

def fail (cause : ε) : Action ε σ α := fun traced => .error (.failed cause) traced

def panic (cause : Panic) : Action ε σ α := fun traced => .error (.panicked cause) traced

def require (condition : Prop) [Decidable condition] (otherwise : ε) : Action ε σ Unit :=
  if condition then pure () else fail otherwise

def insist (condition : Prop) [Decidable condition] (otherwise : Panic) : Action ε σ Unit :=
  if condition then pure () else panic otherwise

def orPanic : Except Panic α → Action ε σ α
  | .ok value => pure value
  | .error cause => panic cause

def orFail : Except ε α → Action ε σ α
  | .ok value => pure value
  | .error cause => fail cause

def change (f : σ → Except Panic σ) : Action ε σ Unit := do
  let state ← orPanic (f (← look))
  update fun _ => state

def attempt (action : Action ε σ α) : Action δ σ (Except ε α) := fun traced =>
  match action traced with
  | .ok value after => .ok (.ok value) after
  | .error (.failed cause) after => .ok (.error cause) after
  | .error (.panicked cause) after => .error (.panicked cause) after

def mapFailure (f : ε → δ) (action : Action ε σ α) : Action δ σ α := fun traced =>
  match action traced with
  | .ok value after => .ok value after
  | .error (.failed cause) after => .error (.failed (f cause)) after
  | .error (.panicked cause) after => .error (.panicked cause) after

def within (part : σ → Except Panic τ) (restore : σ → τ → σ) (action : Action ε τ α) :
    Action ε σ α := fun traced =>
  match part traced.state with
  | .error cause => .error (.panicked cause) traced
  | .ok inner =>
    match action ⟨inner, traced.log⟩ with
    | .ok value after => .ok value ⟨restore traced.state after.state, after.log⟩
    | .error stop after => .error stop ⟨restore traced.state after.state, after.log⟩

end Action

end DemandPaging
