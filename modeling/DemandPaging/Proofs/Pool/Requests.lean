import DemandPaging.Proofs.Pool.Clock

namespace DemandPaging

inductive Request (σ : Type) where
  | select (reclaimer : Reclaimer σ)
  | claim (reclaimer : Reclaimer σ) (owner page : Nat) (clear : Bool)
  | release (frame : Nat)
  | pin (frame : Nat)
  | unpin (frame : Nat)
  | touch (frame : Nat) (write : Bool)
  /-- Users access their pages, or something else happens that the pool does not know of. -/
  | mark (change : σ → σ)

namespace Request

open Paged

variable {σ : Type}

def perform : Request σ → Action PagingError (Paged σ) Unit
  | select reclaimer => do let _ ← selectVictim reclaimer
  | claim reclaimer owner page clear => do let _ ← Paged.claim reclaimer owner page clear
  | release frame => Paged.release frame
  | pin frame => changePool (·.pin frame)
  | unpin frame => changePool (·.unpin frame)
  | touch frame write => changePool (·.touch frame write)
  | mark change => onStore (Action.update change)

def Ends (request : Request σ) (before after : Traced (Paged σ)) : Prop :=
  request.perform before = .ok () after ∨ ∃ cause, request.perform before = .error (.failed cause) after

def reclaimer? (request : Request σ) (pool : Pool) : Option (Reclaimer σ) :=
  match request with
  | select reclaimer => some reclaimer
  | claim reclaimer _ _ _ => if pool.lowestFree?.isNone then some reclaimer else none
  | _ => none

def choice? (request : Request σ) (before : Traced (Paged σ)) : Option (Victim × Traced (Paged σ)) :=
  (request.reclaimer? before.state.pool).bind fun reclaimer =>
    match selectVictim reclaimer before with
    | .ok victim chosen => some (victim, chosen)
    | .error _ _ => none

def reached (request : Request σ) (before : Traced (Paged σ)) : Traced (Paged σ) :=
  ((request.choice? before).map Prod.snd).getD before

def victim? (request : Request σ) (before : Traced (Paged σ)) : Option Victim :=
  (request.choice? before).map Prod.fst

end Request

namespace Paged

open DemandPaging.Action

variable {σ : Type} {reclaimer : Reclaimer σ} {before after : Traced (Paged σ)}

/-- Requests by some rule, none of which panicked, and the victims chosen, the latest first. -/
inductive History (rule : Traced (Paged σ) → Request σ → Traced (Paged σ) → Prop)
    (first : Traced (Paged σ)) : List Victim → Traced (Paged σ) → Prop where
  | start : History rule first [] first
  | next {victims : List Victim} {before after : Traced (Paged σ)} {request : Request σ}
      (earlier : History rule first victims before) (allowed : rule before request after)
      (ends : request.Ends before after) :
      History rule first ((request.victim? before).toList ++ victims) after

def called (victim : Victim) (chosen : Traced (Paged σ)) : Traced (Paged σ) :=
  { chosen with log := chosen.log.push (.evicting victim) }

theorem reclaim_spec (reclaimer : Reclaimer σ) (before : Traced (Paged σ)) :
    (reclaim reclaimer).Ensures before
      (fun frame after => ∃ victim chosen, selectVictim reclaimer before = .ok victim chosen ∧
        reclaimer.evict victim (called victim chosen) = .ok () after ∧ frame = victim.frame ∧
        after.state.pool.occupant? victim.frame = none)
      (fun cause after => selectVictim reclaimer before = .error (.failed cause) after ∨
        ∃ victim chosen, selectVictim reclaimer before = .ok victim chosen ∧
          reclaimer.evict victim (called victim chosen) = .error (.failed cause) after)
      fun _ _ => True := by
  rw [reclaim, ensures_bind]
  refine (ensures_self _ before).mono ?_ (fun _ _ failed => .inl failed) fun _ _ _ => trivial
  intro victim chosen selected
  rw [ensures_bind, ensures_emit, ensures_bind]
  refine (ensures_self _ _).mono ?_ (fun _ _ failed => .inr ⟨victim, chosen, selected, failed⟩)
    fun _ _ _ => trivial
  intro _ after evicted
  rw [ensures_bind, ensures_pool, ensures_bind, ensures_insist]
  split
  · rename_i vacant
    exact ⟨victim, chosen, selected, evicted, rfl, by simpa using vacant⟩
  · trivial

theorem claim_spec (reclaimer : Reclaimer σ) (owner page : Nat) (clear : Bool)
    (before : Traced (Paged σ)) :
    (claim reclaimer owner page clear).Ensures before
      (fun frame after => ∃ middle : Traced (Paged σ), after =
          ⟨⟨middle.state.pool.lend frame owner page clear, middle.state.store⟩,
            middle.log.push (.frameClaimed frame page owner)⟩ ∧
        (before.state.pool.lowestFree? = some frame ∧ middle = before ∨
          before.state.pool.lowestFree? = none ∧ ∃ victim chosen,
            selectVictim reclaimer before = .ok victim chosen ∧
            reclaimer.evict victim (called victim chosen) = .ok () middle ∧ frame = victim.frame ∧
            middle.state.pool.occupant? victim.frame = none))
      (fun cause after => before.state.pool.lowestFree? = none ∧
        (selectVictim reclaimer before = .error (.failed cause) after ∨
          ∃ victim chosen, selectVictim reclaimer before = .ok victim chosen ∧
            reclaimer.evict victim (called victim chosen) = .error (.failed cause) after))
      fun _ _ => before.state.pool.lowestFree? = none ∨ ∃ frame cause,
        before.state.pool.lowestFree? = some frame ∧
        before.state.pool.occupy frame owner page clear = .error cause := by
  rw [claim, ensures_bind, ensures_pool]
  cases lowest : before.state.pool.lowestFree? with
  | some frame =>
      rw [ensures_bind, ensures_pure, ensures_bind, ensures_changePool]
      cases taken : before.state.pool.occupy frame owner page clear with
      | ok pool =>
          cases Pool.occupy_ok taken
          exact ⟨before, rfl, .inl ⟨rfl, rfl⟩⟩
      | error cause => exact .inr ⟨frame, cause, rfl, taken⟩
  | none =>
      rw [ensures_bind]
      refine (reclaim_spec reclaimer before).mono ?_ (fun _ _ failed => ⟨rfl, failed⟩)
        fun _ _ _ => .inl rfl
      intro frame middle reclaimed
      rw [ensures_bind, ensures_changePool]
      cases taken : middle.state.pool.occupy frame owner page clear with
      | ok pool =>
          cases Pool.occupy_ok taken
          exact ⟨middle, rfl, .inr ⟨rfl, reclaimed⟩⟩
      | error cause => exact .inl rfl

end Paged

/-- Called for a victim, the evictor frees its frame; if it fails, it leaves the pool alone. -/
def Reclaimer.Frees {σ : Type} (reclaimer : Reclaimer σ) (before : Traced (Paged σ)) : Prop :=
  ∀ victim chosen, Paged.selectVictim reclaimer before = .ok victim chosen →
    (reclaimer.evict victim).Ensures (Paged.called victim chosen)
      (fun _ after => chosen.state.pool.vacate victim.frame = .ok after.state.pool)
      (fun _ after => after.state.pool = chosen.state.pool) fun _ _ => True

def Request.Lawful {σ : Type} (request : Request σ) (before : Traced (Paged σ)) : Prop :=
  ∀ reclaimer owner page clear, request = .claim reclaimer owner page clear → reclaimer.Frees before

end DemandPaging
