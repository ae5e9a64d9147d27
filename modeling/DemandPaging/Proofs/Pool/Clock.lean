import DemandPaging.Pool.Clock
import DemandPaging.Proofs.Keeps
import DemandPaging.Proofs.Pool

namespace DemandPaging

def Occupant.forget (occupant : Occupant) : Occupant :=
  { occupant with touch := occupant.touch.putAccessed false }

@[simp] theorem Occupant.holder_forget (occupant : Occupant) :
    occupant.forget.holder = occupant.holder := by
  simp [holder, forget]

namespace Pool

structure Alike (pool after : Pool) : Prop where
  holder : after.holder = pool.holder
  page : after.page = pool.page
  size : after.size = pool.size
  resident : after.resident = pool.resident
  hand : pool.hand < pool.size → after.hand < after.size

theorem Alike.refl (pool : Pool) : pool.Alike pool :=
  ⟨rfl, rfl, rfl, rfl, id⟩

theorem Alike.trans {pool middle after : Pool} (first : pool.Alike middle)
    (second : middle.Alike after) : pool.Alike after :=
  ⟨second.holder.trans first.holder, second.page.trans first.page, second.size.trans first.size,
    second.resident.trans first.resident, second.hand ∘ first.hand⟩

theorem Alike.tended {pool after : Pool} (alike : pool.Alike after) : pool.Tended after := by
  refine ⟨alike.size, fun counted => ?_, alike.hand⟩
  have same : after.occupied = pool.occupied := occupied_congr fun frame => by rw [alike.holder]
  rw [Counted, alike.resident, same]
  exact counted

theorem alike_forget {pool : Pool} {frame : Nat} {occupant : Occupant}
    (found : pool.occupant? frame = some occupant) :
    pool.Alike (pool.setOccupant frame (some occupant.forget)) := by
  have held : pool.holder frame = some occupant.holder := by simp [Pool.holder, found]
  have size := size_setOccupant pool frame (some occupant.forget)
  refine ⟨?_, page_setOccupant _, size, rfl, fun hand => size.symm ▸ hand⟩
  rw [holder_setOccupant (lt_size_of_holder held), Option.map_some, Occupant.holder_forget, ← held,
    Function.update_eq_self]

def turned (pool : Pool) : Pool := { pool with hand := (pool.hand + 1) % pool.size }

theorem alike_turned (pool : Pool) : pool.Alike pool.turned :=
  ⟨rfl, rfl, rfl, rfl, fun hand => Nat.mod_lt _ (Nat.zero_lt_of_lt hand)⟩

def Offers (pool : Pool) (victim : Victim) : Prop :=
  ∃ written, pool.holder victim.frame = some ⟨victim.owner, victim.page, 0, written⟩

end Pool

namespace Paged

open DemandPaging.Action

variable {σ ε α : Type} {reclaimer : Reclaimer σ} {before : Traced (Paged σ)}

section Parts

variable {returns : α → Traced (Paged σ) → Prop} {fails : ε → Traced (Paged σ) → Prop}
  {panics : Panic → Traced (Paged σ) → Prop}

theorem ensures_pool {returns : Pool → Traced (Paged σ) → Prop} :
    (pool? : Action ε (Paged σ) Pool).Ensures before returns fails panics ↔
      returns before.state.pool before := by
  simp only [pool?, ensures_bind, ensures_look, ensures_pure]

theorem ensures_updatePool {f : Pool → Pool} {returns : Unit → Traced (Paged σ) → Prop} :
    (updatePool f : Action ε (Paged σ) Unit).Ensures before returns fails panics ↔
      returns () ⟨⟨f before.state.pool, before.state.store⟩, before.log⟩ :=
  Iff.rfl

theorem ensures_changePool {f : Pool → Except Panic Pool} {returns : Unit → Traced (Paged σ) → Prop} :
    (changePool f : Action ε (Paged σ) Unit).Ensures before returns fails panics ↔
      match f before.state.pool with
      | .ok pool => returns () ⟨⟨pool, before.state.store⟩, before.log⟩
      | .error cause => panics cause before := by
  rw [changePool, ensures_change]
  simp only [bind, Except.bind, pure, Except.pure]
  cases f before.state.pool <;> rfl

theorem ensures_onStore {action : Action ε σ α} :
    (onStore action).Ensures before returns fails panics ↔
      action.Ensures ⟨before.state.store, before.log⟩
        (fun value after => returns value ⟨⟨before.state.pool, after.state⟩, after.log⟩)
        (fun cause after => fails cause ⟨⟨before.state.pool, after.state⟩, after.log⟩)
        (fun cause after => panics cause ⟨⟨before.state.pool, after.state⟩, after.log⟩) := by
  rw [onStore, ensures_within]

end Parts

/-! ## The hand -/

theorem ensures_advance_astray {returns : Option Victim → Traced (Paged σ) → Prop}
    {fails : PagingError → Traced (Paged σ) → Prop} {panics : Panic → Traced (Paged σ) → Prop}
    (astray : ¬ before.state.pool.hand < before.state.pool.size) :
    (advance reclaimer).Ensures before returns fails panics ↔
      panics .outOfBounds ⟨⟨before.state.pool.turned, before.state.store⟩, before.log⟩ := by
  simp only [advance, ensures_bind, ensures_pool, ensures_updatePool, ensures_insist, astray, if_false]
  rfl

variable {returns : Option Victim → Traced (Paged σ) → Prop}
  {fails : PagingError → Traced (Paged σ) → Prop} {panics : Panic → Traced (Paged σ) → Prop}

theorem ensures_advance (hand : before.state.pool.hand < before.state.pool.size) :
    (advance reclaimer).Ensures before returns fails panics ↔
    match before.state.pool.occupant? before.state.pool.hand with
    | none => returns none ⟨⟨before.state.pool.turned, before.state.store⟩, before.log⟩
    | some occupant =>
      if occupant.pinned then
        returns none ⟨⟨before.state.pool.turned, before.state.store⟩, before.log⟩
      else
        let pool := before.state.pool.turned.setOccupant before.state.pool.hand (some occupant.forget)
        (reclaimer.takeAccessed occupant.owner occupant.page).Ensures
          ⟨before.state.store, before.log⟩
          (fun accessed after =>
            returns (if occupant.touch.accessed || accessed then none
              else some ⟨before.state.pool.hand, occupant.owner, occupant.page⟩)
              ⟨⟨pool, after.state⟩, after.log⟩)
          (fun cause after => fails cause ⟨⟨pool, after.state⟩, after.log⟩)
          fun cause after => panics cause ⟨⟨pool, after.state⟩, after.log⟩ := by
  simp only [advance, ensures_bind, ensures_pool, ensures_updatePool, ensures_insist, hand, if_true]
  cases before.state.pool.occupant? before.state.pool.hand with
  | none => rfl
  | some occupant =>
      simp only
      split
      · rfl
      · simp only [ensures_bind, ensures_updatePool, ensures_onStore]
        apply iff_of_eq
        congr 1
        funext accessed after
        split <;> rfl

theorem advance_spec (before : Traced (Paged σ)) : (advance reclaimer).Ensures before
    (fun victim? after => before.state.pool.Alike after.state.pool ∧
      ∀ victim, victim? = some victim → before.state.pool.Offers victim)
    (fun _ after => before.state.pool.Alike after.state.pool) fun _ _ => True := by
  have turns := before.state.pool.alike_turned
  by_cases hand : before.state.pool.hand < before.state.pool.size
  swap
  · rw [ensures_advance_astray hand]
    trivial
  rw [ensures_advance hand]
  cases found : before.state.pool.occupant? before.state.pool.hand with
  | none => exact ⟨turns, nofun⟩
  | some occupant =>
      simp only
      split
      · exact ⟨turns, nofun⟩
      · rename_i free
        have alike : before.state.pool.Alike (before.state.pool.turned.setOccupant
            before.state.pool.hand (some occupant.forget)) := turns.trans (Pool.alike_forget found)
        have offered : before.state.pool.Offers
            ⟨before.state.pool.hand, occupant.owner, occupant.page⟩ := by
          have unpinned : occupant.pins = 0 := by simpa [Occupant.pinned] using free
          exact ⟨occupant.touch.dirty, by simp [Pool.holder, found, Occupant.holder, unpinned]⟩
        unfold Ensures
        split
        · refine ⟨alike, fun victim chosen => ?_⟩
          split at chosen
          · cases chosen
          · cases chosen
            exact offered
        · exact alike
        · trivial

theorem sweep_spec (steps : Nat) (before : Traced (Paged σ)) :
    (sweep reclaimer steps).Ensures before
      (fun victim after => before.state.pool.Alike after.state.pool ∧
        before.state.pool.Offers victim)
      (fun _ after => before.state.pool.Alike after.state.pool) fun _ _ => True := by
  induction steps generalizing before with
  | zero =>
      rw [sweep, ensures_bind, ensures_pool]
      trivial
  | succ steps ih =>
      rw [sweep, ensures_bind]
      refine (advance_spec before).mono ?_ (fun _ _ alike => alike) fun _ _ _ => trivial
      rintro (_ | victim) middle ⟨alike, offers⟩
      · refine (ih middle).mono ?_ (fun _ _ more => alike.trans more) fun _ _ _ => trivial
        rintro victim after ⟨more, written, held⟩
        exact ⟨alike.trans more, written, alike.holder ▸ held⟩
      · exact ⟨alike, offers victim rfl⟩

theorem selectVictim_spec (before : Traced (Paged σ)) : (selectVictim reclaimer).Ensures before
    (fun victim after => before.state.pool.Alike after.state.pool ∧
      before.state.pool.Offers victim)
    (fun _ after => before.state.pool.Alike after.state.pool) fun _ _ => True := by
  rw [selectVictim, ensures_bind, ensures_pool]
  exact sweep_spec _ before

/-! ## Stores -/

section Store

variable {relation : Paged σ → Paged σ → Prop} (chained : Chained relation)
  (moves : ∀ paged pool, relation paged ⟨pool, paged.store⟩)
  (probes : ∀ owner page, (onStore (reclaimer.takeAccessed owner page)).Keeps relation)
include chained moves probes

theorem advance_keeps : (advance reclaimer).Keeps relation := by
  have turns (f : Pool → Pool) : (updatePool f : Action PagingError (Paged σ) Unit).Keeps relation :=
    fun before => moves before.state _
  refine ((keeps_look chained).bind chained fun _ => keeps_pure chained _).bind chained fun pool =>
    (turns _).bind chained fun _ => (keeps_insist chained _).bind chained fun _ => ?_
  cases pool.occupant? pool.hand with
  | none => exact keeps_pure chained _
  | some occupant =>
      refine (keeps_pure chained _).ite ((turns _).bind chained fun _ =>
        (probes _ _).bind chained fun accessed => ?_)
      exact (keeps_pure chained _).ite (keeps_pure chained _)

theorem selectVictim_keeps : (selectVictim reclaimer).Keeps relation := by
  have sweeps (steps : Nat) : (sweep reclaimer steps).Keeps relation := by
    induction steps with
    | zero => exact fun before => trivial
    | succ steps ih =>
        refine (advance_keeps chained moves probes).bind chained fun victim? => ?_
        cases victim? with
        | none => exact ih
        | some victim => exact keeps_pure chained _
  exact fun before => sweeps _ before

end Store

end Paged

end DemandPaging
