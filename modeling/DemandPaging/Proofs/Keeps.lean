import DemandPaging.Proofs.Ensures

namespace DemandPaging.Action

variable {ε δ σ α β : Type}

def Keeps (relation : σ → σ → Prop) (action : Action ε σ α) : Prop :=
  ∀ before, action.Ensures before (fun _ after => relation before.state after.state)
    (fun _ after => relation before.state after.state) fun _ _ => True

theorem keeps_of_premise {premise : σ → Prop} {relation : σ → σ → Prop} {action : Action ε σ α}
    (kept : ∀ before, premise before.state → action.Ensures before
      (fun _ after => relation before.state after.state)
      (fun _ after => relation before.state after.state) fun _ _ => True) :
    action.Keeps fun before after => premise before → relation before after := by
  intro before
  by_cases holds : premise before.state
  · exact (kept before holds).mono (fun _ _ related _ => related) (fun _ _ related _ => related)
      fun _ _ panicked => panicked
  · unfold Ensures
    split
    · exact fun holds' => absurd holds' holds
    · exact fun holds' => absurd holds' holds
    · trivial

structure Chained (relation : σ → σ → Prop) : Prop where
  refl : ∀ state, relation state state
  trans : ∀ {first middle last}, relation first middle → relation middle last → relation first last

variable {relation : σ → σ → Prop}

theorem keeps_of_forall (related : ∀ before after, relation before after) (action : Action ε σ α) :
    action.Keeps relation := by
  intro before
  unfold Ensures
  split
  · exact related _ _
  · exact related _ _
  · trivial

theorem Keeps.bind {action : Action ε σ α} {next : α → Action ε σ β} (chained : Chained relation)
    (first : action.Keeps relation) (later : ∀ value, (next value).Keeps relation) :
    (action >>= next).Keeps relation := by
  intro before
  rw [ensures_bind]
  refine (first before).mono ?_ (fun _ _ failed => failed) fun _ _ panicked => panicked
  intro value middle reached
  exact (later value middle).mono (fun _ _ more => chained.trans reached more)
    (fun _ _ more => chained.trans reached more) fun _ _ panicked => panicked

theorem Keeps.ite {condition : Prop} [Decidable condition] {action other : Action ε σ α}
    (holds : action.Keeps relation) (fails : other.Keeps relation) :
    (if condition then action else other).Keeps relation := by
  split
  · exact holds
  · exact fails

theorem Keeps.attempt {action : Action ε σ α} (kept : action.Keeps relation) :
    (action.attempt : Action δ σ (Except ε α)).Keeps relation := by
  intro before
  rw [ensures_attempt]
  exact kept before

theorem Keeps.mapFailure {action : Action ε σ α} (kept : action.Keeps relation) (f : ε → δ) :
    (action.mapFailure f).Keeps relation := by
  intro before
  rw [ensures_mapFailure]
  exact kept before

theorem Keeps.forM {action : β → Action ε σ Unit} (chained : Chained relation) (elements : List β)
    (kept : ∀ element ∈ elements, (action element).Keeps relation) :
    (elements.forM action).Keeps relation := by
  induction elements with
  | nil => exact fun before => chained.refl before.state
  | cons first rest ih =>
      obtain ⟨here, there⟩ := List.forall_mem_cons.mp kept
      exact here.bind chained fun _ => ih there

theorem Keeps.mapM {action : β → Action ε σ α} (chained : Chained relation) (elements : List β)
    (kept : ∀ element ∈ elements, (action element).Keeps relation) :
    (elements.mapM action).Keeps relation := by
  induction elements with
  | nil =>
      intro before
      rw [ensures_mapM_nil]
      exact chained.refl before.state
  | cons first rest ih =>
      obtain ⟨here, there⟩ := List.forall_mem_cons.mp kept
      rw [List.mapM_cons]
      exact here.bind chained fun _ => (ih there).bind chained fun _ before =>
        chained.refl before.state

theorem keeps_change {f : σ → Except Panic σ}
    (kept : ∀ {before after}, f before = .ok after → relation before after) :
    (change f : Action ε σ Unit).Keeps relation := by
  intro before
  rw [ensures_change]
  split
  · rename_i changed
    exact kept changed
  · trivial

section Still

variable (chained : Chained relation)
include chained

theorem keeps_pure (value : α) : (pure value : Action ε σ α).Keeps relation :=
  fun before => chained.refl before.state

theorem keeps_look : (look : Action ε σ σ).Keeps relation :=
  fun before => chained.refl before.state

theorem keeps_emit (event : Event) : (emit event : Action ε σ Unit).Keeps relation :=
  fun before => chained.refl before.state

theorem keeps_fail (cause : ε) : (fail cause : Action ε σ α).Keeps relation :=
  fun before => chained.refl before.state

theorem keeps_require {condition : Prop} [Decidable condition] (otherwise : ε) :
    (require condition otherwise : Action ε σ Unit).Keeps relation := by
  intro before
  rw [ensures_require]
  split <;> exact chained.refl before.state

theorem keeps_insist {condition : Prop} [Decidable condition] (otherwise : Panic) :
    (insist condition otherwise : Action ε σ Unit).Keeps relation := by
  intro before
  rw [ensures_insist]
  split
  · exact chained.refl before.state
  · trivial

theorem keeps_orPanic (outcome : Except Panic α) :
    (orPanic outcome : Action ε σ α).Keeps relation := by
  intro before
  rw [ensures_orPanic]
  cases outcome with
  | ok value => exact chained.refl before.state
  | error cause => trivial

theorem keeps_orFail (outcome : Except ε α) : (orFail outcome : Action ε σ α).Keeps relation := by
  intro before
  rw [ensures_orFail]
  cases outcome <;> exact chained.refl before.state

end Still

end DemandPaging.Action
