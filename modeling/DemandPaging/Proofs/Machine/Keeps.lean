import DemandPaging.Proofs.Keeps
import DemandPaging.Proofs.Machine.Mapping

namespace DemandPaging.Machine

open DemandPaging.Action

variable {ε α : Type} {relation : Machine → Machine → Prop} {id page : Nat}

theorem onSpace_keeps {inner : Space → Space → Prop} {action : Action ε Space α}
    (kept : action.Keeps inner) (restored : ∀ {machine : Machine} {space next : Space},
      machine.store.spaces[id]? = some space → inner space next →
        relation machine (machine.withSpace id next)) : (onSpace id action).Keeps relation := by
  rintro ⟨machine, log⟩
  cases found : machine.store.spaces[id]? with
  | none =>
      simp only [onSpace, onStore, Paged.onStore, Store.onSpace, ensures_within, Store.space, found]
  | some space =>
      rw [ensures_onSpace found]
      exact (kept ⟨space, log⟩).mono (fun _ _ changed => restored found changed)
        (fun _ _ changed => restored found changed) fun _ _ panicked => panicked

theorem onStorage_keeps {action : Action ε Storage α}
    (restored : ∀ machine storage, relation machine (machine.withStorage storage)) :
    (onStorage action).Keeps relation := by
  intro before
  rw [ensures_onStorage]
  exact (keeps_of_forall (fun _ _ => trivial) action _).mono (fun _ _ _ => restored _ _)
    (fun _ _ _ => restored _ _) fun _ _ panicked => panicked

theorem releaseSlot_keeps (restored : ∀ {machine : Machine} {used : Bitmap},
      relation machine (machine.withSwap ⟨used, machine.store.swap.device⟩)) (slot : Nat) :
    (onSwap (SwapArea.release slot)).Keeps relation := by
  intro before
  rw [ensures_onSwap, SwapArea.release, SwapArea.demandUsed]
  simp only [ensures_bind, ensures_look, ensures_orPanic, ensures_insist, ensures_change,
    ensures_emit]
  split
  · split
    · cases before.state.store.swap.used.set slot false with
      | ok => exact restored
      | error => trivial
    · trivial
  · trivial

variable (chained : Chained relation)
include chained

theorem isModified_keeps {frame : Nat} : (isModified id page frame).Keeps relation :=
  ((keeps_look chained).bind chained fun _ => keeps_orPanic chained _).bind chained fun _ =>
    (keeps_orPanic chained _).bind chained fun _ => (keeps_look chained).bind chained fun _ =>
      keeps_pure chained _

theorem vacate_keeps {frame : Nat}
    (unmaps : ∀ {machine : Machine} {space : Space} (directory : Directory),
      machine.store.spaces[id]? = some space →
        relation machine (machine.withSpace id { space with directory := directory }))
    (frees : ∀ {machine : Machine} {pool : Pool}, machine.pool.vacate frame = .ok pool →
      relation machine (machine.withPool pool)) : (vacate id page frame).Keeps relation := by
  have directed : (Action.change fun space : Space => do
      return { space with directory := ← space.directory.unmap page } :
      Action PagingError Space Unit).Keeps
        fun space next => ∃ directory, next = { space with directory := directory } := by
    refine keeps_change fun {space next} changed => ?_
    simp only [bind, Except.bind, pure, Except.pure] at changed
    split at changed
    · cases changed
    · cases changed
      exact ⟨_, rfl⟩
  refine (onSpace_keeps directed fun found reached => ?_).bind chained fun _ => ?_
  · obtain ⟨directory, rfl⟩ := reached
    exact unmaps directory found
  · refine Keeps.bind chained (keeps_change fun {before after} changed => ?_)
      fun _ => keeps_emit chained _
    simp only [bind, Except.bind, pure, Except.pure] at changed
    split at changed
    · cases changed
    · rename_i pool done
      cases changed
      exact frees done

theorem dropPage_keeps {record : PageRecord}
    (saves : ∀ window contents, (onStorage (Storage.save window contents)).Keeps relation)
    (vacates : ∀ frame, record.residence.frame? = some frame →
      (vacate id page frame).Keeps relation)
    (releases : ∀ slot, (onSwap (SwapArea.release slot)).Keeps relation) :
    (dropPage id page record).Keeps relation := by
  obtain ⟨residence, dirty⟩ := record
  cases residence with
  | inFrame frame window =>
      refine (isModified_keeps chained).bind chained fun modified => ?_
      refine ((keeps_look chained).bind chained fun _ => keeps_orPanic chained _).bind chained
        fun contents => ?_
      have leaves (flushed : Except PagingError Unit) :
          (do vacate id page frame; orFail flushed : Action PagingError Machine Unit).Keeps relation :=
        (vacates frame rfl).bind chained fun _ => keeps_orFail chained _
      have stays := (keeps_pure chained (.ok ())).bind chained leaves
      cases window with
      | none => exact stays
      | some window => exact ((saves window contents).attempt.bind chained leaves).ite stays
  | inSwap slot => exact releases slot
  | untouched | inFile => exact keeps_pure chained _

end DemandPaging.Machine
