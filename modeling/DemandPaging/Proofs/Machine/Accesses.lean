import DemandPaging.Proofs.Machine.Eviction
import DemandPaging.Proofs.Pool.Sweep

namespace DemandPaging

def Store.accesses : Accesses Store where
  known store key := store.spaces.contains key.1 = true ∧ Aligned key.2 ∧ IsUser key.2
  bit store key := store.spaces[key.1]?.any fun space => space.directory.accessed key.2

namespace Machine

open DemandPaging.Action

theorem probes (id : Nat) : (reclaimerFor id).Probes Store.accesses := by
  rintro store ⟨owner, page⟩ ⟨live, aligned, user⟩
  obtain ⟨space, found⟩ : ∃ space, store.spaces[owner]? = some space := by
    rwa [← Option.isSome_iff_exists, Std.ExtTreeMap.isSome_getElem?_eq_contains]
  obtain ⟨directory, taken, cleared⟩ := space.directory.takeAccessed_eq aligned user
  refine ⟨{ store with spaces := store.spaces.insert owner { space with directory := directory } },
    fun log => ?_, ?_, ?_⟩
  · apply Ensures.ran
    simp only [reclaimerFor, takeAccessed, ensures_bind, ensures_look, ensures_insist, live, if_true,
      Store.onSpace, ensures_within, Store.space, found, ensures_orPanic, taken, ensures_update,
      ensures_pure]
    simp [Store.accesses, found]
  · funext ⟨other, place⟩
    simp only [Store.accesses, Std.ExtTreeMap.getElem?_insert, Nat.compare_eq_eq,
      Function.update_apply, Prod.mk.injEq]
    by_cases same : owner = other
    · subst same
      simp [cleared, found, Function.update_apply]
    · simp [same, Ne.symm same]
  · funext ⟨other, place⟩
    simp only [Store.accesses, Std.ExtTreeMap.contains_insert]
    by_cases same : owner = other
    · subst same
      simp [show store.spaces.contains owner = true from live]
    · simp [same]

theorem Sound.tenanted {strict : Prop} {machine : Machine} (sound : machine.Sound strict) :
    Paged.Tenanted Store.accesses machine where
  distinct := by
    intro frame other key here there
    obtain ⟨holder, held, rfl⟩ := Option.map_eq_some_iff.mp here
    obtain ⟨holder', held', same⟩ := Option.map_eq_some_iff.mp there
    obtain ⟨window, dirty, recorded⟩ := exists_holds_of_holder sound held
    obtain ⟨window', dirty', recorded'⟩ := exists_holds_of_holder sound held'
    rw [same, recorded] at recorded'
    cases recorded'
    rfl
  known found := by
    obtain ⟨holder, held, rfl⟩ := Option.map_eq_some_iff.mp found
    obtain ⟨window, dirty, recorded⟩ := exists_holds_of_holder sound held
    exact sound.live recorded

end Machine

end DemandPaging
