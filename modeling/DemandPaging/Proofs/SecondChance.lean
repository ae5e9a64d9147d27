import DemandPaging.Proofs.Machine.Accesses
import DemandPaging.Proofs.Run

/-!
# Second chance

Main statement: `second_chance`, the clock gives each frame that was accessed its second chance and
takes the first one that was not. It holds for whoever keeps the accessed bits of users, as the
directories of a machine do.
-/

namespace DemandPaging

namespace Paged

variable {σ : Type} {accesses : Accesses σ} {reclaimer : Reclaimer σ} {paged : Paged σ}

/-- If all frames in use are pinned, the clock panics. Otherwise it chooses, within two rounds. -/
theorem second_chance (probes : reclaimer.Probes accesses) (clocked : paged.Clocked accesses)
    (log : Array Event) :
    (paged.pool.candidates = [] → ∃ after, selectVictim reclaimer ⟨paged, log⟩ =
      .error (.panicked (.everyFramePinned paged.pool.size)) after) ∧
    (paged.pool.candidates ≠ [] → ∃ victim after, Chosen accesses paged victim after ∧
      selectVictim reclaimer ⟨paged, log⟩ = .ok victim ⟨after, log⟩ ∧
      ∃ steps ≤ 2 * paged.pool.size, ∀ more,
        sweep reclaimer (steps + more) ⟨paged, log⟩ = .ok victim ⟨after, log⟩) := by
  constructor
  · intro none
    obtain ⟨after, -, ran⟩ := selectVictim_panics probes clocked none
    exact ⟨_, ran log⟩
  · intro some
    obtain ⟨victim, after, chosen, selected, steps, short, ran⟩ :=
      selectVictim_chooses probes clocked some
    exact ⟨victim, after, chosen, selected log, steps, short, fun more => ran more log⟩

/-- Of three frames the first is pinned and the second accessed, and so the third is chosen. -/
theorem second_chance_of_three_frames : ∃ (machine : Machine) (victim : Victim) (after : Machine),
    machine.Clocked Store.accesses ∧ machine.pool.candidates = [1, 2] ∧
    Chosen Store.accesses machine victim after ∧ victim.frame = 2 ∧
    selectVictim (Machine.reclaimerFor 1) ⟨machine, #[]⟩ = .ok victim ⟨after, #[]⟩ := by
  let operations : List Operation :=
    [.createSpace none {}, .addZeros 1 0, .addZeros 1 4096, .addZeros 1 8192, .faultIn 1 0,
      .resolveFault 1 4096, .resolveFault 1 8192, .markAccessed 1 4096 true]
  have ends : (Operation.trial 3 1 {} operations).map (fun ends =>
      (ends.2.state.pool.hand, ends.2.state.pool.size, ends.2.state.pool.candidates,
        [1, 2].find? (!ends.2.state.accessed Store.accesses ·))) = some (0, 3, [1, 2], some 2) := by
    decide +kernel
  simp only [Option.map_eq_some_iff, Prod.exists, Prod.mk.injEq] at ends
  obtain ⟨first, now, tried, hand, size, candidates, idle⟩ := ends
  obtain ⟨device, started, run⟩ := Operation.trial_runs tried
  have clocked : now.state.Clocked Store.accesses :=
    ⟨(run.sound_of_started started).tenanted, by rw [hand, size]; decide⟩
  obtain ⟨victim, after, chosen, ran, -⟩ :=
    (second_chance (Machine.probes 1) clocked #[]).2 (by simp [candidates])
  have frame := chosen.frame
  rw [candidates, idle] at frame
  exact ⟨now.state, victim, after, clocked, candidates, chosen, (Option.some.inj frame).symm, ran⟩

end Paged

end DemandPaging
