import DemandPaging.Proofs.Run

/-!
# Panics

A machine whose files come into memory by being mapped never breaks a promise of its own. It panics
only for want of frames, pins, space numbers or counts (`panics_allowed`).
-/

namespace DemandPaging

theorem Machine.start_succeeds {settings : Settings} {device : Device} (storage : Storage)
    (frames : 0 < settings.userFrames ∧ settings.userFrames ≤ Settings.maxUserFrames)
    (kind : device.kind = .swap) : ∃ first, Machine.start settings device storage = .ok first := by
  have valid := settings.validate_ok_iff.mpr frames
  simp only [start, valid, SwapArea.attach, kind, if_true, bind, Except.bind, pure, Except.pure]
  exact ⟨_, rfl⟩

/-- Whatever sensible operations are performed, there are no panics but the allowed ones. -/
theorem panics_allowed {settings : Settings} {device : Device} {storage : Storage}
    (frames : 0 < settings.userFrames ∧ settings.userFrames ≤ Settings.maxUserFrames)
    (kind : device.kind = .swap) (formed : storage.Formed) :
    ∃ first, Machine.start settings device storage = .ok first ∧ ∀ now,
      Run (fun before operation _ => operation.Addressed before ∧ operation.Mapped) first now →
      ∀ operation : Operation, operation.Addressed now.state → operation.Mapped →
      operation.Sensible now.state → ∀ cause after,
      operation.perform now = .error (.panicked cause) after → after.state.Allowed cause := by
  obtain ⟨first, started⟩ := Machine.start_succeeds storage frames kind
  refine ⟨first, started, fun now run operation addressed mapped sensible cause after panicked => ?_⟩
  have sound : now.state.Sound True := run.sound (Machine.start_sound started fun _ => formed)
    (fun _ _ _ rule => rule.1) fun _ _ _ _ rule => rule.2
  exact (Operation.perform_spec sound addressed fun _ => mapped).panicked panicked ⟨trivial, sensible⟩

def Operation.panic? (operation : Operation) (before : Traced Machine) : Option Panic :=
  match operation.perform before with
  | .error (.panicked cause) _ => some cause
  | _ => none

theorem Operation.panicked_of_panic? {operation : Operation} {before : Traced Machine} {cause : Panic}
    (found : operation.panic? before = some cause) :
    ∃ after, operation.perform before = .error (.panicked cause) after := by
  unfold panic? at found
  split at found
  · rename_i ended
    cases found
    exact ⟨_, ended⟩
  · cases found

/-- Of two pages, one is in the only frame and pinned, and the other is asked for. -/
theorem panics_allowed_of_one_frame : ∃ first now after : Traced Machine,
    Run (fun before operation _ => operation.Addressed before ∧ operation.Mapped) first now ∧
    (Operation.faultIn 1 4096).perform now = .error (.panicked (.everyFramePinned 1)) after ∧
    after.state.Allowed (.everyFramePinned 1) := by
  let operations : List Operation :=
    [.createSpace none {}, .addZeros 1 0, .addZeros 1 4096, .faultIn 1 0]
  have ends : (Operation.trial 1 1 {} operations).map (fun ends =>
      (decide ((Operation.faultIn 1 4096).Addressed ends.2.state),
        (Operation.faultIn 1 4096).panic? ends.2)) = some (true, some (.everyFramePinned 1)) := by
    decide +kernel
  simp only [Option.map_eq_some_iff, Prod.exists, Prod.mk.injEq, decide_eq_true_eq] at ends
  obtain ⟨first, now, tried, addressed, panics⟩ := ends
  obtain ⟨after, panicked⟩ := Operation.panicked_of_panic? panics
  have mapped : ∀ operation ∈ operations, operation.Mapped := by simp [operations, Operation.Mapped]
  obtain ⟨⟨device, kind, started⟩, done⟩ := Operation.trial_ok tried
  have run : Run (fun before operation _ => operation.Addressed before ∧ operation.Mapped) first now :=
    Operation.run_of_performAll done fun operation member _ _ addressed =>
      ⟨addressed, mapped operation member⟩
  obtain ⟨first', started', safe⟩ := panics_allowed
    (show 0 < (⟨1⟩ : Settings).userFrames ∧ (⟨1⟩ : Settings).userFrames ≤ Settings.maxUserFrames by
      decide) kind
    (show Storage.Formed {} from fun number file found => by simp at found)
  cases started.symm.trans started'
  exact ⟨first, now, after, run, panicked,
    safe now run (.faultIn 1 4096) addressed trivial trivial _ after panicked⟩

end DemandPaging
