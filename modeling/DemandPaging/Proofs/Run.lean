import DemandPaging.Proofs.Operation

namespace DemandPaging

/-- A machine has performed operations by some rule, none of which panicked. -/
inductive Run (rule : Machine → Operation → Machine → Prop) (first : Traced Machine) :
    Traced Machine → Prop where
  | start : Run rule first first
  | next {before after : Traced Machine} {operation : Operation}
      {outcome : Except PagingError Unit} (earlier : Run rule first before)
      (allowed : rule before.state operation after.state)
      (ends : operation.Ends before outcome after) : Run rule first after

namespace Machine

variable {strict : Prop}

theorem start_ok {settings : Settings} {device : Device} {storage : Storage}
    {first : Traced Machine} (started : start settings device storage = .ok first) :
    (0 < settings.userFrames ∧ settings.userFrames ≤ Settings.maxUserFrames) ∧
      first.state = { pool := .ofSize settings.userFrames, store :=
        { swap := ⟨.clear (device.size / sectorsPerPage), device⟩, storage } } := by
  simp only [start, bind, Except.bind] at started
  split at started
  · cases started
  · rename_i valid
    have bounds := settings.validate_ok_iff.mp valid
    unfold SwapArea.attach at started
    split at started
    · cases started
    · rename_i swap attached
      split at attached
      · cases attached
        cases started
        exact ⟨bounds, rfl⟩
      · cases attached

structure Blank (view : View) : Prop where
  record : view.record = fun _ => none
  holder : view.holder = fun _ => none
  translation : view.translation = fun _ => none
  used : view.used = fun _ => false

theorem start_blank {settings : Settings} {device : Device} {storage : Storage}
    {first : Traced Machine} (started : start settings device storage = .ok first) :
    Blank first.state.view := by
  obtain ⟨-, same⟩ := start_ok started
  rw [same]
  refine ⟨funext fun key => ?_, funext fun frame => ?_, funext fun key => ?_, funext fun slot => ?_⟩
  · simp [view]
  · simp only [view, Pool.holder, Pool.occupant?, Pool.ofSize, Array.getElem?_replicate]
    split <;> rfl
  · simp [view]
  · simp [view, SwapArea.inUse, Bitmap.not_on_clear]

theorem start_sound {settings : Settings} {device : Device} {storage : Storage}
    {first : Traced Machine} (started : start settings device storage = .ok first)
    (formed : strict → storage.Formed) : first.state.Sound strict := by
  obtain ⟨record, holder, translation, used⟩ := start_blank started
  obtain ⟨⟨positive, bound⟩, same⟩ := start_ok started
  refine ⟨⟨?_, ?_, ?_, ?_, ?_, ?_⟩, fun _ => ?_, ⟨?_, ?_, ?_, ?_, ?_, ?_⟩⟩
  · simp [record]
  · simp [record]
  · simp [View.frameOf, View.tenant, record, holder]
  · simp [View.target, View.frameOf, translation, record]
  · simp [View.slotOf, used, record]
  · simp [View.slotOf, record]
  · intro key window found
    simp [View.backing, record] at found
  · rw [same]
    exact Pool.counted_ofSize _
  · rw [same]
    exact positive.trans_eq (Pool.size_ofSize _).symm
  · rw [same]
    exact Nat.le_trans (Nat.le_of_eq (Pool.size_ofSize _)) bound
  · rw [same]
    exact SwapArea.kept_clear device
  · rw [same]
    exact formed
  · intro id space found
    simp [same] at found

end Machine

theorem Run.sound {strict : Prop} {rule : Machine → Operation → Machine → Prop}
    {first now : Traced Machine} (run : Run rule first now) (sound : first.state.Sound strict)
    (addressed : ∀ before operation after, rule before operation after → operation.Addressed before)
    (mapped : strict → ∀ before operation after, rule before operation after → operation.Mapped) :
    now.state.Sound strict := by
  induction run with
  | start => exact sound
  | next earlier allowed ends ih =>
      exact Operation.sound_of_ends ih (addressed _ _ _ allowed)
        (fun holds => mapped holds _ _ _ allowed) ends

theorem Run.sound_of_started {settings : Settings} {device : Device} {storage : Storage}
    {first now : Traced Machine} (started : Machine.start settings device storage = .ok first)
    (run : Run (fun before operation _ => operation.Addressed before) first now) :
    now.state.Sound False :=
  run.sound (Machine.start_sound started False.elim) (fun _ _ _ addressed => addressed) False.elim

/-! ## Short runs -/

namespace Operation

instance (operation : Operation) (machine : Machine) : Decidable (operation.Addressed machine) :=
  inferInstanceAs (Decidable (∀ id ∈ operation.space?, machine.view.live id = true))

def performAll : List Operation → Traced Machine → Option (Traced Machine)
  | [], first => some first
  | operation :: rest, before =>
    if operation.Addressed before.state then
      match operation.perform before with
      | .ok _ after => performAll rest after
      | .error _ _ => none
    else none

theorem performAll_keeps {motive : Traced Machine → Prop} {operations : List Operation}
    {before now : Traced Machine} (done : performAll operations before = some now)
    (holds : motive before) (kept : ∀ operation ∈ operations, ∀ before after, motive before →
      operation.Addressed before.state → operation.Ends before (.ok ()) after → motive after) :
    motive now := by
  induction operations generalizing before with
  | nil =>
      cases done
      exact holds
  | cons operation rest ih =>
      obtain ⟨here, later⟩ := List.forall_mem_cons.mp kept
      unfold performAll at done
      split at done
      · rename_i addressed
        split at done
        · rename_i ended
          exact ih done (here _ _ holds addressed ended) later
        · cases done
      · cases done

/-- A machine with a faultless swap device at its start, and after some operations. -/
def trial (frames slots : Nat) (storage : Storage) (operations : List Operation) :
    Option (Traced Machine × Traced Machine) :=
  let sectors := sectorsPerPage * slots
  if narrow : sectors < halfWordLimit then
    let device : Device :=
      { name := "swap", kind := .swap, size := sectors, medium := ⟨sectors, {}⟩, narrow }
    match Machine.start ⟨frames⟩ device storage with
    | .ok first => (performAll operations first).map fun now => (first, now)
    | .error _ => none
  else none

theorem trial_ok {frames slots : Nat} {storage : Storage} {operations : List Operation}
    {first now : Traced Machine}
    (tried : trial frames slots storage operations = some (first, now)) :
    (∃ device : Device, device.kind = .swap ∧
      Machine.start ⟨frames⟩ device storage = .ok first) ∧
      performAll operations first = some now := by
  unfold trial at tried
  dsimp only at tried
  split at tried
  · split at tried
    · rename_i started
      obtain ⟨last, done, same⟩ := Option.map_eq_some_iff.mp tried
      cases same
      exact ⟨⟨_, rfl, started⟩, done⟩
    · cases tried
  · cases tried

theorem run_of_performAll {rule : Machine → Operation → Machine → Prop}
    {operations : List Operation} {first now : Traced Machine}
    (done : performAll operations first = some now)
    (allowed : ∀ operation ∈ operations, ∀ before after,
      operation.Addressed before → rule before operation after) : Run rule first now :=
  performAll_keeps done .start fun operation member _ _ run addressed ends =>
    .next run (allowed operation member _ _ addressed) ends

theorem trial_runs {frames slots : Nat} {storage : Storage} {operations : List Operation}
    {first now : Traced Machine}
    (tried : trial frames slots storage operations = some (first, now)) :
    ∃ device : Device, Machine.start ⟨frames⟩ device storage = .ok first ∧
      Run (fun before operation _ => operation.Addressed before) first now := by
  obtain ⟨⟨device, -, started⟩, done⟩ := trial_ok tried
  exact ⟨device, started, run_of_performAll done fun _ _ _ _ addressed => addressed⟩

theorem performAll_single {operation : Operation} {before now : Traced Machine}
    (done : performAll [operation] before = some now) :
    operation.Addressed before.state ∧ operation.Ends before (.ok ()) now := by
  unfold performAll at done
  split at done
  · rename_i addressed
    split at done
    · rename_i ended
      cases done
      exact ⟨addressed, ended⟩
    · cases done
  · cases done

end Operation

end DemandPaging
