import DemandPaging.Proofs.Contents
import DemandPaging.Proofs.Run

/-!
# Paging is transparent for anonymous memory

Over any run of operations of any number of spaces, with any failures on the way, an anonymous page
holds the last bytes that were stored in it, and zeros before that; and this is what is read of it
(`anonymous_transparent`). It does not matter where the page has been since, nor with whom it
shared frames and slots.
-/

namespace DemandPaging

def View.Anonymous (view : View) (key : Nat × Nat) : Prop :=
  ∃ record, view.record key = some record ∧ record.residence.window? = none

theorem View.anonymous_iff {view : View} {key : Nat × Nat} :
    view.Anonymous key ↔ view.backing key = some none := by
  simp [View.Anonymous, View.backing]

/-- What is stored in the pages after an operation. Pages that were not there are zero. -/
def Operation.noted (operation : Operation) (before : Machine) (memory : Memory) (stop : Nat) :
    Memory :=
  fun key i =>
    if (before.view.record key).isNone then some 0 else operation.stored memory stop key i

/-- A run of operations, and what was stored last in each place of each page. -/
inductive Recorded (first : Traced Machine) : Traced Machine → Memory → Prop where
  | start : Recorded first first fun _ _ => some 0
  | next {before after : Traced Machine} {memory : Memory} {operation : Operation}
      {outcome : Except PagingError Unit} {stop : Nat} (earlier : Recorded first before memory)
      (addressed : operation.Addressed before.state)
      (ends : operation.Ends before outcome after)
      (stops : operation.Stops before outcome stop after) :
      Recorded first after (operation.noted before.state memory stop)

/-! ## New pages -/

theorem Path.record_of_maps {strict : Prop} {first last : View} {steps : List Step} {id : Nat}
    {adds : Nat → Residence → Prop} (path : Path strict first steps last)
    (maps : ∀ step ∈ steps, step.Maps id adds) {key : Nat × Nat} (absent : first.record key = none)
    {record : PageRecord} (found : last.record key = some record) :
    record = ⟨.untouched, false⟩ ∨ ∃ window, record.residence.window? = some window := by
  have added : ∀ record, last.record key = some record →
      record = ⟨.untouched, false⟩ ∨ ∃ window, record.residence.window? = some window := by
    refine path.keeps (motive := fun view => ∀ record, view.record key = some record →
      record = ⟨.untouched, false⟩ ∨ ∃ window, record.residence.window? = some window) maps ?_
      fun record here => by simp [absent] at here
    intro view step maps permitted before record here
    cases step with
    | install other residence =>
        by_cases same : key = other
        · subst same
          obtain ⟨-, -, -, -, rfl | ⟨window, rfl, -⟩⟩ := permitted
          · simp only [View.after, View.put, Function.update_self, Option.some.injEq] at here
            exact .inl here.symm
          · simp only [View.after, View.put, Function.update_self, Option.some.injEq] at here
            exact .inr ⟨window, here ▸ rfl⟩
        · exact before record ((Function.update_of_ne same ..).symm.trans here)
    | enter => exact before record here
    | _ => exact maps.elim
  exact added record found

theorem Operation.Performed.logical_of_new {strict : Prop} {operation : Operation}
    {before after : Machine} {outcome : Except PagingError Unit} {stop : Nat} {key : Nat × Nat}
    (performed : operation.Performed strict before outcome stop after)
    (absent : before.view.record key = none) (anonymous : after.view.Anonymous key) {i : Nat}
    (small : i < pageSize) : after.view.logical key i = some 0 := by
  obtain ⟨steps, ⟨path, -⟩, takes, -⟩ := performed
  rcases operation.addsNone_or_maps before outcome with addsNone | ⟨id, maps⟩
  · have before := path.backing_before (fun step member => addsNone step (takes step member))
      (View.anonymous_iff.mp anonymous)
    simp [View.backing, absent] at before
  · obtain ⟨record, recorded, outside⟩ := anonymous
    rcases path.record_of_maps (fun step member => maps step (takes step member)) absent recorded with
      rfl | ⟨window, inside⟩
    · rw [View.logical_eq recorded, if_pos (show i < Residence.kept .untouched from small)]
      simp [View.image, Block.zero, show i < 4096 from small]
    · rw [outside] at inside
      cases inside

theorem Operation.stored_congr (operation : Operation) {memory other : Memory} (stop : Nat)
    {key : Nat × Nat} {i : Nat} (same : memory key i = other key i) :
    operation.stored memory stop key i = operation.stored other stop key i := by
  cases operation with
  | writeUser | userStore => simp only [stored, Memory.store, same]
  | _ => exact same

theorem Operation.Performed.anonymous_before {strict : Prop} {operation : Operation}
    {before after : Machine} {outcome : Except PagingError Unit} {stop : Nat} {key : Nat × Nat}
    (performed : operation.Performed strict before outcome stop after)
    (present : before.view.record key ≠ none) (anonymous : after.view.Anonymous key) :
    before.view.Anonymous key := by
  obtain ⟨steps, ⟨path, -⟩, takes, -⟩ := performed
  obtain ⟨record, recorded⟩ := Option.ne_none_iff_exists'.mp present
  obtain ⟨later, found, -⟩ := id anonymous
  have kept := path.backing_eq (Takes.oneWay takes) (View.backing_of_record recorded)
    (by simp [found])
  rw [View.anonymous_iff.mp anonymous, Option.some.injEq] at kept
  exact ⟨record, recorded, kept.symm⟩

/-! ## Runs -/

variable {first now : Traced Machine} {memory : Memory}

theorem Recorded.sound (recorded : Recorded first now memory) (sound : first.state.Sound False) :
    now.state.Sound False := by
  induction recorded with
  | start => exact sound
  | next earlier addressed ends stops ih =>
      exact Operation.sound_of_ends ih addressed False.elim ends

theorem Recorded.exists_byte (recorded : Recorded first now memory) (key : Nat × Nat) (i : Nat) :
    ∃ byte, memory key i = some byte := by
  induction recorded with
  | start => exact ⟨0, rfl⟩
  | @next before after memory operation outcome stop earlier addressed ends stops ih =>
      obtain ⟨byte, known⟩ := ih
      unfold Operation.noted
      split
      · exact ⟨0, rfl⟩
      · cases operation with
        | writeUser | userStore =>
            simp only [Operation.stored, Memory.store, known, Option.map_some]
            split <;> exact ⟨_, rfl⟩
        | _ => exact ⟨byte, known⟩

theorem Recorded.logical (recorded : Recorded first now memory) (sound : first.state.Sound False)
    (blank : Machine.Blank first.state.view) {key : Nat × Nat}
    (anonymous : now.state.view.Anonymous key) {i : Nat} (small : i < pageSize) :
    now.state.view.logical key i = memory key i := by
  induction recorded generalizing key i with
  | start =>
      obtain ⟨record, found, -⟩ := anonymous
      simp [blank.record] at found
  | @next before after memory operation outcome stop earlier addressed ends stops ih =>
      have soundBefore := earlier.sound sound
      have performed := Operation.performed_of_stops soundBefore addressed False.elim ends stops
      -- A page on record now was anonymous before, or else the operation has added it.
      unfold Operation.noted
      split
      · rename_i absent
        exact performed.logical_of_new (Option.isNone_iff_eq_none.mp absent) anonymous small
      · rename_i present
        have anonymousBefore := performed.anonymous_before (by simpa using present) anonymous
        obtain ⟨record, found, -⟩ := id anonymous
        rw [performed.logical soundBefore (View.anonymous_iff.mp anonymousBefore) (by simp [found])
          (.inl rfl) small]
        exact operation.stored_congr stop (ih anonymousBefore small)

structure Transparent (now : Traced Machine) (memory : Memory) : Prop where
  holds : ∀ {key : Nat × Nat}, now.state.view.Anonymous key → ∀ i < pageSize,
    now.state.view.logical key i = memory key i
  /-- However an operation ends, it stops to store bytes at some address. -/
  stops : ∀ {operation : Operation} {outcome : Except PagingError Unit} {after : Traced Machine},
    operation.Addressed now.state → operation.Ends now outcome after →
    ∃ stop, operation.Stops now outcome stop after
  /-- A page that stays holds what it held before, with the bytes up to there over it. -/
  kept : ∀ {operation : Operation} {outcome : Except PagingError Unit} {stop : Nat}
    {after : Traced Machine} {key : Nat × Nat}, operation.Addressed now.state →
    operation.Ends now outcome after → operation.Stops now outcome stop after →
    now.state.view.Anonymous key → after.state.view.record key ≠ none → ∀ i < pageSize,
    after.state.view.logical key i = operation.stored now.state.view.logical stop key i
  read : ∀ {id start length : Nat} {read : Bytes} {after : Traced Machine},
    now.state.view.live id = true → Machine.readUser id start length now = .ok read after →
    read.length = length ∧ ∀ j < length, now.state.view.Anonymous (id, pageOf (start + j)) →
      read[j]? = memory (id, pageOf (start + j)) (pageOffset (start + j))
  loaded : ∀ {id address length : Nat} {read : Bytes} {after : Traced Machine},
    now.state.view.live id = true → Machine.userLoad id address length now = .ok read after →
    ∀ j < read.length, now.state.view.Anonymous (id, pageOf (address + j)) →
      read[j]? = memory (id, pageOf (address + j)) (pageOffset (address + j))

/-- Paging does not show in anonymous pages, whatever is done and fails. -/
theorem anonymous_transparent {settings : Settings} {device : Device} {storage : Storage}
    (started : Machine.start settings device storage = .ok first)
    (recorded : Recorded first now memory) : Transparent now memory := by
  have startSound : first.state.Sound False := Machine.start_sound started False.elim
  have sound := recorded.sound startSound
  have holds {key : Nat × Nat} (anonymous : now.state.view.Anonymous key) {i : Nat}
      (small : i < pageSize) : now.state.view.logical key i = memory key i :=
    recorded.logical startSound (Machine.start_blank started) anonymous small
  have known {id start : Nat} {read : Bytes} (reads : now.state.Reads False id start read) {j : Nat}
      (small : j < read.length) (anonymous : now.state.view.Anonymous (id, pageOf (start + j))) :
      read[j]? = memory (id, pageOf (start + j)) (pageOffset (start + j)) := by
    obtain ⟨backing, found, known⟩ := reads.logical sound small
    rw [View.anonymous_iff.mp anonymous, Option.some.injEq] at found
    subst found
    have inside := pageOffset_lt (start + j)
    rw [known (.inl rfl) inside, holds anonymous inside]
  constructor
  · exact fun anonymous i small => holds anonymous small
  · intro operation outcome after addressed ends
    obtain ⟨stop, stops, -⟩ := Operation.concludes_of_ends sound addressed False.elim ends
    exact ⟨stop, stops⟩
  · intro operation outcome stop after key addressed ends stops anonymous stays i small
    have performed := Operation.performed_of_stops sound addressed False.elim ends stops
    exact performed.logical sound (View.anonymous_iff.mp anonymous) stays (.inl rfl) small
  · intro id start length read after live returned
    obtain ⟨-, size, reads⟩ := (Machine.readUser_spec sound live).returned returned
    exact ⟨size, fun j small anonymous => known reads (size ▸ small) anonymous⟩
  · intro id address length read after live returned j small anonymous
    obtain ⟨-, reads⟩ := (Machine.userLoad_spec sound live).returned returned
    exact known reads small anonymous

/-- A byte is stored in a page, which leaves its frame for a slot. There it still holds the byte, and
a read brings it back. -/
theorem anonymous_transparent_through_swap : ∃ (device : Device) (first now after : Traced Machine)
    (memory : Memory), Machine.start ⟨2⟩ device {} = .ok first ∧ Recorded first now memory ∧
      Transparent now memory ∧ now.state.view.record (1, 4096) = some ⟨.inSwap 0, false⟩ ∧
      now.state.view.logical (1, 4096) 4 = some 7 ∧
      Machine.readUser 1 4100 1 now = .ok [7] after ∧
      (after.state.view.record (1, 4096)).map (·.residence) = some (.inFrame 1 none) := by
  let begun : List Operation := [.createSpace none {}, .addZeros 1 0, .addZeros 1 4096,
    .addZeros 1 8192, .faultIn 1 0]
  let store : Operation := .userStore 1 4100 [7]
  let leave : Operation := .resolveFault 1 8192
  have ends : (Operation.trial 2 2 {} begun).bind (fun ends =>
      (Operation.performAll [store] ends.2).bind fun middle =>
        (Operation.performAll [leave] middle).map fun now =>
          ((ends.2.state.view.record (1, 4096)).isNone,
            (middle.state.view.record (1, 4096)).isNone, now.state.view.record (1, 4096),
            now.state.view.live 1,
            match Machine.readUser 1 4100 1 now with
            | .ok _ after => (after.state.view.record (1, 4096)).map (·.residence)
            | .error _ _ => none)) =
      some (false, false, some ⟨.inSwap 0, false⟩, true, some (.inFrame 1 none)) := by
    decide +kernel
  simp only [Option.bind_eq_some_iff, Option.map_eq_some_iff, Prod.exists, Prod.mk.injEq] at ends
  obtain ⟨first, before, tried, middle, stored, now, left, present, still, swapped, live, back⟩ :=
    ends
  obtain ⟨⟨device, -, started⟩, did⟩ := Operation.trial_ok tried
  have quiet : ∀ operation ∈ begun, operation.writes = false := by simp [begun, Operation.writes]
  obtain ⟨memory, earlier⟩ : ∃ memory, Recorded first before memory := by
    refine Operation.performAll_keeps (motive := fun now => ∃ memory, Recorded first now memory)
      did ⟨_, .start⟩ ?_
    rintro operation member before after ⟨memory, recorded⟩ addressed ends
    exact ⟨_, .next recorded addressed ends (Operation.stops_of_quiet (quiet operation member) 0)⟩
  obtain ⟨addressed, ends⟩ := Operation.performAll_single stored
  obtain ⟨addressed', ends'⟩ := Operation.performAll_single left
  have recorded := Recorded.next (earlier.next addressed ends Operation.stops_of_byte) addressed' ends'
    (Operation.stops_of_quiet rfl 0)
  have noted : leave.noted middle.state (store.noted before.state memory 4101) 0 (1, 4096) 4 =
      some 7 := by
    obtain ⟨old, was⟩ := earlier.exists_byte (1, 4096) 4
    simp [Operation.noted, present, still, store, leave, Operation.stored, Memory.store, was]
  have anonymous : now.state.view.Anonymous (1, 4096) := ⟨_, swapped, rfl⟩
  have transparent := anonymous_transparent started recorded
  have holds : now.state.view.logical (1, 4096) 4 = some 7 := by
    rw [transparent.holds anonymous 4 (by decide), noted]
  cases returned : Machine.readUser 1 4100 1 now with
  | error stop after => simp [returned] at back
  | ok read after =>
      obtain ⟨size, bytes⟩ := transparent.read live returned
      obtain ⟨byte, rfl⟩ := List.length_eq_one_iff.mp size
      have known : ([byte] : Bytes)[0]? = some 7 := (bytes 0 Nat.one_pos anonymous).trans noted
      rw [returned] at back
      cases known
      exact ⟨device, first, now, after, _, started, recorded, transparent, swapped, holds, returned,
        back⟩

end DemandPaging
