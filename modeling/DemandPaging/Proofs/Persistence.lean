import DemandPaging.Proofs.Contents
import DemandPaging.Proofs.Run
import DemandPaging.Proofs.View.Saved

/-!
# Mapped files lose no write

As long as no byte of a file is in two pages, and only the machine clears dirty bits, a file page
holds what was stored in it, wherever it is and whatever fails (`mapped_files_persistent`). A page
that comes from its file is zero past its window, and when unmapping succeeds, what the pages held
is in their files.
-/

namespace DemandPaging

def Storage.Apart (storage : Storage) : Prop :=
  ∀ {number other device start length start' length' : Nat}, number ≠ other →
    storage.files[number]? = some (.extent device start length) →
    storage.files[other]? = some (.extent device start' length') →
    sectorSize * start + length ≤ sectorSize * start' ∨
      sectorSize * start' + length' ≤ sectorSize * start

theorem Storage.apart_of_flat {length : Nat} {row : Sectors} :
    Storage.Apart { files := #[.flat length row] } := by
  intro number other device start length start' length' distinct found found'
  obtain ⟨inside, extent⟩ := Array.getElem?_eq_some_iff.mp found
  obtain rfl : number = 0 := Nat.lt_one_iff.mp inside
  cases extent

theorem Machine.disjoint_of_apart {machine : Machine} (apart : machine.store.storage.Apart) :
    machine.view.Disjoint := by
  intro file other layout place distinct found found' shared
  simp only [view, Storage.layout, Option.map_eq_some_iff] at found found'
  obtain ⟨first, there, rfl⟩ := found
  obtain ⟨second, there', rfl⟩ := found'
  cases first with
  | flat =>
      cases second with
      | flat =>
          cases shared
          exact absurd rfl distinct
      | extent => cases shared
  | extent device start length =>
      cases second with
      | flat => cases shared
      | extent device' start' length' =>
          cases shared
          exact ⟨⟨device, rfl⟩, apart distinct there there'⟩

/-! ## Past the window -/

namespace View

variable {strict : Prop} {view : View} {key : Nat × Nat} {window : FileWindow}

def Tailed (view : View) (key : Nat × Nat) (window : FileWindow) : Prop :=
  (∃ dirty, view.record key = some ⟨.inFile window, dirty⟩) ∨
    ∃ frame, view.Holds key frame (some window) ∧
      ∀ i, window.length ≤ i → i < pageSize → (view.contents frame)[i]? = some 0

theorem backed_le (window : FileWindow) : view.backed window ≤ window.length := by
  unfold backed
  cases view.layout window.file with
  | none => exact Nat.zero_le _
  | some layout =>
      simp only [Option.elim_some, Storage.available]
      omega

theorem windowPage_past (view : View) {i : Nat} (past : window.length ≤ i) (small : i < pageSize) :
    (view.windowPage window)[i]? = some 0 := by
  have short : i < 4096 := small
  have outside : ¬ i < view.backed window := by
    have := view.backed_le window
    omega
  rw [Vector.getElem?_eq_getElem short]
  simp only [windowPage, Vector.getElem_ofFn, outside, if_false]

theorem Tailed.backing (tailed : view.Tailed key window) :
    view.backing key = some (some window) := by
  rcases tailed with ⟨dirty, outside⟩ | ⟨frame, holds, -⟩
  · exact backing_of_record outside
  · exact holds.backing

theorem Tailed.after (tailed : view.Tailed key window) (consistent : view.Consistent) {step : Step}
    (paging : step.Paging) (permitted : view.Permits strict step) :
    (view.after step).Tailed key window := by
  -- Most steps change neither where the page is nor what its frame holds.
  have kept {later : View} (record : later.record key = view.record key)
      (contents : ∀ frame, view.Holds key frame (some window) →
        later.contents frame = view.contents frame) : later.Tailed key window := by
    rcases tailed with ⟨dirty, outside⟩ | ⟨frame, holds, zero⟩
    · exact .inl ⟨dirty, record.trans outside⟩
    · obtain ⟨dirty, found⟩ := holds.recorded
      exact .inr ⟨frame, ⟨dirty, record.trans found⟩, contents frame holds ▸ zero⟩
  cases step with
  | scribble free page =>
      exact kept rfl fun frame holds =>
        Function.update_of_ne (consistent.frame_ne holds permitted) ..
  | litter | flush | pin | unpin => exact kept rfl fun _ _ => rfl
  | soil other =>
      by_cases same : key = other
      · subst same
        obtain ⟨place, lies, ⟨noted, resident⟩, -⟩ := permitted
        rcases tailed with ⟨dirty, outside⟩ | ⟨frame, ⟨dirty, found⟩, zero⟩
        · rw [outside] at resident
          cases resident
        · exact .inr ⟨frame, ⟨true, by simp [View.after, put, found]⟩, zero⟩
      · exact kept (Function.update_of_ne same ..) fun _ _ => rfl
  | swapOut other place slot =>
      by_cases same : key = other
      · subst same
        have anonymous := permitted.1.backing
        rw [tailed.backing] at anonymous
        cases anonymous
      · exact kept (Function.update_of_ne same ..) fun _ _ => rfl
  | fileOut other place lies =>
      by_cases same : key = other
      · subst same
        have window := permitted.1.backing
        rw [tailed.backing] at window
        cases window
        exact .inl ⟨false, Function.update_self ..⟩
      · exact kept (Function.update_of_ne same ..) fun _ _ => rfl
  | bringIn other place residence =>
      have records := view.record_after_bringIn other place residence
      have contents := view.contents_after_bringIn other place residence
      obtain ⟨⟨noted, from'⟩, away, free⟩ := permitted
      by_cases same : key = other
      · subst same
        rcases tailed with ⟨dirty, outside⟩ | ⟨frame, ⟨dirty, found⟩, zero⟩
        · rw [outside] at from'
          cases from'
          -- What is loaded has zeros past the window, and this is where the tail comes from.
          refine .inr ⟨place, ⟨false, ?_⟩, fun i past small => ?_⟩
          · rw [records, Function.update_self]
            rfl
          · rw [contents, Function.update_self]
            exact view.windowPage_past past small
        · rw [found] at from'
          cases from'
          cases away
      · apply kept (by rw [records, Function.update_of_ne same])
        intro frame holds
        rw [contents, Function.update_of_ne (consistent.frame_ne holds free)]
  | _ => exact paging.elim

end View

theorem Path.tailed {strict : Prop} {first last : View} {steps : List Step} {key : Nat × Nat}
    {window : FileWindow} (path : Path strict first steps last)
    (paging : ∀ step ∈ steps, step.Paging) (consistent : first.Consistent)
    (tailed : first.Tailed key window) : last.Tailed key window := by
  induction path with
  | nil => exact tailed
  | cons permitted later ih =>
      obtain ⟨here, there⟩ := List.forall_mem_cons.mp paging
      exact ih there (consistent.after permitted) (tailed.after consistent here permitted)

theorem Machine.Reads.tailed {strict : Prop} {before : Machine} {id start : Nat} {read : Bytes}
    (reads : before.Reads strict id start read) (sound : before.Sound strict) {j : Nat}
    (small : j < read.length) {window : FileWindow}
    (tailed : before.view.Tailed (id, pageOf (start + j)) window)
    (past : window.length ≤ pageOffset (start + j)) : read[j]? = some 0 := by
  obtain ⟨middle, frame, lies, ⟨steps, ⟨path, -⟩, paging⟩, holds, same⟩ := reads j small
  have later := path.tailed paging sound.consistent tailed
  obtain ⟨noted, found⟩ := holds.recorded
  rcases later with ⟨dirty, outside⟩ | ⟨place, ⟨dirty, inside⟩, zero⟩
  · rw [found] at outside
    cases outside
  · rw [found] at inside
    cases inside
    rw [same]
    exact zero _ past (pageOffset_lt _)

/-! ## Runs -/

/-- Windows come from mapping files and share no bytes, and dirty bits are not cleared. -/
def Operation.Keeps (before : Machine) (operation : Operation) (after : Machine) : Prop :=
  operation.Addressed before ∧ operation.Mapped ∧ operation.Honest ∧ after.view.Unshared

def Operation.unmaps : Operation → Bool
  | unmapFile _ _ | unmapRange _ _ _ => true
  | _ => false

theorem Operation.Takes.lossless {operation : Operation} {before : Machine}
    (unmaps : operation.unmaps = true) {step : Step} (takes : operation.Takes before (.ok ()) step) :
    step.Lossless := by
  have lossless {id : Nat} {drops : Nat → Prop}
      (takes : step.Unmaps id drops ((.ok () : Except PagingError Unit) = .ok ())) :
      step.Lossless := by
    cases step with
    | drop => exact takes.2.2 rfl
    | soil | flush | forget => trivial
    | _ => exact takes.elim
  cases operation with
  | unmapFile | unmapRange => exact lossless takes
  | _ => cases unmaps

variable {first now : Traced Machine}

theorem Run.careful (run : Run (fun before operation after => operation.Keeps before after) first now)
    (sound : first.state.Sound True) (careful : first.state.view.Careful) :
    now.state.Sound True ∧ now.state.view.Careful := by
  induction run with
  | start => exact ⟨sound, careful⟩
  | next earlier keeps ends ih =>
      obtain ⟨soundBefore, carefulBefore⟩ := ih
      obtain ⟨addressed, mapped, honest, unshared⟩ := keeps
      obtain ⟨stop, -, performed⟩ :=
        Operation.concludes_of_ends soundBefore addressed (fun _ => mapped) ends
      obtain ⟨steps, moves, -⟩ := id performed
      exact ⟨soundBefore.moves moves,
        performed.careful trivial soundBefore carefulBefore honest unshared⟩

theorem Machine.start_careful {settings : Settings} {device : Device} {storage : Storage}
    (started : Machine.start settings device storage = .ok first) (formed : storage.Formed)
    (apart : storage.Apart) : first.state.view.Careful := by
  have sound : first.state.Sound True := start_sound started fun _ => formed
  have blank := start_blank started
  refine ⟨sound.backed trivial, ?_, ?_, ?_⟩
  · rintro key frame window ⟨dirty, found⟩
    simp [blank.record] at found
  · apply disjoint_of_apart
    rw [(start_ok started).2]
    exact apart
  · intro key other window lies distinct found
    simp [View.backing, blank.record] at found

/-- What holds of file pages at some point of a run. -/
structure Persistent (now : Traced Machine) : Prop where
  inFile : ∀ {key : Nat × Nat} {window : FileWindow} {dirty : Bool},
    now.state.view.record key = some ⟨.inFile window, dirty⟩ → ∀ i < window.length,
    now.state.view.logical key i = some (now.state.view.fileByte window.file (window.offset + i))
  /-- However an operation ends, it stops to store bytes at some address. -/
  stops : ∀ {operation : Operation} {outcome : Except PagingError Unit} {after : Traced Machine},
    operation.Keeps now.state after.state → operation.Ends now outcome after →
    ∃ stop, operation.Stops now outcome stop after
  /-- A page that stays holds what it held before, with the bytes up to there over it. -/
  kept : ∀ {operation : Operation} {outcome : Except PagingError Unit} {stop : Nat}
    {after : Traced Machine} {key : Nat × Nat} {window : FileWindow},
    operation.Keeps now.state after.state → operation.Ends now outcome after →
    operation.Stops now outcome stop after → now.state.view.backing key = some (some window) →
    after.state.view.record key ≠ none → ∀ i < window.length,
    after.state.view.logical key i = operation.stored now.state.view.logical stop key i
  /-- If unmapping succeeds, what the pages held is in their files. -/
  saved : ∀ {operation : Operation} {after : Traced Machine} {key : Nat × Nat}
    {window : FileWindow}, operation.Keeps now.state after.state → operation.unmaps = true →
    operation.Ends now (.ok ()) after → now.state.view.backing key = some (some window) →
    after.state.view.record key = none → ∀ i < window.length,
    now.state.view.logical key i = some (after.state.view.fileByte window.file (window.offset + i))
  /-- What is read is what pages hold, and zero past the window of a page that was in its file. -/
  read : ∀ {id start length : Nat} {read : Bytes} {after : Traced Machine},
    now.state.view.live id = true → Machine.readUser id start length now = .ok read after →
    read.length = length ∧ ∀ j < length, ∀ window,
      now.state.view.backing (id, pageOf (start + j)) = some (some window) →
      (pageOffset (start + j) < window.length → read[j]? =
        now.state.view.logical (id, pageOf (start + j)) (pageOffset (start + j))) ∧
      ∀ dirty, now.state.view.record (id, pageOf (start + j)) = some ⟨.inFile window, dirty⟩ →
        window.length ≤ pageOffset (start + j) → read[j]? = some 0
  /-- A page that was in its file is zero past its window when it has been faulted in. -/
  fresh : ∀ {id address frame : Nat} {after : Traced Machine} {window : FileWindow} {dirty : Bool},
    now.state.view.live id = true → Machine.faultIn id address now = .ok frame after →
    now.state.view.record (id, pageOf address) = some ⟨.inFile window, dirty⟩ →
    after.state.view.Holds (id, pageOf address) frame (some window) ∧
      ∀ i, window.length ≤ i → i < pageSize → (after.state.view.contents frame)[i]? = some 0
  resolved : ∀ {id address : Nat} {after : Traced Machine} {window : FileWindow} {dirty : Bool},
    now.state.view.live id = true → Machine.resolveFault id address now = .ok () after →
    now.state.view.record (id, pageOf address) = some ⟨.inFile window, dirty⟩ →
    ∃ frame, after.state.view.Holds (id, pageOf address) frame (some window) ∧
      ∀ i, window.length ≤ i → i < pageSize → (after.state.view.contents frame)[i]? = some 0

theorem Machine.FaultedIn.zero {before after : Machine} {key : Nat × Nat} {frame more : Nat}
    (faulted : before.FaultedIn True key frame more after) {window : FileWindow} {dirty : Bool}
    (outside : before.view.record key = some ⟨.inFile window, dirty⟩) :
    after.view.Holds key frame (some window) ∧
      ∀ i, window.length ≤ i → i < pageSize → (after.view.contents frame)[i]? = some 0 := by
  obtain ⟨⟨steps, ⟨path, -⟩, paging⟩, ⟨lies, holds⟩, fresh, -⟩ := faulted
  refine ⟨?_, fun i past small => ?_⟩
  · have before : _ = some lies :=
      path.backing_before (fun step member => (paging step member).keeps.1) holds.backing
    simp only [View.backing, outside, Residence.window?, Option.map_some, Option.some.injEq] at before
    exact before ▸ holds
  · rw [fresh window dirty outside]
    exact View.windowPage_past _ past small

/-! ## A run that keeps to the conditions -/

def Machine.Ascending (machine : Machine) : Prop :=
  machine.records.Pairwise fun entry other =>
    ∀ window ∈ entry.2.residence.window?, ∀ lies ∈ other.2.residence.window?,
      window.offset + window.length ≤ lies.offset

instance (machine : Machine) : Decidable machine.Ascending :=
  inferInstanceAs (Decidable (List.Pairwise _ _))

theorem Machine.unshared_of_ascending {machine : Machine} (ascending : machine.Ascending) :
    machine.view.Unshared := by
  let apart (entry other : (Nat × Nat) × PageRecord) : Prop :=
    ∀ window ∈ entry.2.residence.window?, ∀ lies ∈ other.2.residence.window?, window.Apart lies
  have symmetric : Std.Symm apart :=
    ⟨fun entry other apart window member lies member' same i small j small' =>
      (apart lies member' window member same.symm j small' i small).symm⟩
  have pairwise : machine.records.Pairwise apart := by
    refine List.Pairwise.imp ?_ ascending
    intro entry other ordered window member lies member' same i small j small'
    have := ordered window member lies member'
    omega
  intro key other window lies distinct found found'
  obtain ⟨record, recorded, behind⟩ := Option.map_eq_some_iff.mp found
  obtain ⟨record', recorded', behind'⟩ := Option.map_eq_some_iff.mp found'
  exact pairwise.forall (mem_records.mpr recorded) (mem_records.mpr recorded')
    (fun same => distinct (Prod.mk.inj same).1) window behind lies behind'

/-- Pages come to share bytes of a file only if pages are added. -/
theorem Operation.unshared_of_ends {operation : Operation} {outcome : Except PagingError Unit}
    {before after : Traced Machine} (sound : before.state.Sound True)
    (addressed : operation.Addressed before.state) (mapped : operation.Mapped)
    (adds : ∀ step, operation.Takes before.state outcome step → step.AddsNone)
    (ends : operation.Ends before outcome after) (unshared : before.state.view.Unshared) :
    after.state.view.Unshared := by
  obtain ⟨stop, -, steps, ⟨path, -⟩, takes, -⟩ :=
    Operation.concludes_of_ends sound addressed (fun _ => mapped) ends
  have addsNone (step : Step) (member : step ∈ steps) := adds step (takes step member)
  exact fun key other window lies distinct found found' =>
    unshared distinct (path.backing_before addsNone found) (path.backing_before addsNone found')

theorem Run.keeps_of_performAll {settings : Settings} {device : Device} {storage : Storage}
    {before after : Traced Machine} {operation : Operation}
    (started : Machine.start settings device storage = .ok first) (formed : storage.Formed)
    (apart : storage.Apart)
    (run : Run (fun before operation after => operation.Keeps before after) first before)
    (done : Operation.performAll [operation] before = some after) (mapped : operation.Mapped)
    (honest : operation.Honest)
    (adds : ∀ step, operation.Takes before.state (.ok ()) step → step.AddsNone) :
    operation.Keeps before.state after.state ∧ operation.Ends before (.ok ()) after := by
  obtain ⟨addressed, ends⟩ := Operation.performAll_single done
  obtain ⟨sound, careful⟩ := run.careful (Machine.start_sound started fun _ => formed)
    (Machine.start_careful started formed apart)
  exact ⟨⟨addressed, mapped, honest,
    Operation.unshared_of_ends sound addressed mapped adds ends careful.unshared⟩, ends⟩

theorem Persistent.stored_byte {after : Traced Machine} (persistent : Persistent now)
    {id address : Nat} {byte : UInt8} {window : FileWindow} {dirty : Bool}
    (keeps : (Operation.userStore id address [byte]).Keeps now.state after.state)
    (ends : (Operation.userStore id address [byte]).Ends now (.ok ()) after)
    (outside : now.state.view.record (id, pageOf address) = some ⟨.inFile window, dirty⟩)
    (stays : after.state.view.record (id, pageOf address) ≠ none)
    (small : pageOffset address < window.length) :
    after.state.view.logical (id, pageOf address) (pageOffset address) = some byte := by
  rw [persistent.kept keeps ends Operation.stops_of_byte (View.backing_of_record outside) stays _
    small]
  simp [Operation.stored, Memory.store, pageOf_add_offset, persistent.inFile outside _ small]

/-! ## All that is kept -/

/-- Mapped files lose no write, whatever is done and fails. -/
theorem mapped_files_persistent {settings : Settings} {device : Device} {storage : Storage}
    (started : Machine.start settings device storage = .ok first) (formed : storage.Formed)
    (apart : storage.Apart)
    (run : Run (fun before operation after => operation.Keeps before after) first now) :
    Persistent now := by
  obtain ⟨sound, careful⟩ := run.careful (Machine.start_sound started fun _ => formed)
    (Machine.start_careful started formed apart)
  constructor
  · intro key window dirty outside i small
    have backing : now.state.view.backing key = some (some window) :=
      View.backing_of_record outside
    rw [View.logical_eq outside, if_pos (show i < Residence.kept (.inFile window) from small)]
    exact View.getElem?_windowPage (careful.backed backing) small
  · intro operation outcome after keeps ends
    obtain ⟨stop, stops, -⟩ :=
      Operation.concludes_of_ends sound keeps.1 (fun _ => keeps.2.1) ends
    exact ⟨stop, stops⟩
  · intro operation outcome stop after key window keeps ends stops backing stays i small
    obtain ⟨addressed, mapped, honest, unshared⟩ := keeps
    have performed := Operation.performed_of_stops sound addressed (fun _ => mapped) ends stops
    exact performed.logical sound backing stays (.inr ⟨trivial, careful, honest, unshared⟩)
      (Nat.lt_of_lt_of_le small window.short)
  · intro operation after key window keeps unmaps ends backing gone i small
    obtain ⟨stop, -, steps, ⟨path, -⟩, takes, -⟩ :=
      Operation.concludes_of_ends sound keeps.1 (fun _ => keeps.2.1) ends
    exact path.saved trivial (fun step member => (takes step member).lossless unmaps)
      sound.consistent careful backing gone small
  · intro id start length read after live returned
    obtain ⟨-, size, reads⟩ := (Machine.readUser_spec sound live).returned returned
    refine ⟨size, fun j small window backing => ⟨fun within => ?_, fun dirty outside past => ?_⟩⟩
    · obtain ⟨backing', found, known⟩ := reads.logical sound (size ▸ small)
      rw [backing, Option.some.injEq] at found
      subst found
      exact known (.inr ⟨trivial, careful⟩) within
    · exact reads.tailed sound (size ▸ small) (.inl ⟨dirty, outside⟩) past
  · intro id address frame after window dirty live returned outside
    obtain ⟨-, faulted⟩ := (Machine.faultIn_spec sound live).returned returned
    exact faulted.zero outside
  · intro id address after window dirty live returned outside
    obtain ⟨-, frame, faulted⟩ := (Machine.resolveFault_spec sound live).returned returned
    exact ⟨frame, faulted.zero outside⟩

/-- Bytes are stored in two pages of a mapping, one of which is evicted. When both are unmapped, the
file holds the bytes. -/
theorem mapped_files_persistent_through_unmapping : ∃ (device : Device) (storage : Storage)
    (first now after : Traced Machine), Machine.start ⟨2⟩ device storage = .ok first ∧
      Run (fun before operation after => operation.Keeps before after) first now ∧
      Persistent now ∧ now.state.view.frameOf (1, 8192) = none ∧
      now.state.view.frameOf (1, 12288) = some 1 ∧
      (Operation.unmapRange 1 8192 8192).Ends now (.ok ()) after ∧
      after.state.view.fileByte 0 4101 = 7 ∧ after.state.view.fileByte 0 8192 = 9 := by
  let storage : Storage := { files := #[.flat 12288 {}] }
  let store : Operation := .userStore 1 8197 [7]
  let store' : Operation := .userStore 1 12288 [9]
  let unmap : Operation := .unmapRange 1 8192 8192
  let window : FileWindow := ⟨0, 4096, 4096, by decide⟩
  let window' : FileWindow := ⟨0, 8192, 4096, by decide⟩
  have ends : (Operation.trial 2 1 storage [.createSpace none {}]).bind (fun ends =>
      (Operation.performAll [.mapFile 1 4096 0 0 12288] ends.2).bind fun mapped =>
      (Operation.performAll [.faultIn 1 4096] mapped).bind fun pinned =>
      (Operation.performAll [store] pinned).bind fun stored =>
      (Operation.performAll [store'] stored).bind fun now =>
      (Operation.performAll [unmap] now).map fun after =>
        decide (mapped.state.Ascending ∧
          pinned.state.view.record (1, 8192) = some ⟨.inFile window, false⟩ ∧
          stored.state.view.record (1, 8192) = some ⟨.inFrame 1 (some window), false⟩ ∧
          stored.state.view.record (1, 12288) = some ⟨.inFile window', false⟩ ∧
          now.state.view.record (1, 8192) = some ⟨.inFile window, false⟩ ∧
          now.state.view.record (1, 12288) = some ⟨.inFrame 1 (some window'), false⟩ ∧
          after.state.view.record (1, 8192) = none ∧
          after.state.view.record (1, 12288) = none)) = some true := by
    decide +kernel
  simp only [Option.bind_eq_some_iff, Option.map_eq_some_iff, Prod.exists, decide_eq_true_eq] at ends
  obtain ⟨first, created, tried, mapped, maps, pinned, pins, stored, stores, now, stores', after,
    unmaps, ascending, outside, written, outside', evicted, resident, gone, gone'⟩ := ends
  obtain ⟨⟨device, -, started⟩, did⟩ := Operation.trial_ok tried
  have formed : storage.Formed := Storage.formed_of_flat (by decide)
  have apart : storage.Apart := Storage.apart_of_flat
  let Kept (now : Traced Machine) : Prop :=
    Run (fun before operation after => operation.Keeps before after) first now
  have next {operation : Operation} {before after : Traced Machine} (run : Kept before)
      (done : Operation.performAll [operation] before = some after) (mapped : operation.Mapped)
      (honest : operation.Honest)
      (adds : ∀ step, operation.Takes before.state (.ok ()) step → step.AddsNone) :
      operation.Keeps before.state after.state ∧ operation.Ends before (.ok ()) after :=
    Run.keeps_of_performAll started formed apart run done mapped honest adds
  have runMapped : Kept mapped := by
    obtain ⟨keeps, ends⟩ := next .start did trivial trivial fun step ⟨id, same⟩ => same ▸ trivial
    obtain ⟨addressed, ends'⟩ := Operation.performAll_single maps
    exact .next (.next .start keeps ends)
      ⟨addressed, trivial, trivial, Machine.unshared_of_ascending ascending⟩ ends'
  obtain ⟨keepsPin, endsPin⟩ := next runMapped pins trivial trivial fun _ paging =>
    (Step.Paging.keeps paging).1
  have runPinned : Kept pinned := .next runMapped keepsPin endsPin
  obtain ⟨keepsStore, endsStore⟩ := next runPinned stores trivial trivial fun _ copies =>
    (Step.Copies.keeps copies).1
  have runStored : Kept stored := .next runPinned keepsStore endsStore
  obtain ⟨keepsStore', endsStore'⟩ := next runStored stores' trivial trivial fun _ copies =>
    (Step.Copies.keeps copies).1
  have runNow : Kept now := .next runStored keepsStore' endsStore'
  obtain ⟨keepsUnmap, endsUnmap⟩ := next runNow unmaps trivial trivial fun _ unmaps =>
    (Step.Unmaps.keeps unmaps).1
  have early := mapped_files_persistent started formed apart runPinned
  have late := mapped_files_persistent started formed apart runStored
  have persistent := mapped_files_persistent started formed apart runNow
  -- The first byte stays in its page when the second one is stored in another.
  have holds : now.state.view.logical (1, 8192) 5 = some 7 := by
    rw [late.kept keepsStore' endsStore' Operation.stops_of_byte (View.backing_of_record written)
      (by simp [evicted]) 5 (by decide)]
    simp only [store', Operation.stored, Memory.store]
    rw [if_neg (by decide)]
    exact early.stored_byte keepsStore endsStore outside
      (fun absent => Option.some_ne_none _ (written.symm.trans absent)) (by decide)
  have holds' : now.state.view.logical (1, 12288) 0 = some 9 :=
    late.stored_byte keepsStore' endsStore' outside'
      (fun absent => Option.some_ne_none _ (resident.symm.trans absent)) (by decide)
  have saved := persistent.saved keepsUnmap rfl endsUnmap (View.backing_of_record evicted) gone 5
    (by decide)
  have saved' := persistent.saved keepsUnmap rfl endsUnmap (View.backing_of_record resident) gone' 0
    (by decide)
  rw [holds] at saved
  rw [holds'] at saved'
  exact ⟨device, storage, first, now, after, started, runNow, persistent,
    by simp [View.frameOf, evicted, Residence.frame?], by simp [View.frameOf, resident, Residence.frame?],
    endsUnmap, (Option.some.inj saved).symm, (Option.some.inj saved').symm⟩

end DemandPaging
