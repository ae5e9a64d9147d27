import DemandPaging.Proofs.Chronicle

/-!
# Files are written to only as they must be

A file that is reached only by mapping it keeps its length. It is written to only when one of its
pages is evicted or dropped that has been written to since it was last brought in, and the write is
that of the page's window; all other bytes stay, and without writes to its pages so does the whole
file (`mapped_file_written_back`).
-/

namespace DemandPaging

variable {rule : Machine → Operation → Machine → Prop} {first now : Traced Machine}
  {start last : Machine} {operation : Operation} {step : Step} {parts : List Part}
  {file position : Nat}

namespace Operation

def OnlyMaps (operation : Operation) (file : Nat) : Prop :=
  match operation with
  | addWindow _ _ other _ _ => other ≠ file
  | _ => True

/-- The operation copies nothing into the pages of the file, and sets no dirty bit of theirs. -/
def Refrains (operation : Operation) (file : Nat) (before : Machine) : Prop :=
  ∀ key window, operation.Writes key → before.view.backing key = some (some window) →
    window.file ≠ file

theorem Does.request? (does : operation.Does start step) : step.request? = none := by
  cases step with
  | flush => exact (does trivial).elim
  | _ => rfl

theorem Does.lodges (does : operation.Does start step) (maps : operation.OnlyMaps file) :
    step.Lodges start.view file := by
  cases step with
  | install key residence =>
      rintro window rfl onto
      obtain ⟨-, adds⟩ := does trivial
      cases operation with
      | addZeros => cases adds.2
      | addWindow id page other offset length =>
          obtain ⟨-, made, formed, same⟩ := adds
          cases same
          unfold FileWindow.make at formed
          split at formed
          · cases formed
            exact absurd onto maps
          · cases formed
      | mapFile =>
          obtain ⟨layout, i, there, -, -, same⟩ := adds
          cases same
          exact Machine.fits_windowAt there
      | _ => exact adds.elim
  | _ => trivial

theorem Does.writes (does : operation.Does start step) {key : Nat × Nat}
    (marks : step.Marks key) : operation.Writes key := by
  cases step with
  | kernelWrite | userWrite =>
      cases marks
      exact does trivial
  | stain =>
      obtain ⟨set, rfl⟩ := marks
      exact does trivial set
  | _ => exact marks.elim

theorem Does.addsNone (does : operation.Does start step) {key : Nat × Nat}
    (writes : operation.Writes key) : step.AddsNone := by
  cases step with
  | install =>
      obtain ⟨-, adds⟩ := does trivial
      cases operation with
      | addZeros | addWindow | mapFile => exact writes.elim
      | _ => exact adds.elim
  | _ => trivial

end Operation

theorem Step.Departs.lodges {view : View} (departs : step.Departs) : step.Lodges view file := by
  cases step with
  | install => exact departs.elim
  | _ => trivial

theorem Step.Departs.addsNone (departs : step.Departs) : step.AddsNone := by
  cases step with
  | install => exact departs.elim
  | _ => trivial

theorem Step.Departs.not_marks (departs : step.Departs) (key : Nat × Nat) : ¬ step.Marks key := by
  cases step with
  | kernelWrite | userWrite | stain => exact departs.elim
  | _ => exact id

def View.Clean (view : View) (file : Nat) : Prop :=
  ∀ ⦃key frame window⦄, view.Holds key frame (some window) → view.modified key frame = true →
    window.file ≠ file

theorem View.exists_holds_of_writeBack? {view : View} {key : Nat × Nat} {request : WriteRequest}
    (asked : view.writeBack? key = some request) : ∃ frame window,
      view.Holds key frame (some window) ∧ request = ⟨window.file, window.offset, window.length⟩ ∧
        0 < window.length ∧ view.modified key frame = true := by
  unfold View.writeBack? at asked
  split at asked
  · rename_i frame window dirty recorded
    split at asked
    · rename_i calls
      cases asked
      exact ⟨frame, window, ⟨dirty, recorded⟩, rfl, calls⟩
    · cases asked
  · cases asked

/-! ## The course of an operation -/

namespace Course

variable (course : Course (operation.Does start) start parts last) (sound : start.Sound False)
include course sound

theorem snug (maps : operation.OnlyMaps file) (snug : start.view.Snug file) :
    last.view.Snug file ∧ last.view.layout file = start.view.layout file := by
  obtain ⟨steps, ⟨path, -⟩, kinds⟩ := course.through sound
  exact path.snug snug fun step member => (kinds step member).elim (·.lodges maps) (·.lodges)

theorem fileByte (maps : operation.OnlyMaps file) (snug : start.view.Snug file)
    (alone : start.view.Alone file) {layout : Layout}
    (found : start.view.layout file = some layout) (inside : position < layout.length)
    (outside : ∀ request ∈ parts.filterMap Part.write?, ¬ request.Covers file position) :
    last.view.fileByte file position = start.view.fileByte file position := by
  obtain ⟨steps, ⟨path, -⟩, kinds⟩ := course.through sound
  have asked : (steps.filterMap Step.request?).reverse = parts.filterMap Part.write? := by
    have told := course.journal sound fun step does => does.request?
    rw [path.journal] at told
    exact List.append_cancel_right told
  refine path.fileByte_of_outside snug
    (fun step member => (kinds step member).elim (·.lodges maps) (·.lodges)) alone found inside ?_
  intro request member
  exact outside request (asked ▸ List.mem_reverse.mpr member)

theorem alone (alone : start.view.Alone file) : last.view.Alone file := by
  obtain ⟨steps, ⟨path, -⟩, -⟩ := course.through sound
  exact path.alone alone

theorem clean (refrains : operation.Refrains file start) (clean : start.view.Clean file) :
    last.view.Clean file := by
  obtain ⟨steps, ⟨path, -⟩, kinds⟩ := course.through sound
  -- The pages that are written to have been there from the start.
  have kept := path.keeps (motive := fun view => view.Consistent ∧
    (∀ key window, operation.Writes key → view.backing key = some (some window) →
      window.file ≠ file) ∧ view.Clean file) kinds ?_ ⟨sound.consistent, refrains, clean⟩
  · exact kept.2.2
  rintro view step kind permitted ⟨consistent, elsewhere, clean⟩
  have before (key : Nat × Nat) (window : FileWindow) (writes : operation.Writes key)
      (found : (view.after step).backing key = some (some window)) : window.file ≠ file :=
    elsewhere key window writes
      (View.backing_before (kind.elim (·.addsNone writes) (·.addsNone)) permitted found)
  refine ⟨consistent.after permitted, before, ?_⟩
  intro key frame window holds modified
  rcases consistent.modified_before permitted holds modified with ⟨resident, was⟩ | marks
  · exact clean resident was
  · rcases kind with does | departs
    · exact before key window (does.writes marks) holds.backing
    · exact absurd marks (departs.not_marks key)

end Course

/-! ## Runs -/

namespace Chronicle

variable (chronicle : Chronicle rule first parts now) (sound : first.state.Sound False)
include chronicle sound

theorem journal : now.state.view.journal =
    parts.filterMap Part.write? ++ first.state.view.journal := by
  induction chronicle with
  | start => rfl
  | next earlier _ _ course ih =>
      rw [course.journal (earlier.sound sound) fun step does => does.request?, ih,
        List.filterMap_append, List.append_assoc]

theorem noted (known : first.state.view.Noted (touched [])) :
    now.state.view.Noted (touched parts) := by
  induction chronicle with
  | start => exact known
  | next earlier _ _ course ih => exact course.noted (earlier.sound sound) ih

theorem snug (maps : ∀ before operation after, rule before operation after →
      operation.OnlyMaps file) (snug : first.state.view.Snug file) :
    now.state.view.Snug file ∧ now.state.view.layout file = first.state.view.layout file := by
  induction chronicle with
  | start => exact ⟨snug, rfl⟩
  | next earlier allowed _ course ih =>
      obtain ⟨snugHere, same⟩ := course.snug (earlier.sound sound) (maps _ _ _ allowed) ih.1
      exact ⟨snugHere, same.trans ih.2⟩

theorem alone (alone : first.state.view.Alone file) : now.state.view.Alone file := by
  induction chronicle with
  | start => exact alone
  | next earlier _ _ course ih => exact course.alone (earlier.sound sound) ih

theorem fileByte (maps : ∀ before operation after, rule before operation after →
      operation.OnlyMaps file) (snug : first.state.view.Snug file)
    (alone : first.state.view.Alone file) {layout : Layout}
    (found : first.state.view.layout file = some layout) (inside : position < layout.length)
    (outside : ∀ request ∈ parts.filterMap Part.write?, ¬ request.Covers file position) :
    now.state.view.fileByte file position = first.state.view.fileByte file position := by
  induction chronicle with
  | start => rfl
  | next earlier allowed _ course ih =>
      rw [List.filterMap_append] at outside
      obtain ⟨recent, old⟩ := List.forall_mem_append.mp outside
      obtain ⟨snugHere, same⟩ := earlier.snug sound maps snug
      rw [course.fileByte (earlier.sound sound) (maps _ _ _ allowed) snugHere
        (earlier.alone sound alone) (same.trans found) inside recent, ih old]

theorem clean (refrains : ∀ before operation after, rule before operation after →
      operation.Refrains file before) (clean : first.state.view.Clean file) :
    now.state.view.Clean file := by
  induction chronicle with
  | start => exact clean
  | next earlier allowed _ course ih =>
      exact course.clean (earlier.sound sound) (refrains _ _ _ allowed) ih

theorem writes (maps : ∀ before operation after, rule before operation after →
      operation.OnlyMaps file) (snug : first.state.view.Snug file)
    (known : first.state.view.Noted (touched [])) {late early : List Part} {key : Nat × Nat}
    {before after : Machine} {request : WriteRequest}
    (told : parts = late ++ .departure key before after :: early)
    (asked : before.view.writeBack? key = some request) (onto : request.file = file) :
    ∃ frame window layout, before.view.Holds key frame (some window) ∧
      request = ⟨window.file, window.offset, window.length⟩ ∧ 0 < window.length ∧
      first.state.view.layout file = some layout ∧
      window.offset + window.length ≤ layout.length ∧ touched early key = true := by
  obtain ⟨frame, window, holds, rfl, positive, modified⟩ := View.exists_holds_of_writeBack? asked
  obtain rfl : window.file = file := onto
  obtain ⟨older, recent, start, operation, last, earlier, rules, course, rfl⟩ :=
    chronicle.before_departure told
  have soundHere := earlier.sound sound
  obtain ⟨snugStart, sameStart⟩ := earlier.snug sound maps snug
  obtain ⟨snugHere, sameHere⟩ := course.snug soundHere (maps _ _ _ rules) snugStart
  have noted := course.noted soundHere (earlier.noted sound known)
  rcases snugHere holds.backing rfl with none | ⟨layout, there, inside⟩
  · omega
  · rw [sameHere, sameStart] at there
    exact ⟨frame, window, layout, holds, rfl, positive, there, inside, noted holds modified⟩

/-- Without writes to its pages, nothing is written to the file. -/
theorem spares (refrains : ∀ before operation after, rule before operation after →
      operation.Refrains file before) (clean : first.state.view.Clean file) :
    ∀ request ∈ parts.filterMap Part.write?, request.file ≠ file := by
  intro request member onto
  obtain ⟨part, listed, asked⟩ := List.mem_filterMap.mp member
  obtain ⟨late, early, told⟩ := List.append_of_mem listed
  cases part with
  | stretch => cases asked
  | departure key before after =>
      obtain ⟨frame, window, holds, rfl, -, modified⟩ := View.exists_holds_of_writeBack? asked
      obtain ⟨older, recent, start, operation, last, earlier, rules, course, rfl⟩ :=
        chronicle.before_departure told
      have cleanHere := course.clean (earlier.sound sound) (refrains _ _ _ rules)
        (earlier.clean sound refrains clean)
      exact cleanHere holds modified onto

end Chronicle

/-- What a run has made of a file. The run is told in parts, the latest first. -/
structure WrittenBack (file : Nat) (first : View) (parts : List Part) (now : View) : Prop where
  layout : now.layout file = first.layout file
  /-- Files are written to only while a page is evicted or dropped. -/
  journal : now.journal = parts.filterMap Part.write? ++ first.journal
  /-- A write to the file is that of the window of the page, which lies in the file; and the page has
  been written to, or marked as dirty, since it was last brought in. -/
  writes : ∀ {late early : List Part} {key : Nat × Nat} {before after : Machine}
    {request : WriteRequest}, parts = late ++ .departure key before after :: early →
    before.view.writeBack? key = some request → request.file = file →
    ∃ frame window layout, before.view.Holds key frame (some window) ∧
      request = ⟨window.file, window.offset, window.length⟩ ∧ 0 < window.length ∧
      first.layout file = some layout ∧ window.offset + window.length ≤ layout.length ∧
      touched early key = true
  /-- Unless other files share them, all other bytes of the file are as they were. -/
  bytes : first.Alone file → ∀ {layout : Layout} {position : Nat},
    first.layout file = some layout → position < layout.length →
    (∀ request ∈ parts.filterMap Part.write?, ¬ request.Covers file position) →
    now.fileByte file position = first.fileByte file position

theorem Machine.alone_of_flat {machine : Machine} {file length : Nat} {row : Sectors}
    (flat : machine.store.storage.files[file]? = some (.flat length row)) :
    machine.view.Alone file := by
  intro other layout place distinct here there shared
  simp only [view, Storage.layout, Option.map_eq_some_iff] at here there
  obtain ⟨_, found, rfl⟩ := here
  obtain ⟨second, -, rfl⟩ := there
  rw [flat] at found
  cases found
  cases second with
  | flat => exact absurd (Bank.file.inj shared) distinct
  | extent => cases shared

/-- A mapped file is written to only as it must be, whatever is done and fails; and not at all if
nothing is written to its pages. -/
theorem mapped_file_written_back {settings : Settings} {device : Device} {storage : Storage}
    (started : Machine.start settings device storage = .ok first) (run : Run rule first now)
    (allowed : ∀ before operation after, rule before operation after →
      operation.Addressed before ∧ operation.OnlyMaps file) :
    ∃ parts, Chronicle rule first parts now ∧
      WrittenBack file first.state.view parts now.state.view ∧
      ((∀ before operation after, rule before operation after → operation.Refrains file before) →
        ∀ request ∈ parts.filterMap Part.write?, request.file ≠ file) := by
  have sound : first.state.Sound False := Machine.start_sound started False.elim
  have blank := Machine.start_blank started
  have empty {key : Nat × Nat} {frame : Nat} {window : Option FileWindow} :
      ¬ first.state.view.Holds key frame window := by
    rintro ⟨dirty, found⟩
    simp [blank.record] at found
  have snug : first.state.view.Snug file := fun key window found => by
    simp [View.backing, blank.record] at found
  have maps before operation after (rules : rule before operation after) :=
    (allowed before operation after rules).2
  obtain ⟨parts, chronicle⟩ := run.exists_chronicle sound fun _ _ _ rules => (allowed _ _ _ rules).1
  refine ⟨parts, chronicle, ⟨(chronicle.snug sound maps snug).2, chronicle.journal sound, ?_, ?_⟩, ?_⟩
  · exact chronicle.writes sound maps snug fun _ _ _ holds => absurd holds empty
  · exact fun alone _ _ => chronicle.fileByte sound maps snug alone
  · exact fun refrains => chronicle.spares sound refrains fun _ _ _ holds => absurd holds empty

/-- A page of one file is written to and evicted, and so is a page of another file that was only
brought in. The first file is written to where the page lies, and nowhere else. -/
theorem mapped_file_written_back_on_eviction : ∃ (device : Device) (first now : Traced Machine)
    (parts others : List Part),
    Machine.start ⟨2⟩ device { files := #[.flat 5000 {}, .flat 100 {}] } = .ok first ∧
      Run (fun before operation _ => operation.Addressed before ∧ operation.OnlyMaps 0 ∧
        operation.OnlyMaps 1 ∧ operation.Refrains 1 before) first now ∧
      WrittenBack 0 first.state.view parts now.state.view ∧
      parts.filterMap Part.write? = [⟨0, 0, 4096⟩] ∧
      now.state.view.fileByte 0 4500 = first.state.view.fileByte 0 4500 ∧
      WrittenBack 1 first.state.view others now.state.view ∧
      (∀ request ∈ others.filterMap Part.write?, request.file ≠ 1) ∧
      now.state.view.frameOf (1, 4096) = none ∧ now.state.view.frameOf (1, 12288) = none := by
  let storage : Storage := { files := #[.flat 5000 {}, .flat 100 {}] }
  let begun : List Operation := [.createSpace none {}, .addZeros 1 0, .mapFile 1 4096 0 0 5000,
    .mapFile 1 12288 1 0 100, .faultIn 1 0]
  let leave : List Operation := [.resolveFault 1 12288, .resolveFault 1 8192]
  have ends : (Operation.trial 2 1 storage begun).bind (fun ends =>
      (Operation.performAll [.userStore 1 4101 [7]] ends.2).bind fun middle =>
        (Operation.performAll leave middle).map fun now =>
          (((ends.2.state.view.record (1, 4096)).bind (·.residence.window?)).map (·.file),
            now.state.view.journal, now.state.view.frameOf (1, 4096),
            now.state.view.frameOf (1, 12288))) =
      some (some 0, [⟨0, 0, 4096⟩], none, none) := by
    decide +kernel
  simp only [Option.bind_eq_some_iff, Option.map_eq_some_iff, Prod.exists, Prod.mk.injEq] at ends
  obtain ⟨first, before, tried, middle, stored, now, left, ⟨window, behind, onto⟩, journal, away,
    away'⟩ := ends
  obtain ⟨⟨device, -, started⟩, did⟩ := Operation.trial_ok tried
  let rule : Machine → Operation → Machine → Prop := fun before operation _ =>
    operation.Addressed before ∧ operation.OnlyMaps 0 ∧ operation.OnlyMaps 1 ∧
      operation.Refrains 1 before
  have quiet {operations : List Operation} (reads : ∀ operation ∈ operations,
      operation.OnlyMaps 0 ∧ operation.OnlyMaps 1 ∧ ∀ key, ¬ operation.Writes key)
      {start stop : Traced Machine} (done : Operation.performAll operations start = some stop)
      (earlier : Run rule first start) : Run rule first stop := by
    refine Operation.performAll_keeps done earlier ?_
    intro operation member before after run addressed ends
    obtain ⟨maps, maps', never⟩ := reads operation member
    exact .next run ⟨addressed, maps, maps', fun key _ writes => (never key writes).elim⟩ ends
  have run : Run rule first now := by
    obtain ⟨addressed, ends⟩ := Operation.performAll_single stored
    have earlier : Run rule first before :=
      quiet (by simp [begun, Operation.OnlyMaps, Operation.Writes]) did .start
    refine quiet (by simp [leave, Operation.OnlyMaps, Operation.Writes]) left
      (.next earlier ⟨addressed, trivial, trivial, ?_⟩ ends)
    rintro key lies rfl backing
    obtain ⟨record, recorded, lies'⟩ := Option.map_eq_some_iff.mp backing
    obtain ⟨record', recorded', window'⟩ := behind
    have same : record = record' := Option.some.inj (recorded.symm.trans recorded')
    have same' : lies = window := Option.some.inj (by rw [← lies', ← window', same])
    rw [same', onto]
    exact Nat.zero_ne_one
  obtain ⟨parts, -, written, -⟩ := mapped_file_written_back started run
    fun _ _ _ rules => ⟨rules.1, rules.2.1⟩
  obtain ⟨others, -, written', spared⟩ := mapped_file_written_back started run
    fun _ _ _ rules => ⟨rules.1, rules.2.2.1⟩
  have sameState := (Machine.start_ok started).2
  have asked : parts.filterMap Part.write? = [⟨0, 0, 4096⟩] := by
    have none : first.state.view.journal = [] := by
      rw [sameState]
      rfl
    rw [← journal, written.journal, none, List.append_nil]
  refine ⟨device, first, now, parts, others, started, run, written, asked, ?_, written',
    spared fun _ _ _ rules => rules.2.2.2, away, away'⟩
  have flat : first.state.store.storage.files[0]? = some (.flat 5000 {}) := by
    rw [sameState]
    rfl
  have layout : first.state.view.layout 0 = some ⟨.file 0, 0, 5000⟩ := by
    rw [sameState]
    rfl
  refine written.bytes (Machine.alone_of_flat flat) layout (by decide) fun request member => ?_
  rw [asked, List.mem_singleton] at member
  subst member
  simp [WriteRequest.Covers]

end DemandPaging
