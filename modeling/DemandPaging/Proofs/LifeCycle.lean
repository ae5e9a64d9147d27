import DemandPaging.Proofs.Run
import Mathlib.Logic.Relation

/-!
# The life of a page

Whatever an operation does, every page of every space goes from one place to the next along the
same few edges (`Turn`), evictions for other spaces included. So a page keeps its window, or its
lack of one, as long as it is there (`life_cycle`).
-/

namespace DemandPaging

def View.residence? (view : View) (key : Nat × Nat) : Option Residence :=
  (view.record key).map (·.residence)

/-- The ways of a page from place to place, while an operation is performed. -/
inductive Turn (operation : Operation) (before : Machine) (key : Nat × Nat) :
    Option Residence → Option Residence → Prop where
  | addZeros (asked : operation = .addZeros key.1 key.2) :
      Turn operation before key none (some .untouched)
  | addWindow {window : FileWindow} (own : operation.space? = some key.1)
      (adds : operation.Adds before key.2 (.inFile window)) :
      Turn operation before key none (some (.inFile window))
  | zeroIn (frame : Nat) :
      Turn operation before key (some .untouched) (some (.inFrame frame none))
  | swapIn (slot frame : Nat) :
      Turn operation before key (some (.inSwap slot)) (some (.inFrame frame none))
  | fileIn (window : FileWindow) (frame : Nat) :
      Turn operation before key (some (.inFile window)) (some (.inFrame frame (some window)))
  | swapOut (frame slot : Nat) :
      Turn operation before key (some (.inFrame frame none)) (some (.inSwap slot))
  | fileOut (frame : Nat) (window : FileWindow) :
      Turn operation before key (some (.inFrame frame (some window))) (some (.inFile window))
  | remove {residence : Residence} (own : operation.space? = some key.1)
      (drops : operation.Drops before key.2) :
      Turn operation before key (some residence) none

/-! ## One step -/

section Steps

variable {strict : Prop} {operation : Operation} {before : Machine}
  {outcome : Except PagingError Unit} {view later : View} {step : Step} {key : Nat × Nat}

theorem Operation.Takes.adds {residence : Residence}
    (takes : operation.Takes before outcome (.install key residence)) :
    operation.space? = some key.1 ∧ operation.Adds before key.2 residence := by
  cases operation with
  | addZeros | addWindow | mapFile =>
      obtain ⟨same, adds⟩ := takes
      exact ⟨congrArg some same.symm, adds⟩
  | createSpace =>
      obtain ⟨id, same⟩ := takes
      cases same
  | destroySpace =>
      rcases takes with unmaps | same
      · exact unmaps.elim
      · cases same
  | markDirty => cases takes
  | _ => exact takes.elim

theorem Operation.Takes.drops {record : PageRecord} {saved : Bool}
    (takes : operation.Takes before outcome (.drop key record saved)) :
    operation.space? = some key.1 ∧ operation.Drops before key.2 := by
  cases operation with
  | unmapFile | unmapRange =>
      obtain ⟨same, drops, -⟩ := takes
      exact ⟨congrArg some same.symm, drops⟩
  | destroySpace =>
      rcases takes with ⟨same, drops, -⟩ | same
      · exact ⟨congrArg some same.symm, drops⟩
      · cases same
  | createSpace =>
      obtain ⟨id, same⟩ := takes
      cases same
  | markDirty => cases takes
  | _ => exact takes.elim

theorem turn_of_adds {residence : Residence} (own : operation.space? = some key.1)
    (adds : operation.Adds before key.2 residence) :
    Turn operation before key none (some residence) := by
  cases operation with
  | addZeros id page =>
      obtain ⟨same, rfl⟩ := adds
      exact .addZeros (by rw [same, ← Option.some.inj own])
  | addWindow id page file offset length =>
      obtain ⟨same, window, made, rfl⟩ := adds
      exact .addWindow own ⟨same, window, made, rfl⟩
  | mapFile id start file offset length =>
      obtain ⟨layout, i, there, same, covered, rfl⟩ := adds
      exact .addWindow own ⟨layout, i, there, same, covered, rfl⟩
  | _ => exact adds.elim

theorem turn_of_bringIn {residence : Residence} (away : residence.frame? = none) (frame : Nat) :
    Turn operation before key (some residence) (some (.inFrame frame residence.window?)) := by
  cases residence with
  | untouched => exact .zeroIn frame
  | inSwap slot => exact .swapIn slot frame
  | inFile window => exact .fileIn window frame
  | inFrame => cases away

theorem turns_of_record (other : Nat × Nat) (next : Option PageRecord)
    (records : later.record = Function.update view.record other next)
    (turn : Turn operation before other (view.residence? other) (next.map (·.residence))) :
    Relation.ReflTransGen (Turn operation before key) (view.residence? key)
      (later.residence? key) := by
  have changed : later.residence? =
      Function.update view.residence? other (next.map (·.residence)) :=
    (congrArg (Option.map PageRecord.residence ∘ ·) records).trans (Function.comp_update ..)
  rw [changed]
  by_cases same : key = other
  · subst same
    rw [Function.update_self]
    exact .single turn
  · rw [Function.update_of_ne same]

theorem turns_of_step (takes : operation.Takes before outcome step)
    (permitted : view.Permits strict step) :
    Relation.ReflTransGen (Turn operation before key) (view.residence? key)
      ((view.after step).residence? key) := by
  cases step with
  | soil other =>
      obtain ⟨frame, window, resident, -⟩ := permitted
      have same := (View.samePlaces_soil ⟨frame, window, resident⟩).residence key
      rw [View.residence?, View.residence?, same]
  | swapOut other frame slot =>
      obtain ⟨⟨dirty, found⟩, -⟩ := permitted
      refine turns_of_record other (some ⟨.inSwap slot, false⟩) rfl ?_
      rw [View.residence?, found]
      exact .swapOut frame slot
  | fileOut other frame window =>
      obtain ⟨⟨dirty, found⟩, -⟩ := permitted
      refine turns_of_record other (some ⟨.inFile window, false⟩) rfl ?_
      rw [View.residence?, found]
      exact .fileOut frame window
  | bringIn other frame residence =>
      have records := view.record_after_bringIn other frame residence
      obtain ⟨⟨dirty, found⟩, away, -⟩ := permitted
      refine turns_of_record other _ records ?_
      rw [View.residence?, found]
      exact turn_of_bringIn away frame
  | install other residence =>
      obtain ⟨own, adds⟩ := takes.adds
      refine turns_of_record other (some ⟨residence, false⟩) rfl ?_
      rw [View.residence?, permitted.2.1]
      exact turn_of_adds own adds
  | drop other record saved =>
      obtain ⟨own, drops⟩ := takes.drops
      refine turns_of_record other none (view.record_after_drop other record saved) ?_
      rw [View.residence?, permitted.1]
      exact .remove own drops
  | _ => exact .refl

theorem Path.turns {first last : View} {steps : List Step} (path : Path strict first steps last)
    (takes : ∀ step ∈ steps, operation.Takes before outcome step) :
    Relation.ReflTransGen (Turn operation before key) (first.residence? key)
      (last.residence? key) :=
  path.keeps (motive := fun view => Relation.ReflTransGen (Turn operation before key)
    (first.residence? key) (view.residence? key)) takes
    (fun _ _ taken permitted turns => turns.trans (turns_of_step taken permitted)) .refl

end Steps

/-! ## What a page keeps -/

structure Residence.Lasts (residence last : Residence) : Prop where
  window : last.window? = residence.window?
  touched : residence ≠ .untouched → last ≠ .untouched

theorem Residence.Lasts.trans {first middle last : Residence} (early : first.Lasts middle)
    (late : middle.Lasts last) : first.Lasts last :=
  ⟨late.window.trans early.window, fun touched => late.touched (early.touched touched)⟩

theorem Residence.Lasts.outside {residence last : Residence} (lasts : residence.Lasts last)
    (inFile : residence.window?.isSome) : last.slot? = none := by
  rw [← lasts.window] at inFile
  cases last with
  | inSwap => cases inFile
  | untouched | inFrame | inFile => rfl

section Turns

variable {operation : Operation} {before : Machine} {key : Nat × Nat} {residence last : Residence}

theorem Turn.lasts (turn : Turn operation before key (some residence) (some last)) :
    residence.Lasts last := by
  cases turn <;> exact ⟨rfl, nofun⟩

theorem Turn.not_added (drops : operation.Drops before key.2) :
    ¬ Turn operation before key none (some last) := by
  intro turn
  cases turn with
  | addZeros asked =>
      subst asked
      exact drops
  | addWindow own adds =>
      cases operation with
      | destroySpace | unmapRange | unmapFile => exact adds
      | _ => exact drops

theorem lasts_of_turns
    (turns : Relation.ReflTransGen (Turn operation before key) (some residence) (some last)) :
    residence.Lasts last := by
  have reached : ∀ place, Relation.ReflTransGen (Turn operation before key) (some residence) place →
      place.elim (operation.Drops before key.2) residence.Lasts := by
    intro place turns
    induction turns with
    | refl => exact ⟨rfl, id⟩
    | @tail middle place _ turn ih =>
        rcases middle with _ | middle
        · rcases place with _ | place
          · exact ih
          · exact absurd turn (Turn.not_added ih)
        · rcases place with _ | place
          · cases turn with
            | remove own drops => exact drops
          · exact ih.trans turn.lasts
  exact reached _ turns

end Turns

/-! ## Runs -/

/-- What may become of the pages of a machine, and what stays the same about them. -/
structure LifeCycle (now : Traced Machine) : Prop where
  turns : ∀ {operation : Operation} {outcome : Except PagingError Unit} {after : Traced Machine}
    (key : Nat × Nat), operation.Addressed now.state → operation.Ends now outcome after →
    Relation.ReflTransGen (Turn operation now.state key) (now.state.view.residence? key)
      (after.state.view.residence? key)
  lasts : ∀ {later : Traced Machine} {key : Nat × Nat} {residence : Residence},
    now.state.view.residence? key = some residence →
    Run (fun before operation after =>
      operation.Addressed before ∧ after.view.residence? key ≠ none) now later →
    ∃ last, later.state.view.residence? key = some last ∧ residence.Lasts last ∧
      (residence.window?.isSome → last.slot? = none)

theorem Machine.Sound.turns {operation : Operation} {outcome : Except PagingError Unit}
    {before after : Traced Machine} (key : Nat × Nat)
    (sound : before.state.Sound False) (addressed : operation.Addressed before.state)
    (ends : operation.Ends before outcome after) :
    Relation.ReflTransGen (Turn operation before.state key) (before.state.view.residence? key)
      (after.state.view.residence? key) := by
  obtain ⟨stop, -, steps, ⟨path, -⟩, takes, -⟩ :=
    Operation.concludes_of_ends sound addressed False.elim ends
  exact path.turns takes

theorem Run.lasts {now later : Traced Machine} {key : Nat × Nat} {residence : Residence}
    (run : Run (fun before operation after =>
      operation.Addressed before ∧ after.view.residence? key ≠ none) now later)
    (sound : now.state.Sound False) (found : now.state.view.residence? key = some residence) :
    ∃ last, later.state.view.residence? key = some last ∧ residence.Lasts last := by
  induction run with
  | start => exact ⟨residence, found, rfl, id⟩
  | next earlier kept ends ih =>
      obtain ⟨middle, there, early⟩ := ih
      have turns :=
        (earlier.sound sound (fun _ _ _ kept => kept.1) False.elim).turns key kept.1 ends
      obtain ⟨last, here⟩ := Option.ne_none_iff_exists'.mp kept.2
      rw [there, here] at turns
      exact ⟨last, here, early.trans (lasts_of_turns turns)⟩

/-- Pages live by the same few edges in every state that can be reached. -/
theorem life_cycle {settings : Settings} {device : Device} {storage : Storage}
    {first now : Traced Machine} (started : Machine.start settings device storage = .ok first)
    (run : Run (fun before operation _ => operation.Addressed before) first now) :
    LifeCycle now := by
  have sound := run.sound_of_started started
  constructor
  · exact fun key addressed ends => sound.turns key addressed ends
  · intro later key residence found further
    obtain ⟨last, there, lasts⟩ := further.lasts sound found
    exact ⟨last, there, lasts, lasts.outside⟩

/-- A page of a mapping gives way to the next, as there is one frame left, and keeps its window. -/
theorem life_cycle_of_mapped_page : ∃ (device : Device) (storage : Storage)
    (first now later : Traced Machine) (window : FileWindow),
      Machine.start ⟨2⟩ device storage = .ok first ∧
      Run (fun before operation _ => operation.Addressed before) first now ∧ LifeCycle now ∧
      now.state.view.residence? (1, 4096) = some (.inFrame 1 (some window)) ∧
      (Operation.resolveFault 1 8192).Ends now (.ok ()) later ∧
      later.state.view.residence? (1, 4096) = some (.inFile window) := by
  let storage : Storage := { files := #[.flat 100 {}] }
  let window : FileWindow := ⟨0, 0, 100, by decide⟩
  have ends : (Operation.trial 2 1 storage [.createSpace none {}, .addZeros 1 0,
      .mapFile 1 4096 0 0 5000, .faultIn 1 0, .resolveFault 1 4096]).map (fun ends =>
        (ends.2.state.view.residence? (1, 4096),
          (Operation.performAll [.resolveFault 1 8192] ends.2).map fun later =>
            (later.state.view.residence? (1, 4096)).map (·.frame?))) =
      some (some (.inFrame 1 (some window)), some (some none)) := by decide +kernel
  simp only [Option.map_eq_some_iff, Prod.exists, Prod.mk.injEq] at ends
  obtain ⟨first, now, tried, resident, later, done, last, there, away⟩ := ends
  obtain ⟨⟨device, -, started⟩, did⟩ := Operation.trial_ok tried
  obtain ⟨addressed, ended⟩ := Operation.performAll_single done
  have run : Run (fun before operation _ => operation.Addressed before) first now :=
    Operation.run_of_performAll did fun _ _ _ _ addressed => addressed
  have cycle := life_cycle started run
  obtain ⟨last', there', lasts, -⟩ := cycle.lasts resident
    (.next .start ⟨addressed, by simp [there]⟩ ended)
  obtain rfl : last = last' := Option.some.inj (there.symm.trans there')
  have same := lasts.window
  have outside : last = .inFile window := by
    cases last with
    | inFile window => exact congrArg Residence.inFile (Option.some.inj same)
    | inFrame => cases away
    | untouched | inSwap => cases same
  exact ⟨device, storage, first, now, later, window, started, run, cycle, resident, ended,
    outside ▸ there⟩

end DemandPaging
