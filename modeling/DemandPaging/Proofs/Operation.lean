import DemandPaging.Proofs.Machine.Hardware
import DemandPaging.Proofs.Machine.Lifetime

namespace DemandPaging

inductive Operation where
  | createSpace (limit : Option Nat) (refusals : Faults)
  | destroySpace (id : Nat)
  | addZeros (id page : Nat)
  | addWindow (id page file offset length : Nat)
  | mapFile (id start file offset length : Nat)
  | unmapFile (id number : Nat)
  | unmapRange (id start length : Nat)
  | faultIn (id address : Nat)
  | resolveFault (id address : Nat)
  | pinRange (id start length : Nat)
  | unpinRange (id start length : Nat)
  | readUser (id start length : Nat)
  | writeUser (id start : Nat) (data : Bytes)
  | userLoad (id address length : Nat)
  | userStore (id address : Nat) (data : Bytes)
  /-- The hardware's bits of a page are set, or cleared. -/
  | markAccessed (id page : Nat) (on : Bool)
  | markDirty (id page : Nat) (on : Bool)

namespace Operation

def perform : Operation → Action PagingError Machine Unit
  | createSpace limit refusals => do let _ ← Machine.createSpace { limit, refusals }
  | destroySpace id => Machine.destroySpace id
  | addZeros id page => Machine.addPage id page .untouched
  | addWindow id page file offset length => do
    let window ← Action.orPanic (FileWindow.make file offset length)
    Machine.addPage id page (.inFile window)
  | mapFile id start file offset length => do let _ ← Machine.mapFile id start file offset length
  | unmapFile id number => Machine.unmapFile id number
  | unmapRange id start length => Machine.unmapRange id start length
  | faultIn id address => do let _ ← Machine.faultIn id address
  | resolveFault id address => Machine.resolveFault id address
  | pinRange id start length => Machine.pinRange id start length
  | unpinRange id start length => Machine.unpinRange id start length
  | readUser id start length => do let _ ← Machine.readUser id start length
  | writeUser id start data => Machine.writeUser id start data
  | userLoad id address length => do let _ ← Machine.userLoad id address length
  | userStore id address data => Machine.userStore id address data
  | markAccessed id page on => Machine.setFlag id page .accessed on
  | markDirty id page on => Machine.setFlag id page .dirty on

def space? : Operation → Option Nat
  | createSpace _ _ => none
  | destroySpace id | addZeros id _ | addWindow id _ _ _ _ | mapFile id _ _ _ _ | unmapFile id _
  | unmapRange id _ _ | faultIn id _ | resolveFault id _ | pinRange id _ _ | unpinRange id _ _
  | readUser id _ _ | writeUser id _ _ | userLoad id _ _ | userStore id _ _ | markAccessed id _ _
  | markDirty id _ _ => some id

/-- A space is asked only while it is live: whoever has it has not destroyed it. -/
def Addressed (operation : Operation) (machine : Machine) : Prop :=
  ∀ id ∈ operation.space?, machine.view.live id = true

def Mapped : Operation → Prop
  | addWindow _ _ _ _ _ => False
  | _ => True

/-- A file that is mapped is there, buffers can be had, and the hardware deals with user pages. -/
def Sensible (operation : Operation) (machine : Machine) : Prop :=
  match operation with
  | mapFile _ _ file _ _ => (machine.view.layout file).isSome
  | readUser _ _ length => length < bufferLimit
  | userLoad _ address _ | userStore _ address _ => IsUser address
  | markAccessed _ page _ | markDirty _ page _ => Aligned page ∧ IsUser page
  | _ => True

def Ends (operation : Operation) (before : Traced Machine) (outcome : Except PagingError Unit)
    (after : Traced Machine) : Prop :=
  match outcome with
  | .ok _ => operation.perform before = .ok () after
  | .error cause => operation.perform before = .error (.failed cause) after

/-! ## What operations store -/

/-- The address at which an operation that has ended stopped to store bytes: the end of its data, or
of the page for a store of the user's, or else the first page that could not be faulted in. -/
def Stops (operation : Operation) (before : Traced Machine) (outcome : Except PagingError Unit)
    (stop : Nat) (after : Traced Machine) : Prop :=
  match operation, outcome with
  | writeUser _ start data, .ok _ => stop = start + data.length
  | writeUser id start data, .error cause =>
    ¬ IsUserRange start data.length ∧ stop = start ∨
      Machine.Interrupted before id start data stop cause after
  | userStore _ start data, .ok _ => stop = min (start + data.length) (pageOf start + pageSize)
  | userStore _ start _, .error _ => stop = start
  | _, _ => True

def stored (operation : Operation) (memory : Memory) (stop : Nat) : Memory :=
  match operation with
  | writeUser id start data | userStore id start data =>
    memory.store id start stop fun address => data[address - start]?
  | _ => memory

theorem stops_of_byte {id address : Nat} {byte : UInt8} {before after : Traced Machine} :
    (userStore id address [byte]).Stops before (.ok ()) (address + 1) after := by
  have inside := pageOffset_lt address
  have splits := pageOf_add_offset address
  simp only [Stops, List.length_singleton]
  omega

/-! ## The steps of operations -/

def Adds (operation : Operation) (before : Machine) (page : Nat) (residence : Residence) : Prop :=
  match operation with
  | addZeros _ place => page = place ∧ residence = .untouched
  | addWindow _ place file offset length => page = place ∧
    ∃ window, FileWindow.make file offset length = .ok window ∧ residence = .inFile window
  | mapFile _ start file offset length =>
    Machine.MapsFile before.view start file offset length page residence
  | _ => False

def Drops (operation : Operation) (before : Machine) (page : Nat) : Prop :=
  match operation with
  | unmapRange id start length => Machine.Loose before.view id start length page
  | unmapFile id number => Machine.LooseIn before.view id number page
  | destroySpace _ => True
  | _ => False

def Takes (operation : Operation) (before : Machine) (outcome : Except PagingError Unit) :
    Step → Prop :=
  match operation with
  | createSpace _ _ => fun step => ∃ id, step = .create id
  | destroySpace id => fun step => step.Unmaps id (operation.Drops before) False ∨ step = .destroy id
  | addZeros id _ | addWindow id _ _ _ _ | mapFile id _ _ _ _ =>
    Step.Maps id (operation.Adds before)
  | unmapFile id _ | unmapRange id _ _ => Step.Unmaps id (operation.Drops before) (outcome = .ok ())
  | writeUser id _ _ | userStore id _ _ => Step.Copies id
  | markDirty id page on => fun step => step = .stain (id, page) on
  | _ => Step.Paging

/-! ## Pins -/

def tally (operation : Operation) (outcome : Except PagingError Unit) (after : Machine)
    (pins : Nat × Nat → Nat) (key : Nat × Nat) : Nat :=
  match operation, outcome with
  | faultIn id address, .ok _ => if key = (id, pageOf address) then pins key + 1 else pins key
  | pinRange id start length, .ok _ =>
    if key.1 = id ∧ key.2 ∈ Machine.pagesIn start length then pins key + 1 else pins key
  | unpinRange id start length, .ok _ =>
    if key.1 = id ∧ key.2 ∈ Machine.pagesIn start length then pins key - 1 else pins key
  | unmapFile _ _, _ | unmapRange _ _ _, _ | destroySpace _, _ =>
    if (after.view.record key).isNone then 0 else pins key
  | _, _ => pins key

structure Accounted (operation : Operation) (before : Machine) (outcome : Except PagingError Unit)
    (stop : Nat) (after : Machine) : Prop where
  pins : after.view.pins = operation.tally outcome after before.view.pins
  stays : ∀ {key frame}, operation ≠ .destroySpace key.1 →
    before.view.frameOf key = some frame → before.view.pins key ≠ 0 →
    after.view.frameOf key = some frame ∧ ∀ i < pageSize, (after.view.contents frame)[i]? =
      operation.stored (fun _ i => (before.view.contents frame)[i]?) stop key i
  warranted : ∀ cause, outcome = .error cause → before.Warranted cause

def Performed (strict : Prop) (operation : Operation) (before : Machine)
    (outcome : Except PagingError Unit) (stop : Nat) (after : Machine) : Prop :=
  ∃ steps, before.Moves strict steps after ∧
    (∀ step ∈ steps, operation.Takes before outcome step) ∧
    (∀ memory key i, Aligned key.2 → i < pageSize →
      effects steps memory key i = operation.stored memory stop key i) ∧
    operation.Accounted before outcome stop after

def Concludes (strict : Prop) (operation : Operation) (before : Traced Machine)
    (outcome : Except PagingError Unit) (after : Traced Machine) : Prop :=
  ∃ stop, operation.Stops before outcome stop after ∧
    operation.Performed strict before.state outcome stop after.state

def writes : Operation → Bool
  | writeUser _ _ _ | userStore _ _ _ => true
  | _ => false

end Operation

theorem Step.Maps.silent {id : Nat} {adds : Nat → Residence → Prop} {step : Step}
    (maps : step.Maps id adds) : step.Silent :=
  (maps.spares (0, 0)).2.2

theorem Step.Unmaps.silent {id : Nat} {drops : Nat → Prop} {safe : Prop} {step : Step}
    (unmaps : step.Unmaps id drops safe) : step.Silent := by
  cases step with
  | kernelWrite | userWrite => exact unmaps.elim
  | _ => trivial

namespace Operation

open Machine DemandPaging.Action

variable {strict : Prop} {operation : Operation} {machine : Machine} {log : Array Event}
  {before after : Traced Machine} {outcome : Except PagingError Unit}

theorem Takes.silent {step : Step} (quiet : operation.writes = false)
    (takes : operation.Takes machine outcome step) : step.Silent := by
  cases operation with
  | createSpace =>
      obtain ⟨id, rfl⟩ := takes
      trivial
  | destroySpace =>
      rcases takes with unmaps | rfl
      · exact unmaps.silent
      · trivial
  | addZeros | addWindow | mapFile => exact Step.Maps.silent takes
  | unmapFile | unmapRange => exact Step.Unmaps.silent takes
  | writeUser | userStore => cases quiet
  | markDirty =>
      cases takes
      trivial
  | _ => exact Step.Paging.silent takes

theorem stored_of_quiet (quiet : operation.writes = false) (memory : Memory) (stop : Nat) :
    operation.stored memory stop = memory := by
  cases operation with
  | writeUser | userStore => cases quiet
  | _ => rfl

theorem stops_of_quiet (quiet : operation.writes = false) (stop : Nat) :
    operation.Stops before outcome stop after := by
  cases operation with
  | writeUser | userStore => cases quiet
  | _ => trivial

theorem Accounted.of_quiet {stop : Nat} {last : Machine}
    (accounted : operation.Accounted machine outcome stop last) (quiet : operation.writes = false)
    (other : Nat) : operation.Accounted machine outcome other last := by
  refine ⟨accounted.pins, fun spared found pinned => ?_, accounted.warranted⟩
  rw [stored_of_quiet quiet]
  simpa only [stored_of_quiet quiet] using accounted.stays spared found pinned

structure Finished (strict : Prop) (operation : Operation) (before : Machine)
    (outcome : Except PagingError Unit) (after : Machine) : Prop where
  through : before.Through strict (operation.Takes before outcome) after
  accounted : operation.Accounted before outcome 0 after

theorem Finished.performed {last : Machine}
    (finished : operation.Finished strict machine outcome last) (quiet : operation.writes = false)
    (stop : Nat) : operation.Performed strict machine outcome stop last := by
  obtain ⟨⟨steps, moves, takes⟩, accounted⟩ := finished
  refine ⟨steps, moves, takes, fun memory key i _ _ => ?_, accounted.of_quiet quiet stop⟩
  rw [effects_of_silent fun step member => (takes step member).silent quiet, stored_of_quiet quiet]

theorem ensures_of_quiet (quiet : operation.writes = false) {narrower : Prop}
    (ensures : operation.perform.Ensures ⟨machine, log⟩
      (fun _ after => operation.Finished strict machine (.ok ()) after.state)
      (fun cause after => operation.Finished strict machine (.error cause) after.state)
      (Excused narrower)) :
    operation.perform.Ensures ⟨machine, log⟩
      (fun _ after => operation.Concludes strict ⟨machine, log⟩ (.ok ()) after)
      (fun cause after => operation.Concludes strict ⟨machine, log⟩ (.error cause) after)
      (Excused narrower) :=
  ensures.mono (fun _ _ finished => ⟨0, stops_of_quiet quiet 0, finished.performed quiet 0⟩)
    (fun _ _ finished => ⟨0, stops_of_quiet quiet 0, finished.performed quiet 0⟩)
    fun _ _ excused => excused

/-! ## Operations that store nothing -/

theorem accounted_of_firm {last : Machine} (quiet : operation.writes = false)
    (firm : machine.view.Firm last.view)
    (pins : last.view.pins = operation.tally outcome last machine.view.pins)
    (warranted : ∀ cause, outcome = .error cause → machine.Warranted cause) :
    operation.Accounted machine outcome 0 last := by
  refine ⟨pins, fun _ found pinned => ?_, warranted⟩
  obtain ⟨stays, same⟩ := firm.stays found pinned
  rw [stored_of_quiet quiet]
  exact ⟨stays, fun i _ => by rw [same]⟩

theorem finished_of_settled {last : Machine} (quiet : operation.writes = false)
    (settled : machine.Settled strict last)
    (takes : ∀ step, step.Paging → operation.Takes machine outcome step)
    (idle : operation.tally outcome last machine.view.pins = machine.view.pins)
    (warranted : ∀ cause, outcome = .error cause → machine.Warranted cause) :
    operation.Finished strict machine outcome last :=
  ⟨settled.through.mono takes,
    accounted_of_firm quiet settled.firm (settled.pins.trans idle.symm) warranted⟩

theorem finished_of_failed {cause : PagingError} {last : Machine}
    (quiet : operation.writes = false)
    (takes : ∀ step, step.Paging → operation.Takes machine (.error cause) step)
    (idle : operation.tally (.error cause) last machine.view.pins = machine.view.pins)
    (failed : machine.Failed strict cause last) :
    operation.Finished strict machine (.error cause) last :=
  finished_of_settled quiet failed.toSettled takes idle
    (by rintro _ ⟨⟩; exact failed.warranted)

theorem finished_of_calm {last : Machine} (quiet : operation.writes = false)
    (sound : machine.Sound strict)
    (through : machine.Through strict (operation.Takes machine outcome) last)
    (spares : ∀ step, operation.Takes machine outcome step → ∀ key, step.Spares key)
    (idle : operation.tally outcome last machine.view.pins = machine.view.pins)
    (warranted : ∀ cause, outcome = .error cause → machine.Warranted cause) :
    operation.Finished strict machine outcome last := by
  obtain ⟨firm, pins⟩ := sound.calm through spares
  exact ⟨through, accounted_of_firm quiet firm (pins.trans idle.symm) warranted⟩

theorem warranted_of_ne {cause : PagingError} (other : cause ≠ .outOfSwap) :
    ∀ later, (.error cause : Except PagingError Unit) = .error later → machine.Warranted later := by
  rintro _ ⟨⟩ short
  exact absurd short other

theorem addPage_finished {id page : Nat} {residence : Residence}
    (quiet : operation.writes = false) (sound : machine.Sound strict)
    (live : machine.view.live id = true) (kind : residence = .untouched ∨
      ∃ window, residence = .inFile window ∧ (strict → machine.view.Fits window))
    (takes : ∀ outcome, operation.Takes machine outcome = Step.Maps id (operation.Adds machine))
    (adds : operation.Adds machine page residence)
    (idle : ∀ outcome last, operation.tally outcome last machine.view.pins = machine.view.pins) :
    (addPage id page residence).Ensures ⟨machine, log⟩
      (fun _ after => operation.Finished strict machine (.ok ()) after.state)
      (fun cause after => operation.Finished strict machine (.error cause) after.state)
      fun _ _ => False := by
  have spares (outcome : Except PagingError Unit) (step : Step)
      (taken : operation.Takes machine outcome step) (key : Nat × Nat) : step.Spares key := by
    rw [takes] at taken
    exact taken.spares key
  refine Ensures.mono (addPage_spec sound.shaped live kind) ?_ ?_ fun _ _ never => never
  · intro _ after moves
    have through : machine.Through strict (operation.Takes machine (.ok ())) after.state := by
      rw [takes]
      exact moves.through ⟨rfl, adds⟩
    exact finished_of_calm quiet sound through (spares _) (idle _ _) nofun
  · rintro cause after ⟨same, other⟩
    exact finished_of_calm quiet sound (.still same.view same.shaped) (spares _) (idle _ _)
      (warranted_of_ne other)

theorem pins_eq_of_unmaps {view last : View} {key : Nat × Nat}
    (same : last.record key ≠ none → last.pins key = view.pins key) :
    last.pins key = if (last.record key).isNone then 0 else view.pins key := by
  split
  · rename_i absent
    exact View.pins_of_away (by simp [View.frameOf, Option.isNone_iff_eq_none.mp absent])
  · rename_i present
    exact same (by simpa using present)

theorem finished_of_unmaps {id : Nat} {drops : Nat → Prop} {action : Action PagingError Machine Unit}
    (quiet : operation.writes = false) (sound : machine.Sound strict)
    (free : ∀ page, drops page → machine.view.pins (id, page) = 0)
    (takes : ∀ outcome, operation.Takes machine outcome = Step.Unmaps id drops (outcome = .ok ()))
    (tallies : ∀ outcome last key, operation.tally outcome last machine.view.pins key =
      if (last.view.record key).isNone then 0 else machine.view.pins key)
    (unmaps : action.Ensures ⟨machine, log⟩
      (fun _ after => machine.Through strict (Step.Unmaps id drops True) after.state)
      (fun cause after => machine.Through strict (Step.Unmaps id drops False) after.state ∧
        cause ≠ .outOfSwap) (Excused strict)) :
    action.Ensures ⟨machine, log⟩
      (fun _ after => operation.Finished strict machine (.ok ()) after.state)
      (fun cause after => operation.Finished strict machine (.error cause) after.state)
      (Excused strict) := by
  have ends (outcome : Except PagingError Unit) {safe : Prop} {last : Machine}
      (implied : outcome = .ok () → safe)
      (through : machine.Through strict (Step.Unmaps id drops safe) last)
      (warranted : ∀ cause, outcome = .error cause → machine.Warranted cause) :
      operation.Finished strict machine outcome last := by
    obtain ⟨firm, pins⟩ := sound.firm_of_unmaps through free
    refine ⟨?_, accounted_of_firm quiet firm (funext fun key => ?_) warranted⟩
    · rw [takes]
      exact through.mono fun _ unmaps => unmaps.mono implied fun _ dropped => dropped
    · rw [tallies]
      exact pins_eq_of_unmaps fun _ => congrFun pins key
  refine Ensures.mono unmaps ?_ ?_ fun _ _ excused => excused
  · exact fun _ _ through => ends (.ok ()) (fun _ => trivial) through nofun
  · exact fun cause _ failed => ends (.error cause) nofun failed.1 (warranted_of_ne failed.2)

theorem accounted_of_destroy {middle last : Machine} {id : Nat} (sound : machine.Sound strict)
    (through : machine.Through strict (Step.Unmaps id (fun _ => True) False) middle)
    (moves : Moves strict middle [.destroy id] last) :
    (destroySpace id).Accounted machine (.ok ()) 0 last := by
  obtain ⟨empty, seen⟩ := moves.path.of_single
  have elsewhere {key : Nat × Nat} (distinct : key.1 ≠ id) :
      machine.view.Spared middle.view key :=
    sound.spared through fun step unmaps => unmaps.spares fun dropped => distinct dropped.1
  refine ⟨funext fun key => pins_eq_of_unmaps fun present => ?_,
    fun {key frame} other found pinned => ?_, nofun⟩
  · have distinct : key.1 ≠ id := by
      rintro rfl
      refine present ?_
      rw [seen]
      exact empty key.2
    rw [seen, ← (elsewhere distinct).pins]
    rfl
  · have distinct : key.1 ≠ id := fun same => other (by rw [same])
    obtain ⟨stays, same⟩ := (elsewhere distinct).stays found pinned
    rw [seen, stored_of_quiet rfl]
    exact ⟨stays, fun i _ => congrArg (fun page : Page => page[i]?) same⟩

/-! ## All operations -/

theorem performed_of_stored {stop : Nat} {id start : Nat} {bytes : Nat → Option UInt8}
    (stored : machine.Stored strict id start stop bytes after.state)
    (takes : ∀ step, step.Copies id → operation.Takes machine outcome step)
    (same : ∀ memory, operation.stored memory stop = memory.store id start stop bytes)
    (idle : operation.tally outcome after.state machine.view.pins = machine.view.pins)
    (warranted : ∀ cause, outcome = .error cause → machine.Warranted cause) :
    operation.Performed strict machine outcome stop after.state := by
  obtain ⟨⟨steps, moves, copies, effect⟩, pins, stays⟩ := stored
  refine ⟨steps, moves, fun step member => takes step (copies step member), ?_,
    pins.trans idle.symm, fun _ found pinned => ?_, warranted⟩
  · simpa only [same] using effect
  · simpa only [same] using stays found pinned

theorem writeUser_concludes {id start : Nat} {data : Bytes} (sound : machine.Sound strict)
    (live : machine.view.live id = true) :
    (writeUser id start data).perform.Ensures ⟨machine, log⟩
      (fun _ after => (writeUser id start data).Concludes strict ⟨machine, log⟩ (.ok ()) after)
      (fun cause after =>
        (writeUser id start data).Concludes strict ⟨machine, log⟩ (.error cause) after)
      (Excused strict) := by
  refine Ensures.mono (writeUser_spec sound live) ?_ ?_ fun _ _ excused => excused
  · exact fun _ after stored => ⟨_, rfl,
      performed_of_stored stored (fun _ copies => copies) (fun _ => rfl) rfl nofun⟩
  · rintro cause after (⟨bad, same, other⟩ | ⟨stop, interrupted⟩)
    · have failed : machine.Failed strict cause after.state := same ▸ .refl sound.shaped other
      have stored : machine.Stored strict id start start (fun address => data[address - start]?)
          after.state := failed.stored start
      exact ⟨start, .inl ⟨bad, rfl⟩, performed_of_stored stored (fun _ copies => copies)
        (fun _ => rfl) rfl (by rintro _ ⟨⟩; exact failed.warranted)⟩
    · obtain ⟨stored, warranted⟩ := interrupted.stored sound live
      exact ⟨stop, .inr interrupted, performed_of_stored stored (fun _ copies => copies)
        (fun _ => rfl) rfl (by rintro _ ⟨⟩; exact warranted)⟩

theorem userStore_concludes {id start : Nat} {data : Bytes} (sound : machine.Sound strict)
    (live : machine.view.live id = true) :
    (userStore id start data).perform.Ensures ⟨machine, log⟩
      (fun _ after => (userStore id start data).Concludes strict ⟨machine, log⟩ (.ok ()) after)
      (fun cause after =>
        (userStore id start data).Concludes strict ⟨machine, log⟩ (.error cause) after)
      (Excused (strict ∧ IsUser start)) := by
  refine Ensures.mono (userStore_spec sound live) ?_ ?_ fun _ _ excused => excused
  · exact fun _ after stored => ⟨_, rfl,
      performed_of_stored stored (fun _ copies => copies) (fun _ => rfl) rfl nofun⟩
  · intro cause after failed
    have stored : machine.Stored strict id start start (fun address => data[address - start]?)
        after.state := failed.stored start
    exact ⟨start, rfl, performed_of_stored stored (fun _ copies => copies) (fun _ => rfl) rfl
      (by rintro _ ⟨⟩; exact failed.warranted)⟩

theorem perform_spec (sound : machine.Sound strict) (addressed : operation.Addressed machine)
    (mapped : strict → operation.Mapped) :
    operation.perform.Ensures ⟨machine, log⟩
      (fun _ after => operation.Concludes strict ⟨machine, log⟩ (.ok ()) after)
      (fun cause after => operation.Concludes strict ⟨machine, log⟩ (.error cause) after)
      (Excused (strict ∧ operation.Sensible machine)) := by
  have narrower {cause : Panic} {after : Traced Machine} (excused : Excused strict cause after) :
      Excused (strict ∧ operation.Sensible machine) cause after := excused.mono And.left
  -- All operations but the two that store what they are given are quiet, which leaves nothing to say of
  -- where they stop.
  cases operation with
  | createSpace limit refusals =>
      apply ensures_of_quiet rfl
      rw [perform, ensures_bind]
      refine Ensures.mono (createSpace_spec sound.shaped rfl) ?_ (fun _ _ never => never.elim)
        fun _ _ excused => narrower excused
      intro id after moves
      refine finished_of_calm rfl sound (moves.through ⟨id, rfl⟩) ?_ rfl nofun
      rintro _ ⟨id, rfl⟩ key
      exact ⟨fun _ => rfl, nofun, trivial⟩
  | destroySpace id =>
      apply ensures_of_quiet rfl
      refine Ensures.mono (destroySpace_spec sound (addressed id rfl)) ?_
        (fun _ _ never => never.elim) fun _ _ panicked => narrower panicked.1
      rintro _ after ⟨middle, through, moves⟩
      refine ⟨(through.mono fun _ unmaps => .inl unmaps).trans (moves.through (.inr rfl)), ?_⟩
      exact accounted_of_destroy sound through moves
  | addZeros id page =>
      have adds : (addZeros id page).Adds machine page .untouched := ⟨rfl, rfl⟩
      apply ensures_of_quiet rfl
      exact Ensures.mono (addPage_finished rfl sound (addressed id rfl) (.inl rfl) (fun _ => rfl)
        adds fun _ _ => rfl) (fun _ _ finished => finished) (fun _ _ finished => finished)
        fun _ _ never => never.elim
  | addWindow id page file offset length =>
      apply ensures_of_quiet rfl
      rw [perform, ensures_bind, ensures_orPanic]
      cases made : FileWindow.make file offset length with
      | error cause => exact fun holds => (mapped holds.1).elim
      | ok window =>
          have adds : (addWindow id page file offset length).Adds machine page (.inFile window) :=
            ⟨rfl, window, made, rfl⟩
          exact Ensures.mono (addPage_finished rfl sound (addressed id rfl)
            (.inr ⟨window, rfl, fun holds => (mapped holds).elim⟩) (fun _ => rfl) adds
            fun _ _ => rfl) (fun _ _ finished => finished) (fun _ _ finished => finished)
            fun _ _ never => never.elim
  | mapFile id start file offset length =>
      apply ensures_of_quiet rfl
      rw [perform, ensures_bind]
      refine Ensures.mono (mapFile_spec sound (addressed id rfl)) ?_ ?_ fun _ _ excused => excused
      · exact fun _ _ through =>
          finished_of_calm rfl sound through (fun _ => Step.Maps.spares) rfl nofun
      · exact fun _ _ failed => finished_of_calm rfl sound failed.1 (fun _ => Step.Maps.spares) rfl
          (warranted_of_ne failed.2)
  | unmapFile id number =>
      have free (page : Nat) (loose : LooseIn machine.view id number page) :
          machine.view.pins (id, page) = 0 := by
        obtain ⟨region, -, -, unpinned⟩ := loose
        exact unpinned
      apply ensures_of_quiet rfl
      exact Ensures.mono (finished_of_unmaps rfl sound free (fun _ => rfl) (fun _ _ _ => rfl)
        (unmapFile_spec sound (addressed id rfl))) (fun _ _ finished => finished)
        (fun _ _ finished => finished) fun _ _ excused => narrower excused
  | unmapRange id start length =>
      apply ensures_of_quiet rfl
      exact Ensures.mono (finished_of_unmaps rfl sound (fun _ loose => loose.2) (fun _ => rfl)
        (fun _ _ _ => rfl) (unmapRange_spec sound (addressed id rfl)))
        (fun _ _ finished => finished) (fun _ _ finished => finished)
        fun _ _ excused => narrower excused
  | faultIn id address =>
      apply ensures_of_quiet rfl
      rw [perform, ensures_bind]
      refine Ensures.mono (faultIn_spec sound (addressed id rfl)) ?_
        (fun _ _ => finished_of_failed rfl (fun _ paging => paging) rfl)
        fun _ _ excused => narrower excused
      rintro frame after ⟨-, faulted⟩
      refine ⟨faulted.through, accounted_of_firm rfl faulted.firm (funext fun key => ?_) nofun⟩
      rw [faulted.pins, Function.update_apply, tally]
      split
      · rename_i same
        rw [same]
      · rfl
  | resolveFault id address =>
      apply ensures_of_quiet rfl
      refine Ensures.mono (resolveFault_spec sound (addressed id rfl)) ?_
        (fun _ _ => finished_of_failed rfl (fun _ paging => paging) rfl)
        fun _ _ excused => narrower excused
      rintro _ after ⟨-, frame, faulted⟩
      exact finished_of_settled rfl faulted.settled (fun _ paging => paging) rfl nofun
  | pinRange id start length =>
      apply ensures_of_quiet rfl
      refine Ensures.mono (pinRange_spec sound (addressed id rfl)) ?_
        (fun _ _ => finished_of_failed rfl (fun _ paging => paging) rfl)
        fun _ _ excused => narrower excused
      rintro _ after ⟨through, firm, pins⟩
      refine ⟨through, accounted_of_firm rfl firm (funext fun key => ?_) nofun⟩
      rw [pins, tally]
      split <;> rfl
  | unpinRange id start length =>
      apply ensures_of_quiet rfl
      refine Ensures.mono (unpinRange_spec sound (addressed id rfl)) ?_
        (fun _ _ => finished_of_failed rfl (fun _ paging => paging) rfl)
        fun _ _ excused => narrower excused
      rintro _ after ⟨through, record, contents, pins⟩
      refine ⟨through, funext fun key => ?_, fun {key frame} _ found _ => ?_, nofun⟩
      · rw [pins, tally]
        split <;> rfl
      · rw [stored_of_quiet rfl, contents, View.frameOf_congr (congrFun record key)]
        exact ⟨found, fun _ _ => rfl⟩
  | readUser id start length =>
      apply ensures_of_quiet rfl
      rw [perform, ensures_bind]
      exact Ensures.mono (readUser_spec sound (addressed id rfl))
        (fun _ _ read => finished_of_settled rfl read.1 (fun _ paging => paging) rfl nofun)
        (fun _ _ => finished_of_failed rfl (fun _ paging => paging) rfl) fun _ _ excused => excused
  | writeUser id start data =>
      exact Ensures.mono (writeUser_concludes sound (addressed id rfl))
        (fun _ _ concludes => concludes) (fun _ _ concludes => concludes)
        fun _ _ excused => narrower excused
  | userLoad id address length =>
      apply ensures_of_quiet rfl
      rw [perform, ensures_bind]
      exact Ensures.mono (userLoad_spec sound (addressed id rfl))
        (fun _ _ read => finished_of_settled rfl read.1 (fun _ paging => paging) rfl nofun)
        (fun _ _ => finished_of_failed rfl (fun _ paging => paging) rfl) fun _ _ excused => excused
  | userStore id address data => exact userStore_concludes sound (addressed id rfl)
  | markAccessed id page on =>
      apply ensures_of_quiet rfl
      refine Ensures.mono (markAccessed_spec sound.shaped (addressed id rfl) on) ?_
        (fun _ _ never => never.elim) fun _ _ excused => excused.mono And.right
      intro _ after same
      exact finished_of_settled rfl (.still same.view same.shaped) (fun _ paging => paging) rfl nofun
  | markDirty id page on =>
      apply ensures_of_quiet rfl
      refine Ensures.mono (markDirty_spec sound.shaped (addressed id rfl) on) ?_
        (fun _ _ never => never.elim) fun _ _ excused => excused.mono And.right
      intro _ after moves
      refine finished_of_calm rfl sound (moves.through rfl) ?_ rfl nofun
      rintro _ rfl key
      exact ⟨fun _ => rfl, nofun, trivial⟩

theorem concludes_of_ends (sound : before.state.Sound strict)
    (addressed : operation.Addressed before.state) (mapped : strict → operation.Mapped)
    (ends : operation.Ends before outcome after) :
    operation.Concludes strict before outcome after := by
  cases outcome with
  | ok value => exact (perform_spec sound addressed mapped).returned ends
  | error cause => exact (perform_spec sound addressed mapped).failed ends

theorem sound_of_ends (sound : before.state.Sound strict)
    (addressed : operation.Addressed before.state) (mapped : strict → operation.Mapped)
    (ends : operation.Ends before outcome after) : after.state.Sound strict := by
  obtain ⟨stop, -, steps, moves, -⟩ := concludes_of_ends sound addressed mapped ends
  exact sound.moves moves

theorem accounted_of_ends (sound : before.state.Sound strict)
    (addressed : operation.Addressed before.state) (mapped : strict → operation.Mapped)
    (ends : operation.Ends before outcome after) :
    ∃ stop, operation.Accounted before.state outcome stop after.state := by
  obtain ⟨stop, -, steps, -, -, -, accounted⟩ := concludes_of_ends sound addressed mapped ends
  exact ⟨stop, accounted⟩

/-- What an operation has stored is known by where it stopped. -/
theorem performed_of_stops (sound : before.state.Sound strict)
    (addressed : operation.Addressed before.state) (mapped : strict → operation.Mapped)
    (ends : operation.Ends before outcome after) {stop : Nat}
    (stops : operation.Stops before outcome stop after) :
    operation.Performed strict before.state outcome stop after.state := by
  obtain ⟨here, stopped, performed⟩ := concludes_of_ends sound addressed mapped ends
  -- Any address that is right for `Stops` will do, not only the one that was found here.
  cases operation with
  | writeUser id start data =>
      have live := addressed id rfl
      cases outcome with
      | ok value =>
          cases stops
          cases stopped
          exact performed
      | error cause =>
          rcases stops with ⟨bad, rfl⟩ | interrupted
          · rcases stopped with ⟨-, rfl⟩ | ⟨user, -⟩
            · exact performed
            · exact absurd user bad
          · obtain ⟨stored, warranted⟩ := interrupted.stored sound live
            exact performed_of_stored stored (fun _ copies => copies) (fun _ => rfl) rfl
              (by rintro _ ⟨⟩; exact warranted)
  | userStore id address data =>
      cases outcome with
      | ok | error =>
          cases stops
          cases stopped
          exact performed
  | _ =>
      obtain ⟨steps, moves, takes, -, accounted⟩ := performed
      exact Finished.performed ⟨⟨steps, moves, takes⟩, accounted.of_quiet rfl 0⟩ rfl stop

end Operation

end DemandPaging
