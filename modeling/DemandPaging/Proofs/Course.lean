import DemandPaging.Proofs.Machine.Mapping
import DemandPaging.Proofs.View.WriteBack

namespace DemandPaging

def Step.Calm (writes : Nat × Nat → Prop) (adds : Nat × Nat → Residence → Prop) : Step → Prop
  | .kernelWrite key _ _ _ | .userWrite key _ _ _ => writes key
  | .stain key on => on = true → writes key
  | .install key residence => adds key residence
  | .scribble _ _ | .bringIn _ _ _ | .pin _ _ | .unpin _ _ | .enter _ _ | .forget _ => True
  | _ => False

def Step.Departs : Step → Prop
  | .litter _ _ | .soil _ | .flush _ _ _ _ _ | .swapOut _ _ _ | .fileOut _ _ _ | .drop _ _ _
  | .forget _ => True
  | _ => False

section Kinds

variable {writes : Nat × Nat → Prop} {adds : Nat × Nat → Residence → Prop} {step : Step}

theorem Step.Calm.inner (calm : step.Calm writes adds) : step.Inner := by
  cases step with
  | create | destroy => exact calm.elim
  | _ => trivial

theorem Step.Departs.inner (departs : step.Departs) : step.Inner := by
  cases step with
  | create | destroy => exact departs.elim
  | _ => trivial

theorem Step.Evicts.departs {key : Nat × Nat} (evicts : step.Evicts key) : step.Departs := by
  cases step <;> trivial

theorem Step.Unmaps.departs {id : Nat} {drops : Nat → Prop} {safe : Prop}
    (unmaps : step.Unmaps id drops safe) : step.Departs := by
  cases step <;> trivial

end Kinds

namespace Machine

open DemandPaging.Action

inductive Leaves (key : Nat × Nat) (before after : Machine) : Prop
  | evicted {frame : Nat} (evictable : before.Evictable ⟨frame, key.1, key.2⟩)
      (ran : (evict key.1 key.2).Leads before after)
  | dropped (live : before.view.live key.1 = true)
      (ran : (removePage key.1 key.2).Leads before after)

/-- What comes of a page that leaves. -/
structure Departure (before : Machine) (key : Nat × Nat) (after : Machine) : Prop where
  through : before.Through False Step.Departs after
  journal : after.view.journal = (before.view.writeBack? key).toList ++ before.view.journal

theorem Leaves.departure {key : Nat × Nat} {before after : Machine} (leaves : Leaves key before after)
    (sound : before.Sound False) : Departure before key after := by
  cases leaves with
  | evicted evictable ran =>
      obtain ⟨⟨window, holds⟩, free⟩ := evictable
      have departed : before.Departed False key after :=
        Ensures.of_leads ran fun _ => (evict_spec sound holds free).mono (fun _ _ known => known.1)
          (fun _ _ known => known.1.departed) fun _ _ _ => trivial
      exact ⟨departed.through.mono fun _ => Step.Evicts.departs, departed.journal⟩
  | dropped live ran =>
      refine Ensures.of_leads ran fun _ => (removePage_spec sound live).mono ?_ ?_
        fun _ _ _ => trivial
      · exact fun _ _ removed =>
          ⟨removed.through.mono fun _ => Step.Unmaps.departs, removed.journal⟩
      · exact fun _ _ failed =>
          ⟨failed.1.through.mono fun _ => Step.Unmaps.departs, failed.1.journal⟩

end Machine

/-! ## Parts -/

inductive Part where
  | stretch (steps : List Step)
  | departure (key : Nat × Nat) (before after : Machine)

def Part.write? : Part → Option WriteRequest
  | stretch _ => none
  | departure key before _ => before.view.writeBack? key

/-- A machine goes through some parts, the latest first. -/
inductive Course (kind : Step → Prop) (first : Machine) : List Part → Machine → Prop where
  | start : Course kind first [] first
  | stretch {parts : List Part} {steps : List Step} {middle after : Machine}
      (earlier : Course kind first parts middle) (moves : Machine.Moves False middle steps after)
      (kinds : ∀ step ∈ steps, kind step) : Course kind first (.stretch steps :: parts) after
  | departure {parts : List Part} {key : Nat × Nat} {middle after : Machine}
      (earlier : Course kind first parts middle) (leaves : Machine.Leaves key middle after) :
      Course kind first (.departure key middle after :: parts) after

namespace Course

variable {kind wider : Step → Prop} {first middle last : Machine} {parts more : List Part}

theorem mono (course : Course kind first parts last) (implied : ∀ step, kind step → wider step) :
    Course wider first parts last := by
  induction course with
  | start => exact .start
  | stretch _ moves kinds ih =>
      exact .stretch ih moves fun step member => implied step (kinds step member)
  | departure _ leaves ih => exact .departure ih leaves

theorem append (front : Course kind first parts middle) (back : Course kind middle more last) :
    Course kind first (more ++ parts) last := by
  induction back with
  | start => exact front
  | stretch _ moves kinds ih => exact .stretch ih moves kinds
  | departure _ leaves ih => exact .departure ih leaves

theorem through (course : Course kind first parts last) (sound : first.Sound False) :
    first.Through False (fun step => kind step ∨ step.Departs) last := by
  induction course with
  | start => exact .refl sound.shaped
  | stretch _ moves kinds ih =>
      exact ih.trans ⟨_, moves, fun step member => .inl (kinds step member)⟩
  | departure _ leaves ih =>
      exact ih.trans ((leaves.departure (sound.through ih)).through.mono fun _ => .inr)

theorem sound (course : Course kind first parts last) (sound : first.Sound False) :
    last.Sound False :=
  sound.through (course.through sound)

theorem live_eq (course : Course kind first parts last) (sound : first.Sound False)
    (inner : ∀ step, kind step → step.Inner) : last.view.live = first.view.live :=
  (course.through sound).live_eq fun step known => known.elim (inner step) Step.Departs.inner

/-- Files are written to only by the pages that leave. -/
theorem journal (course : Course kind first parts last) (sound : first.Sound False)
    (silent : ∀ step, kind step → step.request? = none) :
    last.view.journal = parts.filterMap Part.write? ++ first.view.journal := by
  induction course with
  | start => rfl
  | @stretch parts steps middle after _ moves kinds ih =>
      have none : steps.filterMap Step.request? = [] :=
        List.filterMap_eq_nil_iff.mpr fun step member => silent step (kinds step member)
      rw [moves.path.journal, none, ih]
      rfl
  | @departure parts key middle after earlier leaves ih =>
      rw [(leaves.departure (earlier.sound sound)).journal, ih]
      cases asked : middle.view.writeBack? key <;>
        simp [Part.write?, asked]

theorem before_departure (course : Course kind first parts last) {late early : List Part}
    {key : Nat × Nat} {before after : Machine}
    (split : parts = late ++ .departure key before after :: early) :
    Course kind first early before := by
  induction course generalizing late with
  | start => simp at split
  | stretch earlier moves kinds ih =>
      cases late with
      | nil => cases split
      | cons part rest => exact ih (List.cons.inj split).2
  | departure earlier leaves ih =>
      cases late with
      | nil =>
          cases split
          exact earlier
      | cons part rest => exact ih (List.cons.inj split).2

end Course

/-! ## Pages that have been written to -/

def Step.touch (touched : Nat × Nat → Bool) : Step → Nat × Nat → Bool
  | .kernelWrite key _ _ _ | .userWrite key _ _ _ => Function.update touched key true
  | .stain key on => if on then Function.update touched key true else touched
  | .bringIn key _ _ => Function.update touched key false
  | _ => touched

def Part.touch (touched : Nat × Nat → Bool) : Part → Nat × Nat → Bool
  | stretch steps => steps.foldl Step.touch touched
  | departure _ _ _ => touched

def touched (parts : List Part) : Nat × Nat → Bool :=
  parts.foldr (fun part touched => part.touch touched) fun _ => false

def View.Noted (view : View) (touched : Nat × Nat → Bool) : Prop :=
  ∀ ⦃key frame window⦄, view.Holds key frame window → view.modified key frame = true →
    touched key = true

theorem touch_of_departs {steps : List Step} (departs : ∀ step ∈ steps, step.Departs)
    (touched : Nat × Nat → Bool) : steps.foldl Step.touch touched = touched := by
  induction steps with
  | nil => rfl
  | cons step rest ih =>
      obtain ⟨here, there⟩ := List.forall_mem_cons.mp departs
      have same : step.touch touched = touched := by
        cases step <;> first | rfl | exact here.elim
      rw [List.foldl_cons, same, ih there]

namespace View.Noted

variable {strict : Prop} {view last : View} {noted : Nat × Nat → Bool} {step : Step}
  {steps : List Step}

theorem after (known : view.Noted noted) (consistent : view.Consistent)
    (permitted : view.Permits strict step) : (view.after step).Noted (step.touch noted) := by
  intro key frame window holds modified
  rcases consistent.modified_before permitted holds modified with ⟨before, was⟩ | marks
  · have old := known before was
    cases step with
    | kernelWrite other | userWrite other =>
        by_cases same : key = other <;> simp [Step.touch, same, old]
    | stain other on =>
        cases on with
        | true => by_cases same : key = other <;> simp [Step.touch, same, old]
        | false => exact old
    | bringIn other place residence =>
        -- A page that has just come in is not modified, and so this is another one.
        have distinct : key ≠ other := by
          rintro rfl
          obtain ⟨⟨dirty, found⟩, away, -⟩ := permitted
          obtain ⟨dirty', found'⟩ := before
          cases found.symm.trans found'
          cases away
        exact (Function.update_of_ne distinct ..).trans old
    | _ => exact old
  · cases step with
    | kernelWrite | userWrite =>
        cases marks
        exact Function.update_self ..
    | stain =>
        obtain ⟨rfl, rfl⟩ := marks
        exact Function.update_self ..
    | _ => exact marks.elim

theorem path (path : Path strict view steps last) (known : view.Noted noted)
    (consistent : view.Consistent) : last.Noted (steps.foldl Step.touch noted) := by
  induction path generalizing noted with
  | nil => exact known
  | cons permitted later ih => exact ih (known.after consistent permitted) (consistent.after permitted)

end View.Noted

theorem Course.noted {kind : Step → Prop} {first last : Machine} {parts earlier : List Part}
    (course : Course kind first parts last) (sound : first.Sound False)
    (known : first.view.Noted (touched earlier)) : last.view.Noted (touched (parts ++ earlier)) := by
  induction course with
  | start => exact known
  | stretch before moves kinds ih => exact .path moves.path ih (before.sound sound).consistent
  | departure before leaves ih =>
      obtain ⟨steps, moves, departs⟩ := (leaves.departure (before.sound sound)).through
      have later := View.Noted.path moves.path ih (before.sound sound).consistent
      rwa [touch_of_departs departs] at later

end DemandPaging
