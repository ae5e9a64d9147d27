import DemandPaging.Proofs.Machine.Course
import DemandPaging.Proofs.Run

namespace DemandPaging

namespace Operation

def Writes (operation : Operation) (key : Nat × Nat) : Prop :=
  match operation with
  | writeUser id start data => key.1 = id ∧ key.2 ∈ Machine.pagesIn start data.length
  | userStore id address _ => key = (id, pageOf address)
  | markDirty id page on => key = (id, page) ∧ on = true
  | _ => False

/-- What an operation does apart from pages that leave: it writes to its own pages only, and adds
what it is to add. -/
def Does (operation : Operation) (before : Machine) (step : Step) : Prop :=
  step.Inner → step.Calm operation.Writes fun key residence =>
    operation.space? = some key.1 ∧ operation.Adds before key.2 residence

open Machine DemandPaging.Action

variable {operation : Operation} {machine : Machine} {before after : Traced Machine}
  {outcome : Except PagingError Unit}

theorem goes_of_maps {id : Nat} {last : Machine} (named : operation.space? = some id)
    (through : machine.Through False (Step.Maps id (operation.Adds machine)) last) :
    machine.Goes (operation.Does machine) last := by
  refine (through.mono fun step maps _ => ?_).goes
  cases step with
  | install key residence =>
      obtain ⟨rfl, adds⟩ := maps
      exact ⟨named, adds⟩
  | enter => trivial
  | _ => exact maps.elim

theorem addPage_goes {id page : Nat} {residence : Residence} {log : Array Event}
    (named : operation.space? = some id) (sound : machine.Sound False)
    (live : machine.view.live id = true)
    (kind : residence = .untouched ∨ ∃ window, residence = .inFile window)
    (adds : operation.Adds machine page residence) :
    (addPage id page residence).Ensures ⟨machine, log⟩
      (fun _ after => machine.Goes (operation.Does machine) after.state)
      (fun _ after => machine.Goes (operation.Does machine) after.state) fun _ _ => True := by
  refine Ensures.mono (addPage_spec sound.shaped live
    (kind.imp_right fun ⟨window, same⟩ => ⟨window, same, False.elim⟩)) ?_ ?_ fun _ _ _ => trivial
  · exact fun _ _ moves => goes_of_maps named (moves.through ⟨rfl, adds⟩)
  · exact fun _ _ failed => (Through.still failed.1.view failed.1.shaped).goes

theorem goes_of_proceeds {id : Nat} {log : Array Event} {action : Action PagingError Machine Unit}
    (sound : machine.Sound False) (live : machine.view.live id = true)
    (proceeds : action.Keeps (Proceeds operation.Writes (fun key residence =>
      operation.space? = some key.1 ∧ operation.Adds machine key.2 residence) id)) :
    action.Ensures ⟨machine, log⟩
      (fun _ after => machine.Goes (operation.Does machine) after.state)
      (fun _ after => machine.Goes (operation.Does machine) after.state) fun _ _ => True :=
  (proceeds ⟨machine, log⟩).mono
    (fun _ _ known => (known ⟨sound, live⟩).mono fun _ calm _ => calm)
    (fun _ _ known => (known ⟨sound, live⟩).mono fun _ calm _ => calm) fun _ _ _ => trivial

theorem destroySpace_goes {id : Nat} {log : Array Event} (sound : machine.Sound False)
    (live : machine.view.live id = true) :
    (destroySpace id).perform.Ensures ⟨machine, log⟩
      (fun _ after => machine.Goes ((destroySpace id).Does machine) after.state)
      (fun _ after => machine.Goes ((destroySpace id).Does machine) after.state)
      fun _ _ => True := by
  have empties : (emptySpace id : Action PagingError Machine Unit).Ensures ⟨machine, log⟩
      (fun _ after => machine.Goes ((destroySpace id).Does machine) after.state)
      (fun _ after => machine.Goes ((destroySpace id).Does machine) after.state)
      fun _ _ => True :=
    goes_of_proceeds sound live emptySpace_proceeds
  rw [perform, Machine.destroySpace, ensures_bind]
  refine Ensures.mono ((emptySpace_spec sound live).and empties) ?_
    (fun _ _ failed => failed.1.elim) fun _ _ _ => trivial
  rintro _ ⟨(middle : Machine), log⟩ ⟨⟨through, empty⟩, goes⟩
  refine Ensures.mono (erase_spec (sound.through through) empty) ?_ (fun _ _ never => never.elim)
    fun _ _ _ => trivial
  exact fun _ _ moves => goes.trans (moves.goes (by simp [Does, Step.Inner]))

theorem perform_goes {log : Array Event} (sound : machine.Sound False)
    (addressed : operation.Addressed machine) :
    operation.perform.Ensures ⟨machine, log⟩
      (fun _ after => machine.Goes (operation.Does machine) after.state)
      (fun _ after => machine.Goes (operation.Does machine) after.state) fun _ _ => True := by
  cases operation with
  | createSpace limit refusals =>
      rw [perform, ensures_bind]
      refine Ensures.mono (createSpace_spec sound.shaped rfl) ?_ (fun _ _ never => never.elim)
        fun _ _ _ => trivial
      exact fun _ _ moves => moves.goes (by simp [Does, Step.Inner])
  | destroySpace id => exact destroySpace_goes sound (addressed id rfl)
  | addZeros id page => exact addPage_goes rfl sound (addressed id rfl) (.inl rfl) ⟨rfl, rfl⟩
  | addWindow id page file offset length =>
      rw [perform, ensures_bind, ensures_orPanic]
      cases made : FileWindow.make file offset length with
      | error cause => trivial
      | ok window =>
          exact addPage_goes rfl sound (addressed id rfl) (.inr ⟨window, rfl⟩)
            ⟨rfl, window, made, rfl⟩
  | mapFile id start file offset length =>
      rw [perform, ensures_bind]
      exact Ensures.mono (mapFile_spec sound (addressed id rfl))
        (fun _ _ through => goes_of_maps rfl through)
        (fun _ _ failed => goes_of_maps rfl failed.1) fun _ _ _ => trivial
  | unmapFile id number => exact goes_of_proceeds sound (addressed id rfl) unmapFile_proceeds
  | unmapRange id start length => exact goes_of_proceeds sound (addressed id rfl) unmapRange_proceeds
  | faultIn id address =>
      exact goes_of_proceeds sound (addressed id rfl)
        (faultIn_proceeds.bind chained_proceeds fun _ => keeps_pure chained_proceeds _)
  | resolveFault id address =>
      exact goes_of_proceeds sound (addressed id rfl) resolveFault_proceeds
  | pinRange id start length => exact goes_of_proceeds sound (addressed id rfl) pinRange_proceeds
  | unpinRange id start length =>
      exact goes_of_proceeds sound (addressed id rfl) unpinRange_proceeds
  | readUser id start length =>
      exact goes_of_proceeds sound (addressed id rfl)
        (readUser_proceeds.bind chained_proceeds fun _ => keeps_pure chained_proceeds _)
  | writeUser id start data =>
      exact goes_of_proceeds sound (addressed id rfl)
        (writeUser_proceeds fun page member => ⟨rfl, member⟩)
  | userLoad id address length =>
      exact goes_of_proceeds sound (addressed id rfl)
        (userLoad_proceeds.bind chained_proceeds fun _ => keeps_pure chained_proceeds _)
  | userStore id address data =>
      exact goes_of_proceeds sound (addressed id rfl) (userStore_proceeds rfl)
  | markAccessed id page on => exact goes_of_proceeds sound (addressed id rfl) markAccessed_proceeds
  | markDirty id page on =>
      exact goes_of_proceeds sound (addressed id rfl) (markDirty_proceeds fun set => ⟨rfl, set⟩)

theorem course (sound : before.state.Sound False) (addressed : operation.Addressed before.state)
    (ends : operation.Ends before outcome after) :
    ∃ parts, Course (operation.Does before.state) before.state parts after.state := by
  cases outcome with
  | ok value => exact (perform_goes sound addressed).returned ends
  | error cause => exact (perform_goes sound addressed).failed ends

end Operation

/-- A run of operations by some rule, told in parts, the latest first. -/
inductive Chronicle (rule : Machine → Operation → Machine → Prop) (first : Traced Machine) :
    List Part → Traced Machine → Prop where
  | start : Chronicle rule first [] first
  | next {parts more : List Part} {before after : Traced Machine} {operation : Operation}
      {outcome : Except PagingError Unit} (earlier : Chronicle rule first parts before)
      (allowed : rule before.state operation after.state)
      (ends : operation.Ends before outcome after)
      (course : Course (operation.Does before.state) before.state more after.state) :
      Chronicle rule first (more ++ parts) after

variable {rule : Machine → Operation → Machine → Prop} {first now : Traced Machine}
  {parts : List Part}

theorem Run.exists_chronicle (run : Run rule first now) (sound : first.state.Sound False)
    (addressed : ∀ before operation after, rule before operation after →
      operation.Addressed before) : ∃ parts, Chronicle rule first parts now := by
  induction run with
  | start => exact ⟨[], .start⟩
  | next earlier allowed ends ih =>
      obtain ⟨parts, chronicle⟩ := ih
      have soundHere := earlier.sound sound addressed False.elim
      obtain ⟨more, course⟩ := Operation.course soundHere (addressed _ _ _ allowed) ends
      exact ⟨more ++ parts, .next chronicle allowed ends course⟩

namespace Chronicle

theorem sound (chronicle : Chronicle rule first parts now) (sound : first.state.Sound False) :
    now.state.Sound False := by
  induction chronicle with
  | start => exact sound
  | next _ _ _ course ih => exact course.sound ih

theorem before_departure (chronicle : Chronicle rule first parts now) {late early : List Part}
    {key : Nat × Nat} {before after : Machine}
    (split : parts = late ++ .departure key before after :: early) :
    ∃ older recent start operation last, Chronicle rule first older start ∧
      rule start.state operation last ∧
      Course (operation.Does start.state) start.state recent before ∧ early = recent ++ older := by
  induction chronicle generalizing late with
  | start => simp at split
  | @next parts more start last operation outcome earlier allowed ends course ih =>
      rcases List.append_eq_append_iff.mp split with ⟨rest, -, old⟩ | ⟨recent, new, rest⟩
      · exact ih old
      · cases recent with
        | nil =>
            have old : parts = [] ++ .departure key before after :: early := rest.symm
            exact ih old
        | cons part recent =>
            obtain ⟨rfl, rfl⟩ := List.cons.inj rest
            exact ⟨parts, recent, start, operation, _, earlier, allowed,
              course.before_departure new, rfl⟩

end Chronicle

end DemandPaging
