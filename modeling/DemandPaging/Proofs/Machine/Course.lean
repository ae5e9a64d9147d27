import DemandPaging.Proofs.Course
import DemandPaging.Proofs.Keeps
import DemandPaging.Proofs.Machine.Hardware
import DemandPaging.Proofs.Machine.Lifetime

namespace DemandPaging

namespace Machine

open DemandPaging.Action

def Goes (kind : Step → Prop) (before after : Machine) : Prop :=
  ∃ parts, Course kind before parts after

variable {kind wider : Step → Prop} {machine middle after : Machine} {id page frame : Nat}

theorem Goes.refl (machine : Machine) : machine.Goes kind machine :=
  ⟨[], .start⟩

theorem Goes.trans (first : machine.Goes kind middle) (second : middle.Goes kind after) :
    machine.Goes kind after := by
  obtain ⟨parts, front⟩ := first
  obtain ⟨more, back⟩ := second
  exact ⟨more ++ parts, front.append back⟩

theorem Goes.mono (goes : machine.Goes kind after) (implied : ∀ step, kind step → wider step) :
    machine.Goes wider after := by
  obtain ⟨parts, course⟩ := goes
  exact ⟨parts, course.mono implied⟩

theorem Through.goes (through : machine.Through False kind after) : machine.Goes kind after := by
  obtain ⟨steps, moves, kinds⟩ := through
  exact ⟨_, .stretch .start moves kinds⟩

theorem Moves.goes {steps : List Step} (moves : Moves False machine steps after)
    (kinds : ∀ step ∈ steps, kind step) : machine.Goes kind after :=
  Through.goes ⟨steps, moves, kinds⟩

theorem Leaves.goes {key : Nat × Nat} (leaves : Leaves key machine after) : machine.Goes kind after :=
  ⟨_, .departure .start leaves⟩

theorem Cleared.goes (cleared : machine.Cleared False after) : machine.Goes kind after := by
  rcases cleared with rfl | ⟨chosen, victim, same, evictable, ran⟩
  · exact .refl _
  · have leaves : Leaves (victim.owner, victim.page) chosen after := .evicted evictable ran
    exact (Through.still same.view same.shaped).goes.trans leaves.goes

/-! ## Actions of a space -/

variable {writes : Nat × Nat → Prop} {adds : Nat × Nat → Residence → Prop}

def Proceeds (writes : Nat × Nat → Prop) (adds : Nat × Nat → Residence → Prop) (id : Nat)
    (before after : Machine) : Prop :=
  before.Sound False ∧ before.view.live id = true → before.Goes (Step.Calm writes adds) after

theorem chained_proceeds : Chained (Proceeds writes adds id) where
  refl machine _ := .refl machine
  trans := by
    rintro first middle last front back ⟨sound, live⟩
    obtain ⟨parts, course⟩ := front ⟨sound, live⟩
    refine Goes.trans ⟨parts, course⟩ (back ⟨course.sound sound, ?_⟩)
    rw [course.live_eq sound fun _ => Step.Calm.inner]
    exact live

theorem keeps_of_goes {ε α : Type} {action : Action ε Machine α}
    (goes : ∀ {machine : Machine} {log : Array Event}, machine.Sound False →
      machine.view.live id = true → action.Ensures ⟨machine, log⟩
        (fun _ after => machine.Goes (Step.Calm writes adds) after.state)
        (fun _ after => machine.Goes (Step.Calm writes adds) after.state) fun _ _ => True) :
    action.Keeps (Proceeds writes adds id) :=
  keeps_of_premise fun _ ready => goes ready.1 ready.2

theorem space_proceeds {ε : Type} (other : Nat) :
    (space other : Action ε Machine Space).Keeps (Proceeds writes adds id) :=
  (keeps_look chained_proceeds).bind chained_proceeds fun _ => keeps_orPanic chained_proceeds _

theorem contents_proceeds {ε : Type} :
    (contents frame : Action ε Machine Page).Keeps (Proceeds writes adds id) :=
  (keeps_look chained_proceeds).bind chained_proceeds fun _ => keeps_orPanic chained_proceeds _

/-! ## Faults -/

theorem pinFrame_proceeds {key : Nat × Nat} {window : Option FileWindow} {log : Array Event}
    (sound : machine.Sound False) (holds : machine.view.Holds key frame window) :
    (Paged.changePool (·.pin frame) : Action PagingError Machine Unit).Ensures ⟨machine, log⟩
      (fun _ after => machine.Goes (Step.Calm writes adds) after.state)
      (fun _ after => machine.Goes (Step.Calm writes adds) after.state) fun _ _ => True := by
  obtain ⟨pins, written, held⟩ := sound.consistent.exists_holder holds
  refine Ensures.mono (pinFrame_spec sound.shaped held) ?_ (fun _ _ never => never.elim)
    fun _ _ _ => trivial
  rintro _ after ⟨shaped, seen⟩
  refine (Moves.single (.pin key frame) ⟨window, holds⟩ ?_ shaped).goes (by simp [Step.Calm])
  rw [seen, View.after, held, Option.map_some]

theorem pinPage_proceeds : (pinPage id page).Keeps (Proceeds writes adds id) := by
  refine (keeps_insist chained_proceeds _).bind chained_proceeds fun _ => keeps_of_goes ?_
  intro machine log sound live
  obtain ⟨space, found⟩ := exists_space live
  simp only [ensures_bind, ensures_space found, ← record_eq found]
  rcases recorded : machine.view.record (id, page) with _ | ⟨residence, dirty⟩
  · exact .refl machine
  have comesIn (away : residence.frame? = none) : (bringIn id page residence).Ensures ⟨machine, log⟩
      (fun _ after => machine.Goes (Step.Calm writes adds) after.state)
      (fun _ after => machine.Goes (Step.Calm writes adds) after.state) fun _ _ => True := by
    refine Ensures.mono (bringIn_spec sound recorded away) ?_ ?_ fun _ _ _ => trivial
    · rintro frame after ⟨middle, cleared, -, last⟩
      exact cleared.goes.trans (last.goes (by simp [Step.Calm]))
    · rintro cause after ⟨refused | ⟨middle, frame, junk, cleared, -, last⟩, -⟩
      · exact Cleared.goes (.inr refused.evicted)
      · exact cleared.goes.trans (last.goes (by simp [Step.Calm]))
  cases residence with
  | inFrame frame window =>
      rw [ensures_bind]
      exact pinFrame_proceeds sound ⟨dirty, recorded⟩
  | untouched | inSwap | inFile => exact comesIn rfl

theorem faultIn_proceeds {address : Nat} : (faultIn id address).Keeps (Proceeds writes adds id) :=
  (keeps_require chained_proceeds _).bind chained_proceeds fun _ => pinPage_proceeds

theorem releasePin_proceeds {write : Option Bool} (clean : write.getD false = false) :
    (releasePin id page frame write).Keeps (Proceeds writes adds id) := by
  apply keeps_of_goes
  intro machine log sound live
  by_cases inside : machine.view.frameOf (id, page) = some frame
  · obtain ⟨window, holds⟩ := View.exists_holds inside
    obtain ⟨pins, written, held⟩ := sound.consistent.exists_holder holds
    exact Ensures.mono (giveBack_spec sound.shaped live holds held clean)
      (fun _ _ last => last.goes (by simp [Step.Calm])) (fun _ _ never => never.elim)
      fun _ _ _ => trivial
  · obtain ⟨space, found⟩ := exists_space live
    rw [frameOf_eq found] at inside
    rw [releasePin, ensures_bind, ensures_space found, if_neg inside]
    exact .refl machine

theorem resolveFault_proceeds {address : Nat} :
    (resolveFault id address).Keeps (Proceeds writes adds id) :=
  faultIn_proceeds.bind chained_proceeds fun _ => releasePin_proceeds rfl

theorem giveBackAll_proceeds {pinned : List (Nat × Nat)} :
    (pinned.forM fun (page, frame) => releasePin id page frame none).Keeps
      (Proceeds writes adds id) :=
  .forM chained_proceeds _ fun _ _ => releasePin_proceeds rfl

theorem pinAll_proceeds {pages : List Nat} {pinned : List (Nat × Nat)} :
    (pinAll id pages pinned).Keeps (Proceeds writes adds id) := by
  induction pages generalizing pinned with
  | nil => exact keeps_pure chained_proceeds _
  | cons page rest ih =>
      refine faultIn_proceeds.attempt.bind chained_proceeds fun outcome => ?_
      cases outcome with
      | ok frame => exact ih
      | error cause =>
          exact giveBackAll_proceeds.bind chained_proceeds fun _ => keeps_fail chained_proceeds _

theorem pinRange_proceeds {start length : Nat} :
    (pinRange id start length).Keeps (Proceeds writes adds id) :=
  (keeps_require chained_proceeds _).bind chained_proceeds fun _ =>
    (keeps_orPanic chained_proceeds _).bind chained_proceeds fun _ => pinAll_proceeds

theorem unpinFrame_proceeds :
    (Paged.changePool (·.unpin frame) : Action PagingError Machine Unit).Keeps
      (Proceeds writes adds id) := by
  apply keeps_of_goes
  intro machine log sound live
  cases held : machine.view.holder frame with
  | some holder =>
      obtain ⟨window, holds⟩ := exists_holds_of_holder sound held
      exact Ensures.mono (unpinFrame_spec sound holds) (fun _ _ last => last.goes (by simp [Step.Calm]))
        (fun _ _ never => never.elim) fun _ _ _ => trivial
  | none =>
      have vacant : machine.pool.occupant? frame = none := by
        simpa [view, Pool.holder] using held
      simp only [Paged.changePool, ensures_change, Pool.unpin, Pool.amend, vacant, bind, Except.bind]

theorem unpinRange_proceeds {start length : Nat} :
    (unpinRange id start length).Keeps (Proceeds writes adds id) :=
  (keeps_require chained_proceeds _).bind chained_proceeds fun _ =>
    (keeps_orPanic chained_proceeds _).bind chained_proceeds fun _ =>
      (space_proceeds id).bind chained_proceeds fun _ =>
        .forM chained_proceeds _ fun _ _ => unpinFrame_proceeds

/-! ## Copies -/

theorem takeSlice_proceeds {piece : Piece} :
    (takeSlice frame piece).Keeps (Proceeds writes adds id) :=
  contents_proceeds.bind chained_proceeds fun _ => keeps_orPanic chained_proceeds _

theorem readUser_proceeds {start length : Nat} :
    (readUser id start length).Keeps (Proceeds writes adds id) := by
  have visits (piece : Piece) :
      (visit id false takeSlice piece).Keeps (Proceeds writes adds id) :=
    faultIn_proceeds.bind chained_proceeds fun _ => takeSlice_proceeds.bind chained_proceeds fun _ =>
      (releasePin_proceeds rfl).bind chained_proceeds fun _ =>
        (keeps_orPanic chained_proceeds _).bind chained_proceeds fun _ => keeps_pure chained_proceeds _
  have loop : (forPieces id start length false takeSlice).Keeps (Proceeds writes adds id) :=
    (keeps_require chained_proceeds _).bind chained_proceeds fun _ =>
      (keeps_orPanic chained_proceeds _).bind chained_proceeds fun _ =>
        .mapM chained_proceeds _ fun piece _ => visits piece
  exact (keeps_insist chained_proceeds _).bind chained_proceeds fun _ =>
    loop.bind chained_proceeds fun _ => keeps_pure chained_proceeds _

theorem storePiece_proceeds {start : Nat} {data : Bytes} {piece : Piece}
    (user : IsUserRange start data.length) (within : piece.Within pageSize start data.length)
    (written : writes (id, pageOf piece.start)) :
    (visit id true (putSlice start data.toArray) piece).Keeps (Proceeds writes adds id) := by
  apply keeps_of_goes
  intro machine log sound live
  rw [ensures_visit user within]
  refine Ensures.mono ((faultIn_spec sound live).and
    (faultIn_proceeds ⟨machine, log⟩)) ?_ (fun _ _ failed => failed.2 ⟨sound, live⟩)
    fun _ _ _ => trivial
  rintro frame ⟨(resident : Machine), log⟩ ⟨⟨-, faulted⟩, proceeds⟩
  have soundResident := sound.through faulted.through
  obtain ⟨window, holds⟩ := faulted.holds
  obtain ⟨pins, touched, held⟩ := soundResident.consistent.exists_holder holds
  have alive : resident.view.live id = true := by
    rw [faulted.through.live]
    exact live
  unfold Ensures
  rw [putSlice_eq within (Pool.lt_size_of_holder held)]
  refine Ensures.mono (writeFrame_spec soundResident alive holds _ _) ?_
    (fun _ _ never => never.elim) fun _ _ _ => trivial
  intro _ after moves
  exact (proceeds ⟨sound, live⟩).trans (moves.goes (by simp [Step.Calm, written]))

theorem pageOf_mem_pagesIn {start length address : Nat} (user : IsUserRange start length)
    (late : start ≤ address) (early : address < start + length) :
    pageOf address ∈ pagesIn start length := by
  obtain ⟨span, covered⟩ := PageSpan.exists_covering user
  rw [pagesIn_eq covered, PageSpan.mem_pages_iff,
    PageSpan.contains_covering_iff covered (aligned_pageOf address)]
  have whole := pageOf_add_offset address
  have short := pageOffset_lt address
  omega

theorem writeUser_proceeds {start : Nat} {data : Bytes}
    (written : ∀ page ∈ pagesIn start data.length, writes (id, page)) :
    (writeUser id start data).Keeps (Proceeds writes adds id) := by
  by_cases user : IsUserRange start data.length
  · rw [writeUser_eq user]
    have stores : ((pieces pageSize start data.length).mapM
        (visit id true (putSlice start data.toArray))).Keeps (Proceeds writes adds id) := by
      refine .mapM chained_proceeds _ fun piece member =>
        storePiece_proceeds user (within_of_mem member) (written _ ?_)
      obtain ⟨late, early⟩ := piece_within_range member
      obtain ⟨positive, -⟩ := piece_within_block member
      exact pageOf_mem_pagesIn user late (by omega)
    exact stores.bind chained_proceeds fun _ => keeps_pure chained_proceeds _
  · intro before
    rw [writeUser, forPieces, ensures_bind, ensures_bind, ensures_require, if_neg user]
    exact chained_proceeds.refl _

/-! ## What the hardware does -/

theorem reach_proceeds : (reach id page).Keeps (Proceeds writes adds id) := by
  have mapped : (mappedFrame? id page : Action PagingError Machine (Option Nat)).Keeps
      (Proceeds writes adds id) :=
    (space_proceeds id).bind chained_proceeds fun _ => keeps_orPanic chained_proceeds _
  refine mapped.bind chained_proceeds fun _ => .ite
    (resolveFault_proceeds.bind chained_proceeds fun _ => mapped.bind chained_proceeds ?_)
    (mapped.bind chained_proceeds ?_)
  all_goals
    rintro (_ | frame)
    · exact fun _ => trivial
    · exact keeps_pure chained_proceeds _

theorem markAccessed_proceeds {ε : Type} {on : Bool} :
    (setFlag id page .accessed on : Action ε Machine Unit).Keeps (Proceeds writes adds id) :=
  keeps_of_goes fun sound live => Ensures.mono (markAccessed_spec sound.shaped live on)
    (fun _ _ same => (Through.still same.view same.shaped).goes) (fun _ _ never => never.elim)
    fun _ _ _ => trivial

theorem markDirty_proceeds {ε : Type} {on : Bool} (written : on = true → writes (id, page)) :
    (setFlag id page .dirty on : Action ε Machine Unit).Keeps (Proceeds writes adds id) :=
  keeps_of_goes fun sound live => Ensures.mono (markDirty_spec sound.shaped live on)
    (fun _ _ moves => moves.goes (by simpa [Step.Calm] using written))
    (fun _ _ never => never.elim) fun _ _ _ => trivial

theorem userLoad_proceeds {address length : Nat} :
    (userLoad id address length).Keeps (Proceeds writes adds id) :=
  reach_proceeds.bind chained_proceeds fun _ => markAccessed_proceeds.bind chained_proceeds fun _ =>
    contents_proceeds.bind chained_proceeds fun _ => keeps_pure chained_proceeds _

theorem userStore_proceeds {address : Nat} {data : Bytes} (written : writes (id, pageOf address)) :
    (userStore id address data).Keeps (Proceeds writes adds id) := by
  apply keeps_of_goes
  intro machine log sound live
  rw [userStore, ensures_bind]
  refine Ensures.mono ((reach_spec sound live (aligned_pageOf address)).and
    (reach_proceeds ⟨machine, log⟩)) ?_ (fun _ _ failed => failed.2 ⟨sound, live⟩)
    fun _ _ _ => trivial
  rintro frame ⟨(reached : Machine), log⟩ ⟨⟨user, settled, window, holds⟩, proceeds⟩
  have through := settled.through
  rw [ensures_bind]
  refine Ensures.mono (markAccessed_spec through.shaped (by rw [through.live]; exact live) true) ?_
    (fun _ _ never => never.elim) fun _ _ _ => trivial
  rintro _ ⟨(marked : Machine), log⟩ same
  have goes := (proceeds ⟨sound, live⟩).trans (Through.still same.view same.shaped).goes
  have holds' : marked.view.Holds (id, pageOf address) frame window := same.view ▸ holds
  refine Ensures.mono (storeFrame_spec ((sound.through through).same same) holds' _ _) ?_
    (fun _ _ never => never.elim) fun _ _ _ => trivial
  intro _ after moves
  exact goes.trans (moves.goes (by simp [Step.Calm, written]))

/-! ## Pages that are given up -/

theorem removePage_proceeds : (removePage id page).Keeps (Proceeds writes adds id) := by
  apply keeps_of_goes
  intro machine log sound live
  have leaves {after : Traced Machine} (ran : (removePage id page).Leads machine after.state) :
      machine.Goes (Step.Calm writes adds) after.state :=
    have dropped : Leaves (id, page) machine after.state := .dropped live ran
    dropped.goes
  exact Ensures.mono (removePage_spec sound live).leads (fun _ _ known => leaves known.2)
    (fun _ _ known => leaves known.2) fun _ _ _ => trivial

theorem removeAll_proceeds {pages : List Nat} : (removeAll id pages).Keeps (Proceeds writes adds id) := by
  induction pages with
  | nil => exact keeps_pure chained_proceeds _
  | cons page rest ih =>
      exact removePage_proceeds.attempt.bind chained_proceeds fun _ =>
        ih.attempt.bind chained_proceeds fun _ =>
          (keeps_orFail chained_proceeds _).bind chained_proceeds fun _ =>
            keeps_orFail chained_proceeds _

theorem unmapRange_proceeds {start length : Nat} :
    (unmapRange id start length).Keeps (Proceeds writes adds id) :=
  (keeps_require chained_proceeds _).bind chained_proceeds fun _ =>
    (keeps_orPanic chained_proceeds _).bind chained_proceeds fun _ =>
      (space_proceeds id).bind chained_proceeds fun _ =>
        (keeps_look chained_proceeds).bind chained_proceeds fun _ =>
          (keeps_require chained_proceeds _).bind chained_proceeds fun _ => removeAll_proceeds

theorem unmapFile_proceeds {number : Nat} :
    (unmapFile id number).Keeps (Proceeds writes adds id) := by
  have forgets : (onSpace id (Action.update (·.removeRegion number)) :
      Action PagingError Machine Unit).Keeps (Proceeds writes adds id) :=
    keeps_of_goes fun sound live => Ensures.mono (removeRegion_spec sound.shaped live)
      (fun _ _ moves => moves.goes (by simp [Step.Calm])) (fun _ _ never => never.elim)
      fun _ _ _ => trivial
  have ends (outcome : Except PagingError Unit) :
      (forget id number outcome).Keeps (Proceeds writes adds id) :=
    forgets.bind chained_proceeds fun _ => keeps_orFail chained_proceeds _
  refine (space_proceeds id).bind chained_proceeds fun space => ?_
  cases space.regions[number]? with
  | none => exact keeps_fail chained_proceeds _
  | some region =>
      refine unmapRange_proceeds.attempt.bind chained_proceeds fun outcome => ?_
      rcases outcome with cause | _
      · cases cause with
        | busy => exact keeps_fail chained_proceeds _
        | _ => exact ends _
      · exact ends _

theorem discardAll_proceeds {ε : Type} {pages : List Nat} :
    (discardAll id pages : Action ε Machine Unit).Keeps (Proceeds writes adds id) := by
  induction pages with
  | nil => exact keeps_pure chained_proceeds _
  | cons page rest ih =>
      refine removePage_proceeds.attempt.bind chained_proceeds fun outcome => ?_
      cases outcome with
      | ok =>
          have nothing : (pure () : Action ε Machine Unit).Keeps (Proceeds writes adds id) :=
            keeps_pure chained_proceeds _
          exact nothing.bind chained_proceeds fun _ => ih
      | error cause => exact (keeps_emit chained_proceeds _).bind chained_proceeds fun _ => ih

theorem emptySpace_proceeds {ε : Type} :
    (emptySpace id : Action ε Machine Unit).Keeps (Proceeds writes adds id) :=
  (space_proceeds id).bind chained_proceeds fun _ =>
    discardAll_proceeds.bind chained_proceeds fun _ => keeps_emit chained_proceeds _

end Machine

end DemandPaging
