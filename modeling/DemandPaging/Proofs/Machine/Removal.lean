import DemandPaging.Proofs.Destruction

namespace DemandPaging

/-! ## Saves in turn -/

namespace Storage

/-- Each page is saved where the save before it has left the files, whatever came of that. -/
inductive SavedInTurn : List (FileWindow × Page) → Storage → List (Except PagingError Unit) →
    Storage → Prop where
  | nil {storage : Storage} : SavedInTurn [] storage [] storage
  | cons {window : FileWindow} {contents : Page} {rest : List (FileWindow × Page)}
      {before middle after : Storage} {outcome : Except PagingError Unit}
      {outcomes : List (Except PagingError Unit)} {log log' : Array Event}
      (first : ((save window contents).attempt : Action PagingError Storage _) ⟨before, log⟩ =
        .ok outcome ⟨middle, log'⟩)
      (later : SavedInTurn rest middle outcomes after) :
      SavedInTurn ((window, contents) :: rest) before (outcome :: outcomes) after

def firstFailure : List (Except PagingError Unit) → Except PagingError Unit
  | [] => .ok ()
  | .ok _ :: rest => firstFailure rest
  | .error cause :: _ => .error cause

def Settled (saves : List (FileWindow × Page)) (before after : Storage)
    (outcome : Except PagingError Unit) : Prop :=
  ∃ outcomes, SavedInTurn saves before outcomes after ∧ firstFailure outcomes = outcome

/-- Pages are saved in turn until a save panics. -/
def Broken (saves : List (FileWindow × Page)) (before after : Storage) (cause : Panic) : Prop :=
  ∃ (early late : List (FileWindow × Page)) (window : FileWindow) (contents : Page)
    (outcomes : List (Except PagingError Unit)) (middle : Storage) (log log' : Array Event),
    saves = early ++ (window, contents) :: late ∧ SavedInTurn early before outcomes middle ∧
      save window contents ⟨middle, log⟩ = .error (.panicked cause) ⟨after, log'⟩

variable {saves more : List (FileWindow × Page)} {before middle after : Storage}
  {outcome later : Except PagingError Unit} {cause : Panic}

theorem SavedInTurn.append {outcomes others : List (Except PagingError Unit)}
    (first : SavedInTurn saves before outcomes middle)
    (second : SavedInTurn more middle others after) :
    SavedInTurn (saves ++ more) before (outcomes ++ others) after := by
  induction first with
  | nil => exact second
  | cons saved _ ih => exact .cons saved (ih second)

theorem firstFailure_append (outcomes others : List (Except PagingError Unit)) :
    firstFailure (outcomes ++ others) = (do firstFailure outcomes; firstFailure others) := by
  induction outcomes with
  | nil => rfl
  | cons outcome rest ih =>
      cases outcome with
      | ok => exact ih
      | error => rfl

theorem Settled.nil : Settled [] before before (.ok ()) := ⟨[], .nil, rfl⟩

theorem Settled.append (first : Settled saves before middle outcome)
    (second : Settled more middle after later) :
    Settled (saves ++ more) before after (do outcome; later) := by
  obtain ⟨outcomes, saved, rfl⟩ := first
  obtain ⟨others, savedLater, rfl⟩ := second
  exact ⟨outcomes ++ others, saved.append savedLater, firstFailure_append outcomes others⟩

theorem Broken.append_left (broken : Broken saves before after cause)
    (more : List (FileWindow × Page)) : Broken (saves ++ more) before after cause := by
  obtain ⟨early, late, window, contents, outcomes, middle, log, log', rfl, saved, panicked⟩ := broken
  exact ⟨early, late ++ more, window, contents, outcomes, middle, log, log', by simp, saved, panicked⟩

theorem Settled.broken (first : Settled saves before middle outcome)
    (broken : Broken more middle after cause) : Broken (saves ++ more) before after cause := by
  obtain ⟨outcomes, saved, -⟩ := first
  obtain ⟨early, late, window, contents, others, there, log, log', rfl, savedLater, panicked⟩ := broken
  exact ⟨saves ++ early, late, window, contents, outcomes ++ others, there, log, log', by simp,
    saved.append savedLater, panicked⟩

theorem save_settles (window : FileWindow) (contents : Page) (start : Traced Storage) :
    (save window contents).Ensures start
      (fun _ after => Settled [(window, contents)] start.state after.state (.ok ()))
      (fun cause after => Settled [(window, contents)] start.state after.state (.error cause))
      fun cause after => Broken [(window, contents)] start.state after.state cause := by
  refine (Action.ensures_self (save window contents) start).mono ?_ ?_ ?_
  · intro value after ran
    have tried : ((save window contents).attempt : Action PagingError Storage _) start =
        .ok (.ok value) after := by
      simp only [Action.attempt, ran]
    exact ⟨[.ok value], .cons tried .nil, rfl⟩
  · intro cause after ran
    have tried : ((save window contents).attempt : Action PagingError Storage _) start =
        .ok (.error cause) after := by
      simp only [Action.attempt, ran]
    exact ⟨[.error cause], .cons tried .nil, rfl⟩
  · intro cause after ran
    exact ⟨[], [], window, contents, [], start.state, start.log, after.log, rfl, .nil, ran⟩

/-! ## Saves that panic -/

structure Reaches (before after : Storage) : Prop where
  formed : before.Formed → after.Formed
  layouts : ∀ {file layout}, before.layout file = some layout →
    ∃ later, after.layout file = some later ∧ layout.length ≤ later.length

theorem reaches_refl (storage : Storage) : storage.Reaches storage :=
  ⟨id, fun there => ⟨_, there, Nat.le_refl _⟩⟩

theorem Reaches.trans (first : before.Reaches middle) (second : middle.Reaches after) :
    before.Reaches after := by
  refine ⟨fun formed => second.formed (first.formed formed), fun there => ?_⟩
  obtain ⟨next, found, long⟩ := first.layouts there
  obtain ⟨last, found', longer⟩ := second.layouts found
  exact ⟨last, found', long.trans longer⟩

theorem Wrote.reaches {file offset count : Nat} {layout : Layout} {data : Bytes}
    (wrote : before.Wrote after file layout offset data count)
    (there : before.layout file = some layout) : before.Reaches after := by
  refine ⟨wrote.formed, fun {other found} known => ?_⟩
  rw [wrote.layouts, Function.update_apply]
  split
  · rename_i same
    rw [same, there] at known
    cases known
    exact ⟨_, rfl, Layout.length_le_grown ..⟩
  · exact ⟨found, known, Nat.le_refl _⟩

theorem save_reaches (window : FileWindow) (contents : Page) (start : Traced Storage) :
    (save window contents).Ensures start (fun _ after => start.state.Reaches after.state)
      (fun _ after => start.state.Reaches after.state) fun _ _ => True := by
  refine (save_spec window contents).mono ?_ ?_ fun _ _ _ => trivial
  · rintro _ after (⟨-, same⟩ | ⟨-, layout, there, wrote⟩)
    · rw [same]
      exact reaches_refl _
    · exact wrote.reaches there
  · rintro _ after ⟨-, -, layout, count, there, -, wrote⟩
    exact wrote.reaches there

theorem SavedInTurn.reaches {outcomes : List (Except PagingError Unit)}
    (saved : SavedInTurn saves before outcomes after) : before.Reaches after := by
  induction saved with
  | nil => exact reaches_refl _
  | @cons window contents _ before _ _ _ _ log _ first _ ih =>
      refine Reaches.trans ?_ ih
      have tried : ((save window contents).attempt : Action PagingError Storage _).Ensures
          ⟨before, log⟩ (fun _ after => before.Reaches after.state)
          (fun _ _ => False) fun _ _ => True := by
        rw [Action.ensures_attempt]
        exact save_reaches window contents _
      exact tried.returned first

/-- If the files have room for all windows, a save panics only for want of a count. -/
theorem Broken.worn (broken : Broken saves before after cause) (formed : before.Formed)
    (fits : ∀ saved ∈ saves, saved.1.length = 0 ∨ ∃ layout,
      before.layout saved.1.file = some layout ∧ saved.1.offset + saved.1.length ≤ layout.length) :
    cause = .countOverflow ∧ after.Worn := by
  obtain ⟨early, late, window, contents, outcomes, middle, log, log', rfl, saved, panicked⟩ := broken
  have reaches := saved.reaches
  refine ((save_spec window contents).panicked panicked) (reaches.formed formed) ?_
  refine (fits (window, contents) (by simp)).imp_right ?_
  rintro ⟨layout, there, inside⟩
  obtain ⟨later, found, long⟩ := reaches.layouts there
  exact ⟨later, found, inside.trans long⟩

end Storage

namespace Machine

open DemandPaging.Action

variable {machine after : Machine} {log : Array Event} {id page frame : Nat}

/-! ## One page -/

theorem vacate_storage : (vacate id page frame).Keeps
    fun before after => after.store.storage = before.store.storage := by
  have chained : Chained fun before after : Machine =>
      after.store.storage = before.store.storage :=
    ⟨fun _ => rfl, fun first second => second.trans first⟩
  exact vacate_keeps chained (fun _ _ => rfl) fun _ => rfl

theorem leave_saves (shaped : machine.Shaped False) (live : machine.view.live id = true)
    (aligned : Aligned page) (user : IsUser page) {holder : Holder}
    (held : machine.view.holder frame = some holder) (outcome : Except PagingError Unit) :
    (do vacate id page frame; orFail outcome : Action PagingError Machine Unit).Ensures ⟨machine, log⟩
      (fun _ (after : Traced Machine) =>
        outcome = .ok () ∧ after.state.store.storage = machine.store.storage)
      (fun cause (after : Traced Machine) =>
        outcome = .error cause ∧ after.state.store.storage = machine.store.storage)
      fun _ _ => False := by
  rw [ensures_bind]
  refine Ensures.mono ((vacate_spec shaped live aligned user held).and (vacate_storage _)) ?_
    (fun _ _ never => never.1.elim) fun _ _ never => never.1.elim
  rintro _ after ⟨-, same⟩
  rw [ensures_orFail]
  cases outcome with
  | ok => exact ⟨rfl, same⟩
  | error => exact ⟨rfl, same⟩

theorem shaped_withStorage {strict : Prop} (shaped : machine.Shaped strict) (storage : Storage) :
    (machine.withStorage storage).Shaped False :=
  { shaped.unformed with formed := False.elim }

theorem dropFrame_saves (sound : machine.Sound False) {window : Option FileWindow} {wasDirty : Bool}
    (recorded : machine.view.record (id, page) = some ⟨.inFrame frame window, wasDirty⟩)
    {removed : Machine} (seen : removed.view = machine.view.put (id, page) none)
    (shaped : removed.Shaped False) :
    (dropPage id page ⟨.inFrame frame window, wasDirty⟩).Ensures ⟨removed, log⟩
      (fun _ (after : Traced Machine) => Storage.Settled (machine.view.unsaved? (id, page)).toList
        removed.store.storage after.state.store.storage (.ok ()))
      (fun cause (after : Traced Machine) =>
        Storage.Settled (machine.view.unsaved? (id, page)).toList
          removed.store.storage after.state.store.storage (.error cause))
      (fun cause (after : Traced Machine) =>
        Storage.Broken (machine.view.unsaved? (id, page)).toList
          removed.store.storage after.state.store.storage cause) := by
  obtain ⟨live, aligned, user⟩ := sound.live recorded
  obtain ⟨pins, written, held⟩ := sound.consistent.exists_holder ⟨wasDirty, recorded⟩
  have leaves {saves : List (FileWindow × Page)} {outcome : Except PagingError Unit}
      {storage : Storage} {log : Array Event}
      (settled : Storage.Settled saves removed.store.storage storage outcome) :
      (do vacate id page frame; orFail outcome : Action PagingError Machine Unit).Ensures
        ⟨removed.withStorage storage, log⟩
        (fun _ (after : Traced Machine) =>
          Storage.Settled saves removed.store.storage after.state.store.storage (.ok ()))
        (fun cause (after : Traced Machine) =>
          Storage.Settled saves removed.store.storage after.state.store.storage (.error cause))
        (fun cause (after : Traced Machine) =>
          Storage.Broken saves removed.store.storage after.state.store.storage cause) := by
    have liveHere : (removed.withStorage storage).view.live id = true := by
      change removed.view.live id = true
      rw [seen]
      exact live
    have heldHere : (removed.withStorage storage).view.holder frame =
        some ⟨id, page, pins, written⟩ := by
      change removed.view.holder frame = _
      rw [seen]
      exact held
    refine Ensures.mono (leave_saves (shaped_withStorage shaped storage) liveHere aligned user heldHere
      outcome) ?_ ?_ fun _ _ never => never.elim
    · rintro _ after ⟨rfl, same⟩
      rw [same]
      exact settled
    · rintro cause after ⟨rfl, same⟩
      rw [same]
      exact settled
  rw [ensures_dropFrame sound recorded seen]
  cases window with
  | none =>
      dsimp only
      rw [ensures_bind, ensures_pure, View.unsaved?, recorded]
      exact leaves .nil
  | some window =>
      dsimp only
      rw [View.unsaved?, recorded]
      dsimp only
      split
      · rw [ensures_bind, ensures_attempt, ensures_onStorage]
        exact Ensures.mono (Storage.save_settles window _ _) (fun _ _ settled => leaves settled)
          (fun _ _ settled => leaves settled) fun _ _ broken => broken
      · rw [ensures_bind, ensures_pure]
        exact leaves .nil

theorem removePage_saves (sound : machine.Sound False) (live : machine.view.live id = true) :
    (removePage id page).Ensures ⟨machine, log⟩
      (fun _ (after : Traced Machine) => Storage.Settled (machine.view.unsaved? (id, page)).toList
        machine.store.storage after.state.store.storage (.ok ()))
      (fun cause (after : Traced Machine) =>
        Storage.Settled (machine.view.unsaved? (id, page)).toList
          machine.store.storage after.state.store.storage (.error cause))
      (fun cause (after : Traced Machine) =>
        Storage.Broken (machine.view.unsaved? (id, page)).toList
          machine.store.storage after.state.store.storage cause) := by
  obtain ⟨space, found⟩ := exists_space live
  simp only [removePage, ensures_bind, ensures_space found, ← record_eq found]
  rcases recorded : machine.view.record (id, page) with _ | ⟨residence, dirty⟩
  · rw [View.unsaved?, recorded]
    exact .nil
  have gone : (onCatalog id (Action.update (·.remove page)) :
      Action PagingError Machine Unit).Ensures ⟨machine, log⟩ _ _ _ :=
    removeRecord_spec sound.shaped live
  dsimp only
  rw [ensures_onCatalog found, ensures_update] at gone
  rw [ensures_bind, ensures_onCatalog found, ensures_update]
  obtain ⟨seen, shaped⟩ := gone
  cases residence with
  | inFrame frame window => exact dropFrame_saves sound recorded seen shaped
  | inSwap slot =>
      have taken : machine.view.used slot = true :=
        sound.consistent.stored.mpr ⟨(id, page), by simp [View.slotOf, recorded, Residence.slot?]⟩
      rw [View.unsaved?, recorded, dropPage, ensures_onSwap]
      exact Ensures.mono (SwapArea.release_spec shaped.slots taken) (fun _ _ _ => .nil)
        (fun _ _ never => never.elim) fun _ _ never => never.elim
  | untouched | inFile =>
      rw [View.unsaved?, recorded]
      exact .nil

/-! ## Mappings -/

def SameRegions (before after : Machine) : Prop :=
  after.view.region = before.view.region ∧ after.view.nextRegion = before.view.nextRegion

theorem chained_sameRegions : Chained SameRegions :=
  ⟨fun _ => ⟨rfl, rfl⟩,
    fun first second => ⟨second.1.trans first.1, second.2.trans first.2⟩⟩

theorem sameRegions_withSpace {space next : Space} (found : machine.store.spaces[id]? = some space)
    (regions : next.regions = space.regions) (number : next.nextRegion = space.nextRegion) :
    machine.SameRegions (machine.withSpace id next) := by
  rw [SameRegions, view_withSpace found, regions, number]
  exact ⟨within_space_self fun _ => region_eq found,
    Function.update_eq_self_iff.mpr (nextRegion_eq found).symm⟩

theorem removePage_regions : (removePage id page).Keeps SameRegions := by
  have edits (action : Action PagingError Catalog Unit) : (onCatalog id action).Keeps SameRegions := by
    have inner : (action.within (fun space : Space => .ok space.catalog) fun space catalog =>
        { space with catalog := catalog }).Keeps fun space next =>
          next.regions = space.regions ∧ next.nextRegion = space.nextRegion := by
      intro before
      rw [ensures_within]
      exact (keeps_of_forall (fun _ _ => trivial) action _).mono (fun _ _ _ => ⟨rfl, rfl⟩)
        (fun _ _ _ => ⟨rfl, rfl⟩) fun _ _ _ => trivial
    exact onSpace_keeps inner fun found same => sameRegions_withSpace found same.1 same.2
  have looks : (Machine.space id : Action PagingError Machine Space).Keeps SameRegions :=
    (keeps_look chained_sameRegions).bind chained_sameRegions fun _ =>
      keeps_orPanic chained_sameRegions _
  refine looks.bind chained_sameRegions fun space => ?_
  split
  · refine (edits _).bind chained_sameRegions fun _ => ?_
    refine dropPage_keeps chained_sameRegions (fun _ _ => ?_) (fun frame _ => ?_) fun slot => ?_
    · exact onStorage_keeps fun _ _ => ⟨rfl, rfl⟩
    · exact vacate_keeps chained_sameRegions (fun _ found => sameRegions_withSpace found rfl rfl)
        fun _ => ⟨rfl, rfl⟩
    · exact releaseSlot_keeps ⟨rfl, rfl⟩ slot
  · exact keeps_pure chained_sameRegions ()

theorem removeAll_keeps {relation : Machine → Machine → Prop} (chained : Chained relation)
    (kept : ∀ page, (removePage id page).Keeps relation) (pages : List Nat) :
    (removeAll id pages).Keeps relation := by
  induction pages with
  | nil => exact keeps_pure chained ()
  | cons page rest ih =>
      exact (kept page).attempt.bind chained fun _ => ih.attempt.bind chained fun _ =>
        (keeps_orFail chained _).bind chained fun _ => keeps_orFail chained _

/-! ## All pages of a list -/

structure Dropped (id : Nat) (pages : List Nat) (outcome : Except PagingError Unit)
    (before after : Machine) : Prop where
  through : before.Through False (Step.Unmaps id (· ∈ pages) False) after
  apart : before.Apart id
    (fun frame => ∃ page ∈ pages, before.view.frameOf (id, page) = some frame) after
  record : ∀ key, after.view.record key =
    if key.1 = id ∧ key.2 ∈ pages then none else before.view.record key
  translation : ∀ key, after.view.translation key =
    if key.1 = id ∧ key.2 ∈ pages then none else before.view.translation key
  saves : Storage.Settled (pages.filterMap fun page => before.view.unsaved? (id, page))
    before.store.storage after.store.storage outcome

theorem filterMap_cons_eq {α β : Type} (f : α → Option β) (first : α) (rest : List α) :
    (first :: rest).filterMap f = (f first).toList ++ rest.filterMap f := by
  cases here : f first <;> simp [here]

theorem none_of_mem_cons {α : Type} (rest : List Nat) (key : Nat × Nat) (value : Option α) :
    (if key.1 = id ∧ key.2 ∈ rest then none else if key = (id, page) then none else value) =
      if key.1 = id ∧ key.2 ∈ page :: rest then none else value := by
  obtain ⟨owner, other⟩ := key
  by_cases mine : owner = id <;> by_cases here : other = page <;> simp [mine, here]

section Step

variable {middle : Machine} {rest : List Nat} {safe : Prop} {first later : Except PagingError Unit}

theorem Removed.unsaved?_rest (sound : machine.Sound False)
    (removed : machine.Removed False id page safe middle)
    (apart : machine.Apart id (fun frame => machine.view.frameOf (id, page) = some frame) middle)
    (new : page ∉ rest) :
    (page :: rest).filterMap (fun page => machine.view.unsaved? (id, page)) =
      (machine.view.unsaved? (id, page)).toList ++
        rest.filterMap fun page => middle.view.unsaved? (id, page) := by
  rw [filterMap_cons_eq]
  congr 1
  refine List.filterMap_congr fun other member => (removed.unsaved?_eq sound apart ?_).symm
  rintro ⟨⟩
  exact new member

theorem Dropped.cons (sound : machine.Sound False)
    (removed : machine.Removed False id page safe middle)
    (apart : machine.Apart id (fun frame => machine.view.frameOf (id, page) = some frame) middle)
    (settled : Storage.Settled (machine.view.unsaved? (id, page)).toList machine.store.storage
      middle.store.storage first)
    (new : page ∉ rest) (dropped : middle.Dropped id rest later after) :
    machine.Dropped id (page :: rest) (do first; later) after where
  through := by
    refine Through.trans (removed.through.mono fun _ unmaps => ?_)
      (dropped.through.mono fun _ unmaps => ?_)
    · exact unmaps.mono False.elim fun _ same => same ▸ List.mem_cons_self
    · exact unmaps.mono False.elim fun _ member => List.mem_cons_of_mem _ member
  apart := by
    refine chained_apart.trans (apart.mono fun frame here => ⟨page, List.mem_cons_self, here⟩)
      (dropped.apart.mono fun frame => ?_)
    rintro ⟨other, member, there⟩
    rw [View.frameOf, removed.record, Function.update_apply] at there
    split at there
    · cases there
    · exact ⟨other, List.mem_cons_of_mem _ member, there⟩
  record key := by
    rw [dropped.record, removed.record, Function.update_apply, none_of_mem_cons]
  translation key := by
    rw [dropped.translation, removed.translation, Function.update_apply, none_of_mem_cons]
  saves := by
    rw [removed.unsaved?_rest sound apart new]
    exact settled.append dropped.saves

end Step

theorem removeAll_drops (sound : machine.Sound False) (live : machine.view.live id = true)
    {pages : List Nat} (once : pages.Nodup) :
    (removeAll id pages).Ensures ⟨machine, log⟩
      (fun _ (after : Traced Machine) => machine.Dropped id pages (.ok ()) after.state)
      (fun cause (after : Traced Machine) => machine.Dropped id pages (.error cause) after.state ∧
        ∃ failure, cause = .device failure)
      (fun cause (after : Traced Machine) =>
        Storage.Broken (pages.filterMap fun page => machine.view.unsaved? (id, page))
          machine.store.storage after.state.store.storage cause) := by
  induction pages generalizing machine log with
  | nil =>
      exact ⟨.refl sound.shaped, chained_apart.refl machine, by simp, by simp, .nil⟩
  | cons page rest ih =>
      obtain ⟨new, once⟩ := List.nodup_cons.mp once
      obtain ⟨space, found⟩ := exists_space live
      have goesOn (first : Except PagingError Unit) (middle : Traced Machine) (safe : Prop)
          (refused : ∀ cause, first = .error cause → ∃ failure, cause = .device failure)
          (removed : machine.Removed False id page safe middle.state)
          (apart : machine.Apart id (fun frame => machine.view.frameOf (id, page) = some frame)
            middle.state)
          (settled : Storage.Settled (machine.view.unsaved? (id, page)).toList
            machine.store.storage middle.state.store.storage first) :
          (do
            let later ← (removeAll id rest).attempt
            orFail first
            orFail later : Action PagingError Machine Unit).Ensures middle
            (fun _ (after : Traced Machine) =>
              machine.Dropped id (page :: rest) (.ok ()) after.state)
            (fun cause (after : Traced Machine) =>
              machine.Dropped id (page :: rest) (.error cause) after.state ∧
                ∃ failure, cause = .device failure)
            (fun cause (after : Traced Machine) => Storage.Broken
              ((page :: rest).filterMap fun page => machine.view.unsaved? (id, page))
              machine.store.storage after.state.store.storage cause) := by
        have through := removed.through
        have alive := through.live_of_unmaps live
        rw [ensures_bind, ensures_attempt]
        refine Ensures.mono (ih (sound.through through) alive once) ?_ ?_ ?_
        · rintro _ after dropped
          have both := Dropped.cons sound removed apart settled new dropped
          cases first with
          | ok => exact both
          | error cause => exact ⟨both, refused cause rfl⟩
        · rintro later after ⟨dropped, device⟩
          have both := Dropped.cons sound removed apart settled new dropped
          cases first with
          | ok => exact ⟨both, device⟩
          | error cause => exact ⟨both, refused cause rfl⟩
        · intro cause after broken
          rw [removed.unsaved?_rest sound apart new]
          exact settled.broken broken
      rw [removeAll, ensures_bind, ensures_attempt]
      refine Ensures.mono (((removePage_spec sound live).and (removePage_apart found)).and
        (removePage_saves sound live)) ?_ ?_ ?_
      · rintro _ middle ⟨⟨removed, apart⟩, settled⟩
        refine goesOn (.ok ()) middle True ?_ removed apart settled
        intro _ failed
        cases failed
      · rintro cause middle ⟨⟨⟨removed, refused⟩, apart⟩, settled⟩
        refine goesOn (.error cause) middle False ?_ removed apart settled
        rintro _ ⟨⟩
        exact refused
      · rintro cause after ⟨-, broken⟩
        rw [filterMap_cons_eq]
        exact broken.append_left _

end Machine

end DemandPaging
