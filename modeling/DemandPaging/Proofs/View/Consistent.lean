import DemandPaging.Proofs.View.Step

namespace DemandPaging

namespace View

def frameOf (view : View) (key : Nat × Nat) : Option Nat :=
  (view.record key).bind (·.residence.frame?)

def slotOf (view : View) (key : Nat × Nat) : Option Nat :=
  (view.record key).bind (·.residence.slot?)

def tenant (view : View) (frame : Nat) : Option (Nat × Nat) :=
  (view.holder frame).map fun holder => (holder.space, holder.page)

def target (view : View) (key : Nat × Nat) : Option Nat :=
  (view.translation key).map (·.frame)

structure Consistent (view : View) : Prop where
  placed : ∀ {key record}, view.record key = some record →
    view.live key.1 = true ∧ Aligned key.2 ∧ IsUser key.2
  settled : ∀ {key record}, view.record key = some record → record.dirty = true →
    ∃ frame, record.residence.frame? = some frame
  tenanted : ∀ {key frame}, view.frameOf key = some frame ↔ view.tenant frame = some key
  translated : ∀ key, view.target key = view.frameOf key
  stored : ∀ {slot}, view.used slot = true ↔ ∃ key, view.slotOf key = some slot
  apart : ∀ {key other slot}, view.slotOf key = some slot → view.slotOf other = some slot →
    key = other

variable {strict : Prop} {view : View} {key : Nat × Nat} {frame slot : Nat}

theorem Holds.frameOf {window : Option FileWindow} (holds : view.Holds key frame window) :
    view.frameOf key = some frame := by
  obtain ⟨dirty, found⟩ := holds
  simp [View.frameOf, found, Residence.frame?]

theorem frameOf_of_away {residence : Residence} {dirty : Bool}
    (recorded : view.record key = some ⟨residence, dirty⟩) (away : residence.frame? = none) :
    view.frameOf key = none := by
  simp [View.frameOf, recorded, away]

theorem Holds.ne_of_away {window : Option FileWindow} {other : Nat × Nat}
    (holds : view.Holds key frame window) (away : view.frameOf other = none) : key ≠ other := by
  rintro rfl
  rw [holds.frameOf] at away
  cases away

theorem exists_holds (found : view.frameOf key = some frame) :
    ∃ window, view.Holds key frame window := by
  simp only [View.frameOf, Option.bind_eq_some_iff] at found
  obtain ⟨⟨residence, dirty⟩, recorded, inside⟩ := found
  cases residence with
  | inFrame other window =>
      simp only [Residence.frame?, Option.some.injEq] at inside
      exact ⟨window, dirty, inside ▸ recorded⟩
  | untouched | inSwap | inFile => simp [Residence.frame?] at inside

theorem Consistent.exists_holder (consistent : view.Consistent) {window : Option FileWindow}
    (holds : view.Holds key frame window) :
    ∃ pins written, view.holder frame = some ⟨key.1, key.2, pins, written⟩ := by
  have tenant := consistent.tenanted.mp holds.frameOf
  simp only [View.tenant, Option.map_eq_some_iff] at tenant
  obtain ⟨⟨space, page, pins, written⟩, held, rfl⟩ := tenant
  exact ⟨pins, written, held⟩

theorem Consistent.unmapped (consistent : view.Consistent) (away : view.frameOf key = none) :
    view.translation key = none := by
  have nowhere := consistent.translated key
  rw [away, target, Option.map_eq_none_iff] at nowhere
  exact nowhere

/-! ## What the parts of a step do -/

@[simp] theorem frameOf_put (record : Option PageRecord) :
    (view.put key record).frameOf =
      Function.update view.frameOf key (record.bind (·.residence.frame?)) := by
  funext other
  by_cases same : other = key
  · subst same
    simp [View.frameOf, View.put]
  · simp [View.frameOf, View.put, same]

@[simp] theorem slotOf_put (record : Option PageRecord) :
    (view.put key record).slotOf =
      Function.update view.slotOf key (record.bind (·.residence.slot?)) := by
  funext other
  by_cases same : other = key
  · subst same
    simp [View.slotOf, View.put]
  · simp [View.slotOf, View.put, same]

@[simp] theorem tenant_hold (holder : Option Holder) :
    (view.hold frame holder).tenant =
      Function.update view.tenant frame (holder.map fun holder => (holder.space, holder.page)) := by
  funext other
  by_cases same : other = frame
  · subst same
    simp [tenant, hold]
  · simp [tenant, hold, same]

@[simp] theorem target_lead (translation : Option Translation) :
    (view.lead key translation).target =
      Function.update view.target key (translation.map (·.frame)) := by
  funext other
  by_cases same : other = key
  · subst same
    simp [target, lead]
  · simp [target, lead, same]

/-! ## Steps that leave every page where it is -/

structure SamePlaces (view other : View) : Prop where
  live : other.live = view.live
  used : other.used = view.used
  tenant : other.tenant = view.tenant
  target : other.target = view.target
  residence : ∀ key, (other.record key).map (·.residence) = (view.record key).map (·.residence)
  settled : ∀ {key record}, other.record key = some record → record.dirty = true →
    view.record key = some record ∨ ∃ frame, record.residence.frame? = some frame

theorem SamePlaces.frameOf {other : View} (same : view.SamePlaces other) :
    other.frameOf = view.frameOf := by
  funext key
  have := congrArg (Option.bind · Residence.frame?) (same.residence key)
  simpa [View.frameOf, Option.bind_map, Function.comp_def] using this

theorem SamePlaces.slotOf {other : View} (same : view.SamePlaces other) :
    other.slotOf = view.slotOf := by
  funext key
  have := congrArg (Option.bind · Residence.slot?) (same.residence key)
  simpa [View.slotOf, Option.bind_map, Function.comp_def] using this

theorem Consistent.same (consistent : view.Consistent) {other : View}
    (same : view.SamePlaces other) : other.Consistent where
  placed {key record} found := by
    have kept := same.residence key
    simp only [found, Option.map_some, eq_comm (a := some _), Option.map_eq_some_iff] at kept
    obtain ⟨old, recorded, -⟩ := kept
    rw [same.live]
    exact consistent.placed recorded
  settled found dirty := by
    rcases same.settled found dirty with old | resident
    · exact consistent.settled old dirty
    · exact resident
  tenanted := by
    intro key frame
    rw [same.frameOf, same.tenant]
    exact consistent.tenanted
  translated key := by
    rw [same.frameOf, same.target]
    exact consistent.translated key
  stored := by
    intro slot
    rw [same.used, same.slotOf]
    exact consistent.stored
  apart := by
    rw [same.slotOf]
    exact consistent.apart

theorem samePlaces_of_eq {other : View} (live : other.live = view.live)
    (used : other.used = view.used) (tenant : other.tenant = view.tenant)
    (target : other.target = view.target) (record : other.record = view.record) :
    view.SamePlaces other where
  live := live
  used := used
  tenant := tenant
  target := target
  residence key := by rw [record]
  settled found _ := .inl (record ▸ found)

theorem tenant_hold_map (f : Holder → Holder)
    (kept : ∀ holder, (f holder).space = holder.space ∧ (f holder).page = holder.page) :
    (view.hold frame ((view.holder frame).map f)).tenant = view.tenant := by
  rw [tenant_hold, Option.map_map]
  apply Function.update_eq_self_iff.mpr
  simp only [tenant]
  cases view.holder frame with
  | none => rfl
  | some holder => simp [kept holder]

theorem target_lead_map (f : Translation → Translation)
    (kept : ∀ translation, (f translation).frame = translation.frame) :
    (view.lead key ((view.translation key).map f)).target = view.target := by
  rw [target_lead, Option.map_map]
  apply Function.update_eq_self_iff.mpr
  simp only [target]
  cases view.translation key with
  | none => rfl
  | some translation => simp [kept translation]

theorem samePlaces_soil (resident : ∃ frame window, view.Holds key frame window) :
    view.SamePlaces (view.after (.soil key)) where
  live := rfl
  used := rfl
  tenant := rfl
  target := rfl
  residence other := by
    by_cases same : other = key
    · subst same
      simp [after, put, Option.map_map, Function.comp_def]
    · simp [after, put, same]
  settled {other record} found dirty := by
    by_cases same : other = key
    · subst same
      obtain ⟨frame, window, before, held⟩ := resident
      simp only [after, put, held, Option.map_some, Function.update_self,
        Option.some.injEq] at found
      exact .inr ⟨frame, by rw [← found]; rfl⟩
    · exact .inl (by simpa [after, put, same] using found)

/-! ## Steps that move a page -/

/-- A page is moved to a free frame, to a free slot, to its file or out of memory altogether. What it
held before is free then. -/
theorem Consistent.relocate (consistent : view.Consistent) {other : View} (key : Nat × Nat)
    (next : Option PageRecord) (live : other.live = view.live)
    (record : other.record = Function.update view.record key next)
    (tenant : ∀ frame, other.tenant frame =
      if next.bind (·.residence.frame?) = some frame then some key
      else if view.frameOf key = some frame then none else view.tenant frame)
    (target : other.target = Function.update view.target key (next.bind (·.residence.frame?)))
    (used : ∀ slot, other.used slot =
      if next.bind (·.residence.slot?) = some slot then true
      else if view.slotOf key = some slot then false else view.used slot)
    (placed : next ≠ none → view.live key.1 = true ∧ Aligned key.2 ∧ IsUser key.2)
    (settled : ∀ record, next = some record → record.dirty = true →
      ∃ frame, record.residence.frame? = some frame)
    (vacant : ∀ frame, next.bind (·.residence.frame?) = some frame → view.tenant frame = none)
    (unused : ∀ slot, next.bind (·.residence.slot?) = some slot → view.used slot = false) :
    other.Consistent := by
  have frameOf : other.frameOf =
      Function.update view.frameOf key (next.bind (·.residence.frame?)) := by
    rw [← frameOf_put]
    simp only [funext_iff, View.frameOf, record, put, implies_true]
  have slotOf : other.slotOf =
      Function.update view.slotOf key (next.bind (·.residence.slot?)) := by
    rw [← slotOf_put]
    simp only [funext_iff, View.slotOf, record, put, implies_true]
  obtain ⟨wasPlaced, wasSettled, tenanted, translated, stored, apart⟩ := consistent
  constructor
  · intro at' found here
    rw [record, Function.update_apply] at here
    rw [live]
    grind
  · intro at' found here
    rw [record, Function.update_apply] at here
    grind
  · intro at' frame
    rw [frameOf, tenant, Function.update_apply]
    grind
  · intro at'
    rw [frameOf, target, Function.update_apply, Function.update_apply, translated]
  · intro slot
    rw [used, slotOf]
    simp only [Function.update_apply]
    constructor
    · intro on
      split at on
      · exact ⟨key, by simpa using ‹_›⟩
      · split at on
        · cases on
        · obtain ⟨at', here⟩ := stored.mp on
          refine ⟨at', ?_⟩
          rw [if_neg]
          · exact here
          · rintro rfl
            contradiction
    · rintro ⟨at', here⟩
      grind
  · intro at' other slot
    rw [slotOf, Function.update_apply, Function.update_apply]
    grind

theorem tenant_releaseFrame (residence : Residence) (other : Nat) :
    (view.releaseFrame key residence).tenant other =
      if residence.frame? = some other then none else view.tenant other := by
  cases residence with
  | inFrame frame window =>
      simp only [releaseFrame, Residence.frame?, Option.elim_some, tenant_hold,
        Function.update_apply, Option.some.injEq, eq_comm (a := frame), Option.map_none]
      rfl
  | untouched | inSwap | inFile => rfl

theorem target_releaseFrame (residence : Residence) (other : Nat × Nat) :
    (view.releaseFrame key residence).target other =
      if other = key ∧ residence.frame?.isSome then none else view.target other := by
  cases residence with
  | inFrame frame window =>
      simp only [releaseFrame, Residence.frame?, Option.elim_some, Option.isSome_some, and_true]
      change (view.lead key none).target other = _
      rw [target_lead, Function.update_apply]
      rfl
  | untouched | inSwap | inFile => simp [releaseFrame, Residence.frame?]

theorem used_releaseSlot (residence : Residence) (other : Nat) :
    (view.releaseSlot residence).used other =
      if residence.slot? = some other then false else view.used other := by
  cases residence with
  | inSwap slot =>
      simp [releaseSlot, Residence.slot?, mark, Function.update_apply, eq_comm (a := slot)]
  | untouched | inFrame | inFile => rfl

theorem releaseFrame_fields (view : View) (key : Nat × Nat) (residence : Residence) :
    (view.releaseFrame key residence).live = view.live ∧
      (view.releaseFrame key residence).record = view.record ∧
      (view.releaseFrame key residence).used = view.used := by
  cases residence <;> exact ⟨rfl, rfl, rfl⟩

theorem releaseSlot_fields (view : View) (residence : Residence) :
    (view.releaseSlot residence).live = view.live ∧
      (view.releaseSlot residence).record = view.record ∧
      (view.releaseSlot residence).tenant = view.tenant ∧
      (view.releaseSlot residence).target = view.target := by
  cases residence <;> exact ⟨rfl, rfl, rfl, rfl⟩

theorem Consistent.swapOut (consistent : view.Consistent)
    (permitted : view.Permits strict (.swapOut key frame slot)) :
    (view.after (.swapOut key frame slot)).Consistent := by
  obtain ⟨held, -, free⟩ := permitted
  have resident := held.frameOf
  obtain ⟨dirty, found⟩ := held
  refine consistent.relocate key (some ⟨.inSwap slot, false⟩) rfl rfl ?_ ?_ ?_
    ?_ ?_ ?_ ?_
  · intro other
    rw [resident]
    exact tenant_releaseFrame (.inFrame frame none) other
  · exact target_lead none
  · intro other
    simp [after, releaseFrame, Residence.frame?, lead, hold, put, mark, Function.update_apply,
      View.slotOf, found, Residence.slot?, stow, eq_comm (a := slot)]
  · exact fun _ => consistent.placed found
  · simp
  · simp [Residence.frame?]
  · simpa [Residence.slot?] using free

theorem Consistent.fileOut (consistent : view.Consistent) {window : FileWindow}
    (permitted : view.Permits strict (.fileOut key frame window)) :
    (view.after (.fileOut key frame window)).Consistent := by
  obtain ⟨held, -, -⟩ := permitted
  have resident := held.frameOf
  obtain ⟨dirty, found⟩ := held
  refine consistent.relocate key (some ⟨.inFile window, false⟩) rfl rfl ?_ ?_ ?_
    ?_ ?_ ?_ ?_
  · intro other
    rw [resident]
    exact tenant_releaseFrame (.inFrame frame none) other
  · exact target_lead none
  · intro other
    simp [after, releaseFrame, Residence.frame?, lead, hold, put, View.slotOf, found,
      Residence.slot?]
  · exact fun _ => consistent.placed found
  · simp
  · simp [Residence.frame?]
  · simp [Residence.slot?]

theorem Consistent.bringIn (consistent : view.Consistent) {residence : Residence}
    (permitted : view.Permits strict (.bringIn key frame residence)) :
    (view.after (.bringIn key frame residence)).Consistent := by
  obtain ⟨⟨dirty, found⟩, away, free⟩ := permitted
  obtain ⟨live, record, tenant, target⟩ := releaseSlot_fields
    ((((view.fill frame (view.image residence)).hold frame
      (some ⟨key.1, key.2, 1, false⟩)).lead key (some ⟨frame, false⟩)).put key
      (some ⟨.inFrame frame residence.window?, false⟩)) residence
  refine consistent.relocate key (some ⟨.inFrame frame residence.window?, false⟩) live record
    ?_ ?_ ?_ ?_ ?_ ?_ ?_
  · intro other
    have before : view.frameOf key = none := by simpa [View.frameOf, found] using away
    rw [show (view.after (.bringIn key frame residence)).tenant other = _ from congrFun tenant other]
    change ((view.fill frame (view.image residence)).hold frame
      (some ⟨key.1, key.2, 1, false⟩)).tenant other = _
    rw [tenant_hold, Function.update_apply, before]
    simp only [Option.map_some, Option.bind_some, Residence.frame?, Option.some.injEq,
      eq_comm (a := frame), reduceCtorEq, if_false]
    rfl
  · exact target.trans (target_lead (some ⟨frame, false⟩))
  · intro other
    simp only [after, used_releaseSlot, View.slotOf, found, Option.bind_some, Residence.slot?,
      reduceCtorEq, if_false]
    rfl
  · exact fun _ => consistent.placed found
  · simp
  · intro other taken
    simp only [Option.bind_some, Residence.frame?, Option.some.injEq] at taken
    subst taken
    simp [View.tenant, free]
  · simp [Residence.slot?]

theorem Consistent.install (consistent : view.Consistent) {residence : Residence}
    (permitted : view.Permits strict (.install key residence)) :
    (view.after (.install key residence)).Consistent := by
  obtain ⟨live, absent, aligned, user, kind⟩ := permitted
  have outside : residence.frame? = none ∧ residence.slot? = none := by
    rcases kind with rfl | ⟨window, rfl, -⟩ <;> exact ⟨rfl, rfl⟩
  have nowhere : view.frameOf key = none := by simp [View.frameOf, absent]
  refine consistent.relocate key (some ⟨residence, false⟩) rfl rfl ?_ ?_ ?_
    (fun _ => ⟨live, aligned, user⟩) (by simp) (by simp [outside]) (by simp [outside])
  · intro other
    simp [outside, nowhere, after, put, tenant]
  · refine (Function.update_eq_self_iff.mpr ?_).symm
    change residence.frame? = view.target key
    rw [consistent.translated, nowhere, outside.1]
  · intro other
    simp [outside, after, put, View.slotOf, absent]

theorem Consistent.drop (consistent : view.Consistent) {record : PageRecord} {saved : Bool}
    (permitted : view.Permits strict (.drop key record saved)) :
    (view.after (.drop key record saved)).Consistent := by
  have found := permitted.1
  obtain ⟨live, records, used⟩ := releaseFrame_fields (view.put key none) key record.residence
  obtain ⟨live', records', tenant', target'⟩ := releaseSlot_fields
    ((view.put key none).releaseFrame key record.residence) record.residence
  refine consistent.relocate key none (live'.trans live)
    (records'.trans records) ?_ ?_ ?_ (by simp) (by simp) (by simp) (by simp)
  · intro other
    refine (congrFun tenant' other).trans ((tenant_releaseFrame record.residence other).trans ?_)
    simp only [View.frameOf, found, Option.bind_some, Option.bind_none, reduceCtorEq, if_false]
    rfl
  · refine target'.trans (funext fun other => (target_releaseFrame _ other).trans ?_)
    rw [Function.update_apply]
    by_cases same : other = key
    · subst same
      have here := consistent.translated other
      simp only [View.frameOf, found, Option.bind_some] at here
      cases inside : record.residence.frame? with
      | some frame => simp
      | none =>
          rw [inside] at here
          simp only [Option.isSome_none, Bool.false_eq_true, and_false, if_false, if_true]
          exact here
    · simp only [same, false_and, if_false]
      rfl
  · intro other
    apply (used_releaseSlot record.residence other).trans
    rw [used]
    simp only [View.slotOf, found, Option.bind_some, Option.bind_none, reduceCtorEq, if_false]
    rfl

/-! ## Steps about whole spaces -/

theorem Consistent.create (consistent : view.Consistent) (id : Nat) :
    (view.after (.create id)).Consistent where
  placed {key record} found := by
    obtain ⟨live, rest⟩ := consistent.placed (show view.record key = some record from found)
    refine ⟨?_, rest⟩
    simp only [after, Function.update_apply]
    split
    · rfl
    · exact live
  settled := consistent.settled
  tenanted := consistent.tenanted
  translated := consistent.translated
  stored := consistent.stored
  apart := consistent.apart

theorem Consistent.destroy (consistent : view.Consistent) {id : Nat}
    (permitted : view.Permits strict (.destroy id)) : (view.after (.destroy id)).Consistent where
  placed {key record} found := by
    have before : view.record key = some record := found
    obtain ⟨live, rest⟩ := consistent.placed before
    refine ⟨?_, rest⟩
    have elsewhere : key.1 ≠ id := by
      rintro rfl
      simp [permitted key.2] at before
    simp [after, elsewhere, live]
  settled := consistent.settled
  tenanted := consistent.tenanted
  translated := consistent.translated
  stored := consistent.stored
  apart := consistent.apart

/-! ## All steps -/

theorem Consistent.after (consistent : view.Consistent) {step : Step}
    (permitted : view.Permits strict step) : (view.after step).Consistent := by
  cases step with
  | scribble | litter | flush | enter | forget =>
      exact consistent.same (samePlaces_of_eq rfl rfl rfl rfl rfl)
  | soil key =>
      obtain ⟨frame, window, held, -⟩ := permitted
      exact consistent.same (samePlaces_soil ⟨frame, window, held⟩)
  | pin | unpin | kernelWrite =>
      refine consistent.same (samePlaces_of_eq rfl rfl ?_ rfl rfl)
      exact tenant_hold_map _ fun _ => ⟨rfl, rfl⟩
  | userWrite | stain =>
      refine consistent.same (samePlaces_of_eq rfl rfl rfl ?_ rfl)
      exact target_lead_map _ fun _ => rfl
  | swapOut => exact consistent.swapOut permitted
  | fileOut => exact consistent.fileOut permitted
  | bringIn => exact consistent.bringIn permitted
  | install => exact consistent.install permitted
  | drop => exact consistent.drop permitted
  | create => exact consistent.create _
  | destroy => exact consistent.destroy permitted

end View

theorem Path.consistent {strict : Prop} {first last : View} {steps : List Step}
    (path : Path strict first steps last) (consistent : first.Consistent) : last.Consistent := by
  induction path with
  | nil => exact consistent
  | cons permitted later ih => exact ih (consistent.after permitted)

end DemandPaging
