import DemandPaging.Proofs.View.Memory

namespace DemandPaging

def Step.tally (pins : Nat × Nat → Nat) : Step → Nat × Nat → Nat
  | .bringIn key _ _ | .pin key _ => Function.update pins key (pins key + 1)
  | .unpin key _ => Function.update pins key (pins key - 1)
  | .drop key _ _ => Function.update pins key 0
  | _ => pins

namespace View

def pins (view : View) (key : Nat × Nat) : Nat :=
  ((view.frameOf key).bind view.holder).elim 0 (·.pins)

variable {strict : Prop} {view later : View} {key : Nat × Nat} {frame : Nat}

theorem pins_of_away (away : view.frameOf key = none) : view.pins key = 0 := by
  simp [pins, away]

theorem pins_of_held {holder : Holder} (found : view.frameOf key = some frame)
    (held : view.holder frame = some holder) : view.pins key = holder.pins := by
  simp [pins, found, held]

theorem pins_of_unpinned (found : view.frameOf key = some frame) (free : view.Unpinned frame) :
    view.pins key = 0 := by
  cases held : view.holder frame with
  | none => simp [pins, found, held]
  | some holder => rw [pins_of_held found held, free holder held]

theorem resident_of_pins (pinned : view.pins key ≠ 0) : ∃ frame, view.frameOf key = some frame := by
  rw [← Option.ne_none_iff_exists']
  exact fun away => pinned (pins_of_away away)

theorem frameOf_congr (same : later.record key = view.record key) :
    later.frameOf key = view.frameOf key := by
  rw [frameOf, frameOf, same]

theorem pins_eq_update {count : Nat}
    (records : ∀ other, other ≠ key → later.record other = view.record other)
    (held : ∀ place, place ≠ frame → later.holder place = view.holder place)
    (alone : ∀ other, view.frameOf other = some frame → other = key)
    (here : later.pins key = count) :
    later.pins = Function.update view.pins key count := by
  funext other
  rw [Function.update_apply]
  split
  · rename_i same
    rw [same, here]
  · rename_i distinct
    rw [pins, pins, frameOf_congr (records other distinct)]
    cases found : view.frameOf other with
    | none => rfl
    | some place =>
        have elsewhere : place ≠ frame := fun same => distinct (alone other (same ▸ found))
        rw [Option.bind_some, Option.bind_some, held place elsewhere]

theorem Consistent.eq_of_frameOf (consistent : view.Consistent) {other : Nat × Nat}
    (found : view.frameOf key = some frame) (found' : view.frameOf other = some frame) :
    other = key := by
  have first := consistent.tenanted.mp found
  have second := consistent.tenanted.mp found'
  exact Option.some.inj (second.symm.trans first)

theorem Consistent.alone_of_free (consistent : view.Consistent) (free : view.holder frame = none)
    (other : Nat × Nat) (found : view.frameOf other = some frame) : other = key := by
  have tenant := consistent.tenanted.mp found
  simp [View.tenant, free] at tenant

theorem Consistent.held (consistent : view.Consistent) (found : view.frameOf key = some frame) :
    ∃ holder, view.holder frame = some holder := by
  obtain ⟨window, holds⟩ := exists_holds found
  obtain ⟨pins, written, held⟩ := consistent.exists_holder holds
  exact ⟨_, held⟩

theorem Consistent.live_of_pins (consistent : view.Consistent) (pinned : view.pins key ≠ 0) :
    view.live key.1 = true := by
  obtain ⟨frame, found⟩ := resident_of_pins pinned
  obtain ⟨window, dirty, recorded⟩ := exists_holds found
  exact (consistent.placed recorded).1

theorem Consistent.pins_hold (consistent : view.Consistent) (found : view.frameOf key = some frame)
    (holder : Holder) :
    (view.hold frame (some holder)).pins = Function.update view.pins key holder.pins :=
  pins_eq_update (fun _ _ => rfl) (fun _ elsewhere => Function.update_of_ne elsewhere ..)
    (fun _ => consistent.eq_of_frameOf found)
    (pins_of_held (show (view.hold frame (some holder)).frameOf key = some frame from found)
      (Function.update_self ..))

theorem Consistent.pins_leave (consistent : view.Consistent)
    (found : view.frameOf key = some frame)
    (records : ∀ other, other ≠ key → later.record other = view.record other)
    (held : ∀ place, place ≠ frame → later.holder place = view.holder place)
    (away : later.frameOf key = none) : later.pins = Function.update view.pins key 0 :=
  pins_eq_update records held (fun _ => consistent.eq_of_frameOf found) (pins_of_away away)

theorem Consistent.pins_bringIn (consistent : view.Consistent) {residence : Residence}
    (permitted : view.Permits strict (.bringIn key frame residence)) :
    (view.after (.bringIn key frame residence)).pins =
      Function.update view.pins key (view.pins key + 1) := by
  have records := view.record_after_bringIn key frame residence
  have holders := view.holder_after_bringIn key frame residence
  obtain ⟨⟨dirty, found⟩, away, free⟩ := permitted
  have before : view.pins key = 0 := pins_of_away (by simpa [frameOf, found] using away)
  have there : (view.after (.bringIn key frame residence)).frameOf key = some frame := by
    rw [frameOf, records, Function.update_self]
    rfl
  rw [before]
  refine pins_eq_update (fun other distinct => ?_) (fun place elsewhere => ?_)
    (consistent.alone_of_free free) ?_
  · rw [records, Function.update_of_ne distinct]
  · rw [holders, Function.update_of_ne elsewhere]
  · exact pins_of_held there (by rw [holders, Function.update_self])

theorem Consistent.pins_drop (consistent : view.Consistent) {record : PageRecord} {saved : Bool}
    (permitted : view.Permits strict (.drop key record saved)) :
    (view.after (.drop key record saved)).pins = Function.update view.pins key 0 := by
  obtain ⟨residence, dirty⟩ := record
  have found := permitted.1
  have away : (view.put key none).frameOf key = none := by simp [frameOf, put]
  have unframed {later : View} (records : later.record = (view.put key none).record)
      (held : later.holder = view.holder) (nowhere : residence.frame? = none) :
      later.pins = Function.update view.pins key 0 := by
    have same : view.pins key = 0 := pins_of_away (by simp [frameOf, found, nowhere])
    rw [Function.update_eq_self_iff.mpr same.symm]
    funext other
    rw [pins, pins, held]
    by_cases here : other = key
    · subst here
      rw [frameOf_congr (congrFun records other), away]
      simp [frameOf, found, nowhere]
    · rw [frameOf_congr ((congrFun records other).trans (Function.update_of_ne here ..))]
  cases residence with
  | inFrame frame window =>
      exact consistent.pins_leave (show view.frameOf key = some frame by simp [frameOf, found,
        Residence.frame?]) (fun _ distinct => Function.update_of_ne distinct ..)
        (fun _ elsewhere => Function.update_of_ne elsewhere ..) away
  | untouched | inSwap | inFile => exact unframed rfl rfl rfl

theorem pins_install {residence : Residence}
    (permitted : view.Permits strict (.install key residence)) :
    (view.after (.install key residence)).pins = view.pins := by
  obtain ⟨-, absent, -, -, kind⟩ := permitted
  have outside : residence.frame? = none := by
    rcases kind with rfl | ⟨window, rfl, -⟩ <;> rfl
  have same : (view.after (.install key residence)).frameOf = view.frameOf := by
    rw [after, frameOf_put]
    exact Function.update_eq_self_iff.mpr (by simp [outside, frameOf, absent])
  funext other
  rw [pins, pins, same]
  rfl

theorem pins_after (consistent : view.Consistent) {step : Step}
    (permitted : view.Permits strict step) : (view.after step).pins = step.tally view.pins := by
  have evicted {key : Nat × Nat} {frame : Nat} {window : Option FileWindow} {later : View}
      (holds : view.Holds key frame window) (free : view.Unpinned frame)
      (left : later.pins = Function.update view.pins key 0) : later.pins = view.pins := by
    rw [left, Function.update_eq_self_iff, pins_of_unpinned holds.frameOf free]
  have amended {key : Nat × Nat} {frame : Nat} (f : Holder → Holder)
      (held : ∃ window, view.Holds key frame window) (g : Nat → Nat)
      (counts : ∀ holder, (f holder).pins = g holder.pins) :
      (view.hold frame ((view.holder frame).map f)).pins =
        Function.update view.pins key (g (view.pins key)) := by
    obtain ⟨window, holds⟩ := held
    obtain ⟨holder, there⟩ := consistent.held holds.frameOf
    rw [there, Option.map_some, consistent.pins_hold holds.frameOf, counts,
      pins_of_held holds.frameOf there]
  cases step with
  | soil key =>
      obtain ⟨frame, window, holds, -⟩ := permitted
      funext other
      change _ = view.pins other
      rw [pins, pins, (samePlaces_soil ⟨frame, window, holds⟩).frameOf]
      rfl
  | swapOut key frame slot =>
      refine evicted permitted.1 permitted.2.1 (consistent.pins_leave permitted.1.frameOf
        (fun _ distinct => Function.update_of_ne distinct ..)
        (fun _ elsewhere => Function.update_of_ne elsewhere ..) ?_)
      simp [after, releaseFrame, Residence.frame?, frameOf, put, lead, hold]
  | fileOut key frame window =>
      refine evicted permitted.1 permitted.2.1 (consistent.pins_leave permitted.1.frameOf
        (fun _ distinct => Function.update_of_ne distinct ..)
        (fun _ elsewhere => Function.update_of_ne elsewhere ..) ?_)
      simp [after, releaseFrame, Residence.frame?, frameOf, put, lead, hold]
  | bringIn => exact consistent.pins_bringIn permitted
  | pin key frame => exact amended _ permitted (· + 1) fun _ => rfl
  | unpin key frame => exact amended _ permitted (· - 1) fun _ => rfl
  | kernelWrite key frame offset data =>
      exact (amended (fun holder => { holder with written := true }) permitted (fun pins => pins)
        fun _ => rfl).trans (Function.update_eq_self ..)
  | install => exact pins_install permitted
  | drop => exact consistent.pins_drop permitted
  | _ => rfl

/-! ## Pinned pages -/

theorem getElem?_overlay_eq_patch (memory : Memory) (page : Page) (key : Nat × Nat) (offset : Nat)
    (data : Bytes) (same : ∀ i, memory key i = page[i]?) (i : Nat) :
    (page.overlay offset data)[i]? = memory.patch key offset data key i := by
  rw [Memory.patch, same]
  by_cases inside : i < 4096
  · simp only [true_and, Vector.getElem?_eq_getElem inside, Block.getElem_overlay]
    split <;> rfl
  · simp [inside]

theorem stays_of_fill (consistent : view.Consistent) {other : Nat × Nat} {place offset : Nat}
    {data : Bytes} {window : Option FileWindow} (writes : view.Holds other place window)
    (contents : later.contents =
      Function.update view.contents place ((view.contents place).overlay offset data))
    (found : view.frameOf key = some frame) (i : Nat) : (later.contents frame)[i]? =
      Memory.patch (fun _ i => (view.contents frame)[i]?) other offset data key i := by
  rw [contents]
  by_cases same : key = other
  · subst same
    cases found.symm.trans writes.frameOf
    rw [Function.update_self]
    exact getElem?_overlay_eq_patch _ _ _ _ _ (fun _ => rfl) i
  · have elsewhere : frame ≠ place := by
      rintro rfl
      exact same (consistent.eq_of_frameOf writes.frameOf found)
    rw [Function.update_of_ne elsewhere, Memory.patch, if_neg fun patched => same patched.1]

theorem Consistent.stays_after (consistent : view.Consistent) {step : Step}
    (permitted : view.Permits strict step) (kept : ∀ record saved, step ≠ .drop key record saved)
    (found : view.frameOf key = some frame) (pinned : view.pins key ≠ 0) :
    (view.after step).frameOf key = some frame ∧ ∀ i, ((view.after step).contents frame)[i]? =
      step.effect (fun _ i => (view.contents frame)[i]?) key i := by
  obtain ⟨window, holds⟩ := exists_holds found
  -- A step about another page leaves this one alone, as two pages never share a frame.
  have spared (other : Nat × Nat) (distinct : key ≠ other) {later : View}
      (records : ∀ key, key ≠ other → later.record key = view.record key)
      (contents : later.contents frame = view.contents frame) :
      later.frameOf key = some frame ∧
        ∀ i : Nat, (later.contents frame)[i]? = (view.contents frame)[i]? :=
    ⟨(frameOf_congr (records key distinct)).trans found, fun i => by rw [contents]⟩
  cases step with
  | scribble place page =>
      have elsewhere : frame ≠ place := consistent.frame_ne holds permitted
      exact ⟨found, fun i => congrArg (fun page : Page => page[i]?)
        (Function.update_of_ne elsewhere ..)⟩
  | soil other =>
      obtain ⟨place, lies, there, -⟩ := permitted
      rw [(samePlaces_soil ⟨place, lies, there⟩).frameOf]
      exact ⟨found, fun _ => rfl⟩
  | swapOut other place slot | fileOut other place lies =>
      refine spared other ?_ (fun _ distinct => Function.update_of_ne distinct ..) rfl
      rintro rfl
      exact pinned (pins_of_unpinned permitted.1.frameOf permitted.2.1)
  | bringIn other place residence =>
      have records := view.record_after_bringIn other place residence
      have contents := view.contents_after_bringIn other place residence
      obtain ⟨⟨dirty, there⟩, away, free⟩ := permitted
      refine spared other ?_ (fun _ distinct => ?_) ?_
      · rintro rfl
        simp [frameOf, there, away] at found
      · rw [records, Function.update_of_ne distinct]
      · rw [contents, Function.update_of_ne (consistent.frame_ne holds free)]
  | kernelWrite other place offset data | userWrite other place offset data =>
      obtain ⟨lies, writes⟩ := permitted
      exact ⟨found, stays_of_fill consistent writes rfl found⟩
  | install other residence =>
      refine spared other ?_ (fun _ distinct => Function.update_of_ne distinct ..) rfl
      rintro rfl
      simp [frameOf, permitted.2.1] at found
  | drop other record saved =>
      have distinct : key ≠ other := by
        rintro rfl
        exact kept record saved rfl
      have records := view.record_after_drop other record saved
      refine spared other distinct (fun _ distinct => by rw [records, Function.update_of_ne distinct]) ?_
      obtain ⟨residence, dirty⟩ := record
      cases residence <;> rfl
  | _ => exact ⟨found, fun _ => rfl⟩

structure Firm (view later : View) : Prop where
  pins : ∀ key, view.pins key ≤ later.pins key
  stays : ∀ {key frame}, view.frameOf key = some frame → view.pins key ≠ 0 →
    later.frameOf key = some frame ∧ later.contents frame = view.contents frame

theorem Firm.refl (view : View) : view.Firm view :=
  ⟨fun _ => Nat.le_refl _, fun found _ => ⟨found, rfl⟩⟩

theorem Firm.trans {last : View} (first : view.Firm later) (second : later.Firm last) :
    view.Firm last := by
  refine ⟨fun key => Nat.le_trans (first.pins key) (second.pins key), fun {key _} found pinned => ?_⟩
  obtain ⟨stays, same⟩ := first.stays found pinned
  have still : later.pins key ≠ 0 := by
    have := first.pins key
    omega
  obtain ⟨stays', same'⟩ := second.stays stays still
  exact ⟨stays', same'.trans same⟩

theorem Firm.settle {last : View} (firm : view.Firm later) (record : last.record = later.record)
    (contents : last.contents = later.contents) (pins : last.pins = view.pins) : view.Firm last := by
  refine ⟨fun key => Nat.le_of_eq (congrFun pins key).symm, fun {key _} found pinned => ?_⟩
  rw [frameOf_congr (congrFun record key), contents]
  exact firm.stays found pinned

structure Spared (view later : View) (key : Nat × Nat) : Prop where
  pins : later.pins key = view.pins key
  stays : ∀ {frame}, view.frameOf key = some frame → view.pins key ≠ 0 →
    later.frameOf key = some frame ∧ later.contents frame = view.contents frame

theorem Spared.trans {last : View} (first : view.Spared later key)
    (second : later.Spared last key) : view.Spared last key := by
  refine ⟨second.pins.trans first.pins, fun found pinned => ?_⟩
  obtain ⟨stays, same⟩ := first.stays found pinned
  obtain ⟨stays', same'⟩ := second.stays stays (first.pins ▸ pinned)
  exact ⟨stays', same'.trans same⟩

theorem firm_of_spared (spared : ∀ key, view.Spared later key) :
    view.Firm later ∧ later.pins = view.pins :=
  ⟨⟨fun key => Nat.le_of_eq (spared key).pins.symm, fun {key _} => (spared key).stays⟩,
    funext fun key => (spared key).pins⟩

end View

def Step.Gentle : Step → Prop
  | .unpin _ _ | .drop _ _ _ | .kernelWrite _ _ _ _ | .userWrite _ _ _ _ => False
  | _ => True

theorem Step.Gentle.silent {step : Step} (gentle : step.Gentle) : step.Silent := by
  cases step with
  | kernelWrite | userWrite => exact gentle.elim
  | _ => trivial

def Step.Spares (key : Nat × Nat) (step : Step) : Prop :=
  (∀ pins, step.tally pins key = pins key) ∧ (∀ record saved, step ≠ .drop key record saved) ∧
    step.Silent

namespace View

variable {strict : Prop} {view : View} {step : Step} {key : Nat × Nat} {frame : Nat}

theorem Consistent.still_after (consistent : view.Consistent) (silent : step.Silent)
    (permitted : view.Permits strict step) (kept : ∀ record saved, step ≠ .drop key record saved)
    (found : view.frameOf key = some frame) (pinned : view.pins key ≠ 0) :
    (view.after step).frameOf key = some frame ∧
      (view.after step).contents frame = view.contents frame := by
  obtain ⟨stays, same⟩ := consistent.stays_after permitted kept found pinned
  refine ⟨stays, Vector.ext fun i small => ?_⟩
  have byte := same i
  rw [silent.effect, Vector.getElem?_eq_getElem small] at byte
  simpa [Vector.getElem?_eq_getElem small] using byte

theorem Consistent.spared_after (consistent : view.Consistent) (spares : step.Spares key)
    (permitted : view.Permits strict step) : view.Spared (view.after step) key := by
  obtain ⟨untouched, kept, silent⟩ := spares
  refine ⟨?_, fun found pinned => consistent.still_after silent permitted kept found pinned⟩
  rw [pins_after consistent permitted, untouched]

theorem Consistent.firm_after (consistent : view.Consistent) (gentle : step.Gentle)
    (permitted : view.Permits strict step) : view.Firm (view.after step) := by
  refine ⟨fun key => ?_, fun {key frame} found pinned => ?_⟩
  · rw [pins_after consistent permitted]
    cases step with
    | bringIn other | pin other =>
        simp only [Step.tally, Function.update_apply]
        split
        · rename_i same
          rw [same]
          exact Nat.le_succ _
        · exact Nat.le_refl _
    | unpin | drop => exact gentle.elim
    | _ => exact Nat.le_refl _
  · have kept : ∀ record saved, step ≠ .drop key record saved := by
      rintro record saved rfl
      exact gentle
    exact consistent.still_after gentle.silent permitted kept found pinned

end View

namespace Path

variable {strict : Prop} {first last : View} {steps : List Step}

theorem pins_eq_zero {key : Nat × Nat} (path : Path strict first steps last)
    (consistent : first.Consistent)
    (keeps : ∀ step ∈ steps, ∀ pins, pins key = 0 → step.tally pins key = 0)
    (free : first.pins key = 0) : last.pins key = 0 := by
  induction path with
  | nil => exact free
  | cons permitted later ih =>
      obtain ⟨here, there⟩ := List.forall_mem_cons.mp keeps
      refine ih (consistent.after permitted) there ?_
      rw [View.pins_after consistent permitted]
      exact here _ free

theorem spared {key : Nat × Nat} (path : Path strict first steps last)
    (consistent : first.Consistent) (spares : ∀ step ∈ steps, step.Spares key) :
    first.Spared last key := by
  induction path with
  | nil => exact ⟨rfl, fun found _ => ⟨found, rfl⟩⟩
  | cons permitted later ih =>
      obtain ⟨here, there⟩ := List.forall_mem_cons.mp spares
      exact (consistent.spared_after here permitted).trans (ih (consistent.after permitted) there)

end Path

end DemandPaging
