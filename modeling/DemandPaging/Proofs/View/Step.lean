import DemandPaging.Proofs.View

/-!
# Steps

Every operation of a machine, however it ends, changes the view by a sequence of steps. A step is
what happens to one page, frame, slot or mapping at once; `View.Permits` says when it may be taken
and `View.after` what it leads to. What holds of all operations is proved of the steps.
-/

namespace DemandPaging

namespace View

def fileByte (view : View) (file position : Nat) : UInt8 :=
  (view.layout file).elim 0 fun layout => view.byte (layout.bank, layout.origin + position)

def backed (view : View) (window : FileWindow) : Nat :=
  (view.layout window.file).elim 0 fun layout =>
    Storage.available layout.length window.offset window.length

def windowPage (view : View) (window : FileWindow) : Page :=
  Vector.ofFn fun i : Fin 4096 =>
    if i.val < view.backed window then view.fileByte window.file (window.offset + i.val) else 0

def image (view : View) : Residence → Page
  | .untouched => Block.zero 4096
  | .inFrame frame _ => view.contents frame
  | .inSwap slot => view.slot slot
  | .inFile window => view.windowPage window

def modified (view : View) (key : Nat × Nat) (frame : Nat) : Bool :=
  (view.record key).any (·.dirty) || (view.translation key).any (·.dirty) ||
    (view.holder frame).any (·.written)

def Saved (view : View) (frame : Nat) (window : FileWindow) : Prop :=
  ∀ i < window.length,
    (view.contents frame)[i]? = some (view.fileByte window.file (window.offset + i))

def Fits (view : View) (window : FileWindow) : Prop :=
  window.length = 0 ∨ ∃ layout, view.layout window.file = some layout ∧
    window.offset + window.length ≤ layout.length

def Holds (view : View) (key : Nat × Nat) (frame : Nat) (window : Option FileWindow) : Prop :=
  ∃ dirty, view.record key = some ⟨.inFrame frame window, dirty⟩

theorem Holds.recorded {view : View} {key : Nat × Nat} {frame : Nat} {window : Option FileWindow}
    (holds : view.Holds key frame window) :
    ∃ dirty, view.record key = some ⟨.inFrame frame window, dirty⟩ :=
  holds

/-- The write to its file that saves a page when it leaves its frame. -/
def writeBack? (view : View) (key : Nat × Nat) : Option WriteRequest :=
  match view.record key with
  | some ⟨.inFrame frame (some window), _⟩ =>
    if 0 < window.length ∧ view.modified key frame = true then
      some ⟨window.file, window.offset, window.length⟩
    else none
  | _ => none

theorem writeBack?_of_resident {view : View} {key : Nat × Nat} {frame : Nat}
    {window : FileWindow} (holds : view.Holds key frame (some window)) :
    view.writeBack? key = if 0 < window.length ∧ view.modified key frame = true then
      some ⟨window.file, window.offset, window.length⟩ else none := by
  obtain ⟨dirty, recorded⟩ := holds
  rw [writeBack?, recorded]

theorem writeBack?_of_none {view : View} {key : Nat × Nat}
    (unbacked : ∀ frame window, ¬ view.Holds key frame (some window)) : view.writeBack? key = none := by
  unfold writeBack?
  split
  · rename_i recorded
    exact absurd ⟨_, recorded⟩ (unbacked _ _)
  · rfl

theorem writeBack?_of_anonymous {view : View} {key : Nat × Nat} {frame : Nat}
    (holds : view.Holds key frame none) : view.writeBack? key = none := by
  obtain ⟨dirty, recorded⟩ := holds
  rw [writeBack?, recorded]

def unsaved? (view : View) (key : Nat × Nat) : Option (FileWindow × Page) :=
  match view.record key with
  | some ⟨.inFrame frame (some window), _⟩ =>
    if view.modified key frame = true then some (window, view.contents frame) else none
  | _ => none

theorem writeBack?_eq (view : View) (key : Nat × Nat) :
    view.writeBack? key = (view.unsaved? key).bind fun saved =>
      if 0 < saved.1.length then some ⟨saved.1.file, saved.1.offset, saved.1.length⟩ else none := by
  unfold writeBack? unsaved?
  split
  · rename_i frame window dirty recorded
    cases view.modified key frame <;> simp
  · rfl

def Unpinned (view : View) (frame : Nat) : Prop :=
  ∀ holder, view.holder frame = some holder → holder.pins = 0

def releaseSlot (view : View) (residence : Residence) : View :=
  residence.slot?.elim view (view.mark · false)

def releaseFrame (view : View) (key : Nat × Nat) (residence : Residence) : View :=
  residence.frame?.elim view fun frame => (view.lead key none).hold frame none

end View

inductive Step where
  /-- A free frame, or a free slot, is left with other contents. -/
  | scribble (frame : Nat) (page : Page)
  | litter (slot : Nat) (page : Page)
  | soil (key : Nat × Nat)
  /-- Bytes of a modified page are written back through its window. -/
  | flush (key : Nat × Nat) (frame : Nat) (window : FileWindow) (layout : Layout) (count : Nat)
  | swapOut (key : Nat × Nat) (frame slot : Nat)
  | fileOut (key : Nat × Nat) (frame : Nat) (window : FileWindow)
  | bringIn (key : Nat × Nat) (frame : Nat) (residence : Residence)
  | pin (key : Nat × Nat) (frame : Nat)
  | unpin (key : Nat × Nat) (frame : Nat)
  /-- A write by the kernel, or by the user through the directory. -/
  | kernelWrite (key : Nat × Nat) (frame offset : Nat) (data : Bytes)
  | userWrite (key : Nat × Nat) (frame offset : Nat) (data : Bytes)
  /-- The hardware's dirty bit is set, or cleared. -/
  | stain (key : Nat × Nat) (on : Bool)
  | install (key : Nat × Nat) (residence : Residence)
  /-- The page is given up; with `saved`, its file holds what it held. -/
  | drop (key : Nat × Nat) (record : PageRecord) (saved : Bool)
  | enter (key : Nat × Nat) (region : Region)
  | forget (key : Nat × Nat)
  | create (id : Nat)
  | destroy (id : Nat)

def Step.Inner : Step → Prop
  | .create _ | .destroy _ => False
  | _ => True

namespace View

/-- When a step may be taken. With `strict`, only windows that lie in their files are installed. -/
def Permits (strict : Prop) (view : View) : Step → Prop
  | .scribble frame _ => view.holder frame = none
  | .litter slot _ => view.used slot = false
  | .soil key => ∃ frame window, view.Holds key frame window ∧ view.modified key frame = true
  | .flush key frame window layout count =>
    view.record key = some ⟨.inFrame frame (some window), true⟩ ∧
      view.layout window.file = some layout ∧ 0 < window.length ∧ count ≤ window.length ∧
      layout.Takes window.offset count
  | .swapOut key frame slot =>
    view.Holds key frame none ∧ view.Unpinned frame ∧ view.used slot = false
  | .fileOut key frame window =>
    view.Holds key frame (some window) ∧ view.Unpinned frame ∧
      (view.modified key frame = false ∨ view.Saved frame window)
  | .bringIn key frame residence =>
    (∃ dirty, view.record key = some ⟨residence, dirty⟩) ∧ residence.frame? = none ∧
      view.holder frame = none
  | .pin key frame | .unpin key frame | .kernelWrite key frame _ _ | .userWrite key frame _ _ =>
    ∃ window, view.Holds key frame window
  | .stain _ _ | .forget _ => True
  | .install key residence =>
    view.live key.1 = true ∧ view.record key = none ∧ Aligned key.2 ∧ IsUser key.2 ∧
      (residence = .untouched ∨
        ∃ window, residence = .inFile window ∧ (strict → view.Fits window))
  | .drop key record saved =>
    view.record key = some record ∧ ∀ frame window,
      record.residence = .inFrame frame (some window) → saved = true →
        view.modified key frame = false ∨ view.Saved frame window
  | .enter key region =>
    view.live key.1 = true ∧ view.nextRegion key.1 = key.2 ∧ Aligned region.start ∧
      IsUserRange region.start region.length
  | .create id => view.live id = false
  | .destroy id => ∀ page, view.record (id, page) = none

def after (view : View) : Step → View
  | .scribble frame page => view.fill frame page
  | .litter slot page => view.stow slot page
  | .soil key => view.put key ((view.record key).map fun record => { record with dirty := true })
  | .flush _ frame window layout count =>
    view.write window.file layout window.offset ((view.contents frame).slice 0 window.length) count
  | .swapOut key frame slot =>
    (((view.stow slot (view.contents frame)).mark slot true).put key
      (some ⟨.inSwap slot, false⟩)).releaseFrame key (.inFrame frame none)
  | .fileOut key frame window =>
    (view.put key (some ⟨.inFile window, false⟩)).releaseFrame key (.inFrame frame none)
  | .bringIn key frame residence =>
    (((view.fill frame (view.image residence)).hold frame (some ⟨key.1, key.2, 1, false⟩)).lead key
      (some ⟨frame, false⟩)).put key (some ⟨.inFrame frame residence.window?, false⟩)
      |>.releaseSlot residence
  | .pin _ frame =>
    view.hold frame ((view.holder frame).map fun holder => { holder with pins := holder.pins + 1 })
  | .unpin _ frame =>
    view.hold frame ((view.holder frame).map fun holder => { holder with pins := holder.pins - 1 })
  | .kernelWrite _ frame offset data =>
    (view.fill frame ((view.contents frame).overlay offset data)).hold frame
      ((view.holder frame).map fun holder => { holder with written := true })
  | .userWrite key frame offset data =>
    (view.fill frame ((view.contents frame).overlay offset data)).lead key
      ((view.translation key).map fun translation => { translation with dirty := true })
  | .stain key on =>
    view.lead key
      ((view.translation key).map fun translation => { translation with dirty := on })
  | .install key residence => view.put key (some ⟨residence, false⟩)
  | .drop key record _ =>
    ((view.put key none).releaseFrame key record.residence).releaseSlot record.residence
  | .enter key region =>
    { view with
      region := Function.update view.region key (some region)
      nextRegion := Function.update view.nextRegion key.1 (key.2 + 1) }
  | .forget key => { view with region := Function.update view.region key none }
  | .create id => { view with live := Function.update view.live id true }
  | .destroy id =>
    { view with
      live := Function.update view.live id false
      region := fun key => if key.1 = id then none else view.region key
      nextRegion := Function.update view.nextRegion id 0 }

theorem frames_after (view : View) (step : Step) : (view.after step).frames = view.frames := by
  cases step with
  | bringIn key frame residence => cases residence <;> rfl
  | drop key record saved =>
      rcases record with ⟨residence, dirty⟩
      cases residence <;> rfl
  | _ => rfl

theorem slots_after (view : View) (step : Step) : (view.after step).slots = view.slots := by
  cases step with
  | bringIn key frame residence => cases residence <;> rfl
  | drop key record saved =>
      rcases record with ⟨residence, dirty⟩
      cases residence <;> rfl
  | _ => rfl

theorem live_after (view : View) {step : Step} (inner : step.Inner) :
    (view.after step).live = view.live := by
  cases step with
  | bringIn key frame residence => cases residence <;> rfl
  | drop key record saved =>
      rcases record with ⟨residence, dirty⟩
      cases residence <;> rfl
  | create | destroy => exact inner.elim
  | _ => rfl

theorem record_after_bringIn (view : View) (key : Nat × Nat) (frame : Nat) (residence : Residence) :
    (view.after (.bringIn key frame residence)).record =
      Function.update view.record key (some ⟨.inFrame frame residence.window?, false⟩) := by
  cases residence <;> rfl

theorem contents_after_bringIn (view : View) (key : Nat × Nat) (frame : Nat)
    (residence : Residence) : (view.after (.bringIn key frame residence)).contents =
      Function.update view.contents frame (view.image residence) := by
  cases residence <;> rfl

theorem holder_after_bringIn (view : View) (key : Nat × Nat) (frame : Nat) (residence : Residence) :
    (view.after (.bringIn key frame residence)).holder =
      Function.update view.holder frame (some ⟨key.1, key.2, 1, false⟩) := by
  cases residence <;> rfl

theorem translation_after_bringIn (view : View) (key : Nat × Nat) (frame : Nat)
    (residence : Residence) : (view.after (.bringIn key frame residence)).translation =
      Function.update view.translation key (some ⟨frame, false⟩) := by
  cases residence <;> rfl

theorem record_after_drop (view : View) (key : Nat × Nat) (record : PageRecord) (saved : Bool) :
    (view.after (.drop key record saved)).record = Function.update view.record key none := by
  rcases record with ⟨residence, dirty⟩
  cases residence <;> rfl

theorem ne_of_holds_after_drop {view : View} {key other : Nat × Nat} {record : PageRecord}
    {saved : Bool} {frame : Nat} {window : Option FileWindow}
    (holds : (view.after (.drop other record saved)).Holds key frame window) : key ≠ other := by
  rintro rfl
  obtain ⟨dirty, found⟩ := holds
  rw [record_after_drop, Function.update_self] at found
  cases found

theorem ne_of_holds_after_install {strict : Prop} {view : View} {key other : Nat × Nat}
    {residence : Residence} {frame : Nat} {window : Option FileWindow}
    (permitted : view.Permits strict (.install other residence))
    (holds : (view.after (.install other residence)).Holds key frame window) : key ≠ other := by
  rintro rfl
  obtain ⟨dirty, found⟩ := holds
  obtain ⟨-, -, -, -, rfl | ⟨lies, rfl, -⟩⟩ := permitted <;> simp [after, put] at found

theorem written_hold (view : View) (place frame : Nat) {change : Holder → Holder}
    (same : ∀ holder, (change holder).written = holder.written) :
    ((view.hold place ((view.holder place).map change)).holder frame).any (·.written) =
      (view.holder frame).any (·.written) := by
  simp only [hold, Function.update_apply]
  split
  · rename_i here
    rw [here, Option.any_map]
    simp only [same]
  · rfl

theorem writeBack?_of_flush {strict : Prop} {view : View} {key : Nat × Nat} {frame count : Nat}
    {window : FileWindow} {layout : Layout}
    (permitted : view.Permits strict (.flush key frame window layout count)) :
    view.writeBack? key = some ⟨window.file, window.offset, window.length⟩ := by
  obtain ⟨recorded, -, positive, -⟩ := permitted
  have modified : view.modified key frame = true := by simp [View.modified, recorded]
  rw [writeBack?_of_resident ⟨true, recorded⟩, if_pos ⟨positive, modified⟩]

theorem journal_after_flush (view : View) (key : Nat × Nat) (frame : Nat) (window : FileWindow)
    (layout : Layout) (count : Nat) :
    (view.after (.flush key frame window layout count)).journal =
      ⟨window.file, window.offset, window.length⟩ :: view.journal := by
  have size : ((view.contents frame).slice 0 window.length).length = window.length := by
    rw [Block.length_slice]
    exact Nat.min_eq_left window.short
  simp only [after, write, size]

theorem saved_write (view : View) (frame : Nat) (window : FileWindow) (layout : Layout) :
    (view.write window.file layout window.offset
      ((view.contents frame).slice 0 window.length) window.length).Saved frame window := by
  intro i small
  have short : i < 4096 := Nat.lt_of_lt_of_le small window.short
  have found : ((view.contents frame).slice 0 window.length)[i]? = (view.contents frame)[i]? := by
    rw [Block.getElem?_slice, if_pos small, Nat.zero_add]
  simp only [fileByte, write, overwrite, Function.update_self, Option.elim_some,
    Layout.bank_grown, Layout.origin_grown, true_and]
  rw [if_pos (by omega), show layout.origin + (window.offset + i) -
    (layout.origin + window.offset) = i by omega, List.getElem?_take, if_pos small, found,
    Vector.getElem?_eq_getElem short, Option.getD_some]

end View

/-! ## Sequences of steps -/

inductive Path (strict : Prop) : View → List Step → View → Prop where
  | nil {view : View} : Path strict view [] view
  | cons {view last : View} {step : Step} {rest : List Step} (permitted : view.Permits strict step)
      (later : Path strict (view.after step) rest last) : Path strict view (step :: rest) last

namespace Path

variable {strict : Prop} {first middle last : View} {steps more : List Step} {step : Step}

theorem single (permitted : first.Permits strict step) :
    Path strict first [step] (first.after step) :=
  .cons permitted .nil

theorem of_single (path : Path strict first [step] last) :
    first.Permits strict step ∧ last = first.after step := by
  cases path with
  | cons permitted later =>
      cases later
      exact ⟨permitted, rfl⟩

theorem append (front : Path strict first steps middle) (back : Path strict middle more last) :
    Path strict first (steps ++ more) last := by
  induction front with
  | nil => exact back
  | cons permitted later ih => exact .cons permitted (ih back)

theorem frames (path : Path strict first steps last) : last.frames = first.frames := by
  induction path with
  | nil => rfl
  | cons permitted later ih => exact ih.trans (View.frames_after _ _)

theorem slots (path : Path strict first steps last) : last.slots = first.slots := by
  induction path with
  | nil => rfl
  | cons permitted later ih => exact ih.trans (View.slots_after _ _)

theorem keeps {kind : Step → Prop} {motive : View → Prop} (path : Path strict first steps last)
    (kinds : ∀ step ∈ steps, kind step)
    (kept : ∀ view step, kind step → view.Permits strict step → motive view →
      motive (view.after step))
    (holds : motive first) : motive last := by
  induction path with
  | nil => exact holds
  | cons permitted later ih =>
      have here := kinds _ List.mem_cons_self
      exact ih (fun step member => kinds step (List.mem_cons_of_mem _ member))
        (kept _ _ here permitted holds)

end Path

end DemandPaging
