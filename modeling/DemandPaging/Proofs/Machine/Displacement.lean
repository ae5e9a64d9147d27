import DemandPaging.Proofs.Machine.Fault

namespace DemandPaging

def Residence.Outside (window : Option FileWindow) : Residence → Prop
  | .inSwap _ => window = none
  | .inFile lies => window = some lies
  | _ => False

theorem Layout.grown_eq (layout : Layout) (stop : Nat) :
    layout.grown stop = { layout with length := (layout.grown stop).length } := by
  obtain ⟨bank, origin, length⟩ := layout
  cases bank <;> rfl

namespace View

variable {strict : Prop} {before view after : View} {key other : Nat × Nat} {frame : Nat}
  {window : Option FileWindow}

def Backs (view : View) (key : Nat × Nat) (spot : Bank × Nat) : Prop :=
  ∃ frame window layout, view.Holds key frame (some window) ∧
    view.layout window.file = some layout ∧ spot.1 = layout.bank ∧
    layout.origin + window.offset ≤ spot.2 ∧ spot.2 < layout.origin + window.offset + window.length

structure Unmoved (before : View) (key : Nat × Nat) (after : View) : Prop where
  rest : after = { before with
    record := after.record, slot := after.slot, layout := after.layout, byte := after.byte,
    journal := after.journal }
  others : ∀ other ≠ key, after.record other = before.record other
  residence : (after.record key).map (·.residence) = (before.record key).map (·.residence)
  slot : ∀ slot, before.used slot = true → after.slot slot = before.slot slot
  layout : ∀ file, after.layout file = before.layout file ∨
    (∃ frame window, before.Holds key frame (some window) ∧ window.file = file) ∧
      ∃ length, after.layout file = (before.layout file).map ({ · with length := length })
  byte : ∀ spot, ¬ before.Backs key spot → after.byte spot = before.byte spot

namespace Unmoved

theorem refl (view : View) (key : Nat × Nat) : view.Unmoved key view :=
  ⟨rfl, fun _ _ => rfl, rfl, fun _ _ => rfl, fun _ => .inl rfl, fun _ _ => rfl⟩

theorem used (unmoved : before.Unmoved key after) : after.used = before.used := by
  rw [unmoved.rest]

theorem holder (unmoved : before.Unmoved key after) : after.holder = before.holder := by
  rw [unmoved.rest]

theorem translation (unmoved : before.Unmoved key after) :
    after.translation = before.translation := by
  rw [unmoved.rest]

theorem holds (unmoved : before.Unmoved key after) (holds : after.Holds key frame window) :
    before.Holds key frame window := by
  obtain ⟨dirty, recorded⟩ := holds
  have same := unmoved.residence
  rw [recorded, Option.map_some, eq_comm, Option.map_eq_some_iff] at same
  obtain ⟨⟨_, dirty'⟩, recorded', rfl⟩ := same
  exact ⟨dirty', recorded'⟩

theorem litter (unmoved : before.Unmoved key view) {place : Nat} (junk : Page)
    (free : view.used place = false) : before.Unmoved key (view.after (.litter place junk)) where
  rest := by rw [unmoved.rest]; rfl
  others := unmoved.others
  residence := unmoved.residence
  slot slot taken := by
    have elsewhere : slot ≠ place := by
      rintro rfl
      rw [unmoved.used, taken] at free
      cases free
    exact (Function.update_of_ne elsewhere ..).trans (unmoved.slot slot taken)
  layout := unmoved.layout
  byte := unmoved.byte

theorem soil (unmoved : before.Unmoved key view) : before.Unmoved key (view.after (.soil key)) where
  rest := by rw [unmoved.rest]; rfl
  others other distinct := (Function.update_of_ne distinct ..).trans (unmoved.others other distinct)
  residence := by
    rw [← unmoved.residence]
    simp only [View.after, put, Function.update_self, Option.map_map]
    rfl
  slot := unmoved.slot
  layout := unmoved.layout
  byte := unmoved.byte

theorem exists_layout (unmoved : before.Unmoved key view) {file : Nat} {layout : Layout}
    (there : view.layout file = some layout) :
    ∃ old, before.layout file = some old ∧ layout = { old with length := layout.length } := by
  rcases unmoved.layout file with same | ⟨-, length, grown⟩
  · exact ⟨layout, same ▸ there, rfl⟩
  · obtain ⟨old, was, rfl⟩ := Option.map_eq_some_iff.mp (grown.symm.trans there)
    exact ⟨old, was, rfl⟩

theorem flush (unmoved : before.Unmoved key view) {window : FileWindow} {layout : Layout}
    {count : Nat} (permitted : view.Permits strict (.flush key frame window layout count)) :
    before.Unmoved key (view.after (.flush key frame window layout count)) := by
  obtain ⟨recorded, there, -, few, -⟩ := permitted
  have holds : before.Holds key frame (some window) := unmoved.holds ⟨true, recorded⟩
  obtain ⟨old, was, kept⟩ := unmoved.exists_layout there
  have grown (stop : Nat) :
      layout.grown stop = { old with length := (layout.grown stop).length } := by
    rw [kept]
    exact Layout.grown_eq ..
  refine ⟨by rw [unmoved.rest]; rfl, unmoved.others, unmoved.residence, unmoved.slot, ?_, ?_⟩
  · intro file
    by_cases same : file = window.file
    · subst same
      let stop := window.offset + ((view.contents frame).slice 0 window.length).length
      refine .inr ⟨⟨frame, window, holds, rfl⟩, (layout.grown stop).length, ?_⟩
      rw [was, Option.map_some, ← grown]
      exact Function.update_self ..
    · rw [show (view.after (.flush key frame window layout count)).layout file = view.layout file
        from Function.update_of_ne same ..]
      exact unmoved.layout file
  · intro spot elsewhere
    rw [← unmoved.byte spot elsewhere]
    simp only [View.after, write, overwrite]
    split
    · rename_i inside
      have past : window.length ≤ spot.2 - (layout.origin + window.offset) := by
        by_contra short
        refine elsewhere ⟨frame, window, old, holds, was, ?_, ?_, ?_⟩
        · rw [inside.1, kept]
        · have := inside.2
          rw [kept] at this
          exact this
        · rw [kept] at short
          dsimp only at short
          omega
      rw [List.getElem?_eq_none, Option.getD_none]
      exact Nat.le_trans (List.length_take_le ..) (Nat.le_trans few past)
    · rfl

theorem after_tries (unmoved : before.Unmoved key view) {step : Step} (tries : step.Tries key)
    (permitted : view.Permits strict step) : before.Unmoved key (view.after step) := by
  cases step with
  | litter place junk => exact unmoved.litter junk permitted
  | soil =>
      cases tries
      exact unmoved.soil
  | flush =>
      cases tries
      exact unmoved.flush permitted
  | _ => exact tries.elim

end Unmoved

structure Displaced (before : View) (key : Nat × Nat) (frame : Nat) (after : View) : Prop where
  unpinned : before.Unpinned frame
  moved : ∃ window residence, before.Holds key frame window ∧
    after.record key = some ⟨residence, false⟩ ∧ residence.Outside window
  others : ∀ other ≠ key, after.record other = before.record other
  translation : after.translation = Function.update before.translation key none
  holder : after.holder = Function.update before.holder frame none
  slots : ∀ slot, before.used slot = true →
    after.used slot = true ∧ after.slot slot = before.slot slot

theorem Unmoved.displaced (unmoved : before.Unmoved key view) {step : Step}
    (vacates : step.Vacates key frame window) (permitted : view.Permits strict step) :
    before.Displaced key frame (view.after step) := by
  have unpinned (free : view.Unpinned frame) : before.Unpinned frame :=
    fun holder held => free holder (unmoved.holder ▸ held)
  have others {record : Option PageRecord} (other : Nat × Nat) (distinct : other ≠ key) :
      Function.update view.record key record other = before.record other :=
    (Function.update_of_ne distinct ..).trans (unmoved.others other distinct)
  cases step with
  | swapOut evicted place slot =>
      obtain ⟨rfl, rfl, rfl⟩ := vacates
      obtain ⟨holds, free, unused⟩ := permitted
      refine ⟨unpinned free,
        ⟨none, .inSwap slot, unmoved.holds holds, Function.update_self .., rfl⟩, others,
        unmoved.translation ▸ rfl, unmoved.holder ▸ rfl, fun other taken => ?_⟩
      have distinct : other ≠ slot := by
        rintro rfl
        rw [unmoved.used, taken] at unused
        cases unused
      refine ⟨?_, ?_⟩
      · rw [← taken, ← unmoved.used]
        exact Function.update_of_ne distinct ..
      · rw [← unmoved.slot other taken]
        exact Function.update_of_ne distinct ..
  | fileOut evicted place saved =>
      obtain ⟨rfl, rfl, rfl⟩ := vacates
      obtain ⟨holds, free, -⟩ := permitted
      exact ⟨unpinned free,
        ⟨some saved, .inFile saved, unmoved.holds holds, Function.update_self .., rfl⟩, others,
        unmoved.translation ▸ rfl, unmoved.holder ▸ rfl,
        fun other taken => ⟨unmoved.used ▸ taken, unmoved.slot other taken⟩⟩
  | _ => exact vacates.elim

end View

namespace Machine

variable {strict : Prop} {machine after : Machine} {key : Nat × Nat} {frame : Nat}
  {window : Option FileWindow}

theorem Through.unmoved (through : machine.Through strict (Step.Tries key) after) :
    machine.view.Unmoved key after.view := by
  obtain ⟨steps, moves, tries⟩ := through
  exact moves.path.keeps tries
    (fun _ _ tries permitted unmoved => unmoved.after_tries tries permitted) (.refl _ key)

theorem Left.displaced (left : machine.Left strict key frame window after) :
    machine.view.Displaced key frame after.view := by
  obtain ⟨middle, step, through, last, vacates⟩ := left
  obtain ⟨permitted, seen⟩ := last.path.of_single
  rw [seen]
  exact through.unmoved.displaced vacates permitted

theorem Shaped.usage_eq (shaped : machine.Shaped strict) (shapedAfter : after.Shaped strict)
    (frames : after.view.frames = machine.view.frames)
    (slots : after.view.slots = machine.view.slots)
    (holder : after.view.holder = machine.view.holder)
    (used : after.view.used = machine.view.used) : after.usage = machine.usage := by
  have resident : after.pool.resident = machine.pool.resident := by
    rw [shapedAfter.counted, shaped.counted, Pool.occupied_congr]
    exact fun frame => congrArg Option.isSome (congrFun holder frame)
  have taken : after.store.swap.usedSlots = machine.store.swap.usedSlots := by
    have same : after.store.swap.used.bits = machine.store.swap.used.bits := slots
    rw [SwapArea.usedSlots, SwapArea.usedSlots, Bitmap.count_eq shaped.slots.1 shaped.slots.2,
      Bitmap.count_eq shapedAfter.slots.1 shapedAfter.slots.2, same]
    congr 1
    apply Finset.filter_congr
    intro slot _
    exact decide_eq_decide.mp (congrFun used slot)
  rw [usage, usage, resident, taken, show after.pool.size = machine.pool.size from frames,
    show after.store.swap.capacity = machine.store.swap.capacity from slots]

end Machine

end DemandPaging
