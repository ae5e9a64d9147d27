import DemandPaging.Proofs.View.Backed
import DemandPaging.Proofs.View.Consistent

namespace DemandPaging

abbrev Memory := Nat × Nat → Nat → Option UInt8

def Memory.patch (memory : Memory) (key : Nat × Nat) (offset : Nat) (data : Bytes) : Memory :=
  fun other i =>
    if other = key ∧ offset ≤ i then (memory other i).map fun old => (data[i - offset]?).getD old
    else memory other i

/-- How many bytes of a page are kept when it leaves its frame. -/
def Residence.kept (residence : Residence) : Nat := residence.window?.elim pageSize (·.length)

def Step.effect (memory : Memory) : Step → Memory
  | .kernelWrite key _ offset data | .userWrite key _ offset data => memory.patch key offset data
  | _ => memory

def effects (steps : List Step) (memory : Memory) : Memory := steps.foldl Step.effect memory

def Step.Silent : Step → Prop
  | .kernelWrite _ _ _ _ | .userWrite _ _ _ _ => False
  | _ => True

theorem Step.Silent.effect {step : Step} (silent : step.Silent) (memory : Memory) :
    step.effect memory = memory := by
  cases step with
  | kernelWrite | userWrite => exact silent.elim
  | _ => rfl

theorem effects_of_silent {steps : List Step} (silent : ∀ step ∈ steps, step.Silent)
    (memory : Memory) : effects steps memory = memory := by
  induction steps with
  | nil => rfl
  | cons step rest ih =>
      obtain ⟨here, there⟩ := List.forall_mem_cons.mp silent
      exact (congrArg (effects rest) (here.effect memory)).trans (ih there)

theorem effects_append (steps more : List Step) (memory : Memory) :
    effects (steps ++ more) memory = effects more (effects steps memory) :=
  List.foldl_append ..

theorem Step.effect_congr {memory other : Memory} {key : Nat × Nat} (same : memory key = other key)
    (step : Step) : step.effect memory key = step.effect other key := by
  cases step with
  | kernelWrite | userWrite =>
      funext i
      simp only [effect, Memory.patch, same]
  | _ => exact same

theorem effects_congr {memory other : Memory} {key : Nat × Nat} (same : memory key = other key)
    {steps : List Step} : effects steps memory key = effects steps other key := by
  induction steps generalizing memory other with
  | nil => exact same
  | cons step rest ih => exact ih (step.effect_congr same)

def FileWindow.Apart (window other : FileWindow) : Prop :=
  window.file = other.file →
    ∀ i < window.length, ∀ j < other.length, window.offset + i ≠ other.offset + j

namespace View

def logical (view : View) : Memory := fun key i =>
  (view.record key).bind fun record =>
    if i < record.residence.kept then (view.image record.residence)[i]? else none

def Faithful (view : View) : Prop :=
  ∀ ⦃key frame window⦄, view.Holds key frame (some window) → view.modified key frame = false →
    view.Saved frame window

def Alone (view : View) (file : Nat) : Prop :=
  ∀ ⦃other layout place⦄, file ≠ other → view.layout file = some layout →
    view.layout other = some place → layout.bank = place.bank →
    (∃ index, layout.bank = .device index) ∧
      (layout.origin + layout.length ≤ place.origin ∨ place.origin + place.length ≤ layout.origin)

def Disjoint (view : View) : Prop :=
  ∀ ⦃file other layout place⦄, file ≠ other → view.layout file = some layout →
    view.layout other = some place → layout.bank = place.bank →
    (∃ index, layout.bank = .device index) ∧
      (layout.origin + layout.length ≤ place.origin ∨ place.origin + place.length ≤ layout.origin)

/-- No byte of a file lies in the windows of two pages. -/
def Unshared (view : View) : Prop :=
  ∀ ⦃key other window lies⦄, key ≠ other → view.backing key = some (some window) →
    view.backing other = some (some lies) → window.Apart lies

structure Careful (view : View) : Prop where
  backed : view.Backed
  faithful : view.Faithful
  disjoint : view.Disjoint
  unshared : view.Unshared

variable {strict : Prop} {view : View} {key other : Nat × Nat} {frame : Nat}

theorem logical_eq {record : PageRecord} (found : view.record key = some record) (i : Nat) :
    view.logical key i =
      if i < record.residence.kept then (view.image record.residence)[i]? else none := by
  simp [logical, found]

theorem logical_congr {later : View} {before after : PageRecord}
    (found : view.record key = some before) (found' : later.record key = some after)
    (kept : after.residence.kept = before.residence.kept)
    (same : ∀ i < before.residence.kept,
      (later.image after.residence)[i]? = (view.image before.residence)[i]?) :
    later.logical key = view.logical key := by
  funext i
  rw [logical_eq found, logical_eq found', kept]
  split
  · rename_i inside
    exact same i inside
  · rfl

theorem logical_same {later : View} {record : PageRecord} (found : view.record key = some record)
    (found' : later.record key = some record)
    (same : later.image record.residence = view.image record.residence) :
    later.logical key = view.logical key :=
  logical_congr found found' rfl fun _ _ => by rw [same]

theorem Holds.logical_eq {window : Option FileWindow} (holds : view.Holds key frame window)
    (i : Nat) : view.logical key i =
      if i < window.elim pageSize (·.length) then (view.contents frame)[i]? else none := by
  obtain ⟨dirty, found⟩ := holds
  exact View.logical_eq found i

theorem Consistent.frame_ne (consistent : view.Consistent) {window : Option FileWindow} {free : Nat}
    (holds : view.Holds key frame window) (vacant : view.holder free = none) : frame ≠ free := by
  rintro rfl
  obtain ⟨pins, written, held⟩ := consistent.exists_holder holds
  rw [held] at vacant
  cases vacant

theorem Consistent.eq_of_frame (consistent : view.Consistent) {window lies : Option FileWindow}
    (holds : view.Holds key frame window) (holds' : view.Holds other frame lies) : key = other := by
  have first := consistent.tenanted.mp holds.frameOf
  have second := consistent.tenanted.mp holds'.frameOf
  exact Option.some.inj (first.symm.trans second)

/-! ## Steps that leave a page in its place -/

theorem image_congr {later : View} {residence : Residence}
    (contents : ∀ place, residence.frame? = some place → later.contents place = view.contents place)
    (slot : ∀ place, residence.slot? = some place → later.slot place = view.slot place)
    (layout : later.layout = view.layout) (byte : later.byte = view.byte) :
    later.image residence = view.image residence := by
  cases residence with
  | untouched => rfl
  | inFrame place window => exact contents place rfl
  | inSwap place => exact slot place rfl
  | inFile window =>
      simp only [image, windowPage, backed, fileByte, layout, byte]
      rfl

theorem holds_of_frame? {record : PageRecord} (found : view.record key = some record)
    (inside : record.residence.frame? = some frame) :
    ∃ window, view.Holds key frame window := by
  obtain ⟨residence, dirty⟩ := record
  cases residence with
  | inFrame place window =>
      cases inside
      exact ⟨window, dirty, found⟩
  | untouched | inSwap | inFile => cases inside

theorem logical_of_fill (written : Nat) {later : View} {record : PageRecord}
    (found : view.record key = some record) (found' : later.record key = some record)
    (elsewhere : record.residence.frame? ≠ some written)
    (contents : ∀ place, place ≠ written → later.contents place = view.contents place)
    (slot : later.slot = view.slot) (layout : later.layout = view.layout)
    (byte : later.byte = view.byte) : later.logical key = view.logical key := by
  refine logical_same found found' (image_congr (fun place inside => contents place ?_)
    (fun place _ => congrFun slot place) layout byte)
  rintro rfl
  exact elsewhere inside

theorem logical_of_overlay {later : View} {window : Option FileWindow} {offset : Nat} {data : Bytes}
    (holds : view.Holds key frame window) (holds' : later.Holds key frame window)
    (contents : later.contents frame = (view.contents frame).overlay offset data) :
    later.logical key = (view.logical.patch key offset data) key := by
  funext i
  have small : window.elim pageSize (·.length) ≤ 4096 := by
    cases window with
    | none => exact Nat.le_refl _
    | some window => exact window.short
  rw [holds'.logical_eq, Memory.patch, holds.logical_eq, contents]
  by_cases inside : i < window.elim pageSize (·.length)
  · have short : i < 4096 := by omega
    simp only [inside, if_true, true_and, Vector.getElem?_eq_getElem short, Block.getElem_overlay]
    split <;> rfl
  · simp [inside]

/-! ## Bytes of files -/

theorem Fits.backed_eq {window : FileWindow} (fits : view.Fits window) :
    view.backed window = window.length := by
  rcases fits with empty | ⟨layout, there, inside⟩
  · simp only [backed, Storage.available, empty]
    cases view.layout window.file with
    | none => rfl
    | some layout => simp only [Option.elim_some]; omega
  · simp only [backed, there, Option.elim_some, Storage.available]
    omega

theorem getElem?_windowPage {window : FileWindow} (fits : view.Fits window) {i : Nat}
    (small : i < window.length) :
    (view.windowPage window)[i]? = some (view.fileByte window.file (window.offset + i)) := by
  have short : i < 4096 := Nat.lt_of_lt_of_le small window.short
  rw [Vector.getElem?_eq_getElem short]
  simp only [windowPage, Vector.getElem_ofFn, fits.backed_eq, small, if_true]

theorem fileByte_after_flush {file position : Nat} (alone : view.Alone file) {place layout : Layout}
    {window : FileWindow} {count : Nat}
    (permitted : view.Permits strict (.flush other frame window layout count))
    (found : view.layout file = some place) (inside : position < place.length)
    (outside : window.file = file →
      ¬ (window.offset ≤ position ∧ position < window.offset + window.length)) :
    (view.after (.flush other frame window layout count)).fileByte file position =
      view.fileByte file position := by
  obtain ⟨-, there, -, few, takes⟩ := permitted
  simp only [fileByte, after, write, overwrite]
  by_cases same : file = window.file
  · have outside := outside same.symm
    simp only [same, Function.update_self, there, Option.elim_some, Layout.bank_grown,
      Layout.origin_grown, true_and]
    split
    · rw [List.getElem?_take, if_neg (by omega), Option.getD_none]
    · rfl
  · rw [Function.update_of_ne same]
    simp only [found, Option.elim_some]
    split
    · rename_i reached
      obtain ⟨shared, reached⟩ := reached
      -- A file in the same bank cannot grow, so that what is written of it lies in it.
      obtain ⟨⟨index, fixed⟩, apart⟩ := alone same found there shared
      have short : count = 0 ∨ window.offset + count ≤ layout.length := by
        rcases takes with ⟨number, own⟩ | short
        · rw [← shared, fixed] at own
          cases own
        · exact short
      rw [List.getElem?_take, if_neg (by omega), Option.getD_none]
    · rfl

theorem fileByte_after_flush_of_apart (disjoint : view.Disjoint) {window lies : FileWindow}
    {layout : Layout} {count i : Nat}
    (permitted : view.Permits strict (.flush other frame window layout count))
    (fits : view.Fits lies) (apart : lies.Apart window) (small : i < lies.length) :
    (view.after (.flush other frame window layout count)).fileByte lies.file (lies.offset + i) =
      view.fileByte lies.file (lies.offset + i) := by
  rcases fits with empty | ⟨place, found, inside⟩
  · omega
  · have alone : view.Alone lies.file := fun _ _ _ distinct => disjoint distinct
    refine fileByte_after_flush alone permitted found (by omega) fun same within => ?_
    exact apart same.symm i small (lies.offset + i - window.offset) (by omega) (by omega)

theorem Careful.fileByte_after_flush (careful : view.Careful) {window lies : FileWindow}
    {layout : Layout} {count i : Nat}
    (permitted : view.Permits strict (.flush other frame window layout count))
    (backing : view.backing key = some (some lies)) (distinct : key ≠ other)
    (small : i < lies.length) :
    (view.after (.flush other frame window layout count)).fileByte lies.file (lies.offset + i) =
      view.fileByte lies.file (lies.offset + i) := by
  have holds : view.backing other = some (some window) := Holds.backing ⟨true, permitted.1⟩
  exact View.fileByte_after_flush_of_apart careful.disjoint permitted (careful.backed backing)
    (careful.unshared distinct backing holds) small

/-! ## All steps -/

theorem slot_ne_of_unused (consistent : view.Consistent) {record : PageRecord} {slot place : Nat}
    (found : view.record key = some record) (inside : record.residence.slot? = some place)
    (free : view.used slot = false) : place ≠ slot := by
  rintro rfl
  have taken : view.used place = true :=
    consistent.stored.mpr ⟨key, by simp [slotOf, found, inside]⟩
  rw [taken] at free
  cases free

theorem logical_after_flush {window : FileWindow} {layout : Layout} {count : Nat}
    (permitted : view.Permits strict (.flush other frame window layout count))
    (found : view.record key ≠ none) (safe : view.backing key = some none ∨ view.Careful) :
    (view.after (.flush other frame window layout count)).logical key = view.logical key := by
  obtain ⟨⟨residence, dirty⟩, found⟩ := Option.ne_none_iff_exists'.mp found
  cases residence with
  | untouched | inFrame | inSwap => exact logical_same found found rfl
  | inFile lies =>
      have backing : view.backing key = some (some lies) := backing_of_record found
      rcases safe with anonymous | careful
      · rw [backing] at anonymous
        cases anonymous
      have distinct : key ≠ other := by
        rintro rfl
        rw [permitted.1] at found
        cases found
      refine logical_congr found found rfl fun i small => ?_
      have fits := careful.backed backing
      change ((view.after _).windowPage lies)[i]? = (view.windowPage lies)[i]?
      rw [getElem?_windowPage (fits.after _ permitted) small, getElem?_windowPage fits small,
        careful.fileByte_after_flush permitted backing distinct small]

theorem logical_after_swapOut (consistent : view.Consistent) {slot : Nat}
    (permitted : view.Permits strict (.swapOut other frame slot)) (found : view.record key ≠ none) :
    (view.after (.swapOut other frame slot)).logical key = view.logical key := by
  obtain ⟨record, found⟩ := Option.ne_none_iff_exists'.mp found
  have records : (view.after (.swapOut other frame slot)).record =
      Function.update view.record other (some ⟨.inSwap slot, false⟩) := rfl
  by_cases same : key = other
  · subst same
    obtain ⟨⟨dirty, here⟩, -, -⟩ := permitted
    have moved := (congrFun records key).trans (Function.update_self ..)
    apply logical_congr here moved rfl
    intro i _
    exact congrArg (fun page : Page => page[i]?) (Function.update_self ..)
  · refine logical_same found (by rw [records, Function.update_of_ne same, found])
      (image_congr (fun _ _ => rfl) (fun place inside => ?_) rfl rfl)
    exact Function.update_of_ne (slot_ne_of_unused consistent found inside permitted.2.2) ..

theorem logical_after_fileOut {window : FileWindow}
    (permitted : view.Permits strict (.fileOut other frame window)) (found : view.record key ≠ none)
    (safe : view.backing key = some none ∨ view.Careful) :
    (view.after (.fileOut other frame window)).logical key = view.logical key := by
  obtain ⟨record, found⟩ := Option.ne_none_iff_exists'.mp found
  have records : (view.after (.fileOut other frame window)).record =
      Function.update view.record other (some ⟨.inFile window, false⟩) := rfl
  by_cases same : key = other
  · subst same
    obtain ⟨holds, -, saved⟩ := permitted
    rcases safe with anonymous | careful
    · rw [holds.backing] at anonymous
      cases anonymous
    have agree : view.Saved frame window := saved.elim (careful.faithful holds) id
    obtain ⟨dirty, here⟩ := holds.recorded
    have moved := (congrFun records key).trans (Function.update_self ..)
    apply logical_congr here moved rfl
    intro i small
    exact (getElem?_windowPage (careful.backed holds.backing) small).trans (agree i small).symm
  · exact logical_same found (by rw [records, Function.update_of_ne same, found]) rfl

theorem logical_after_bringIn (consistent : view.Consistent) {residence : Residence}
    (permitted : view.Permits strict (.bringIn other frame residence))
    (found : view.record key ≠ none) :
    (view.after (.bringIn other frame residence)).logical key = view.logical key := by
  obtain ⟨record, found⟩ := Option.ne_none_iff_exists'.mp found
  have records := view.record_after_bringIn other frame residence
  have contents := view.contents_after_bringIn other frame residence
  obtain ⟨⟨dirty, here⟩, away, free⟩ := permitted
  by_cases same : key = other
  · subst same
    have moved := (congrFun records key).trans (Function.update_self ..)
    apply logical_congr here moved rfl
    intro i _
    change ((view.after (.bringIn key frame residence)).contents frame)[i]? = _
    rw [contents, Function.update_self]
  · refine logical_of_fill frame found (by rw [records, Function.update_of_ne same, found])
      (fun inside => ?_) (fun place distinct => ?_) ?_ ?_ ?_
    · obtain ⟨window, holds⟩ := holds_of_frame? found inside
      exact consistent.frame_ne holds free rfl
    · rw [contents, Function.update_of_ne distinct]
    all_goals cases residence <;> rfl

theorem patch_of_ne (memory : Memory) (offset : Nat) (data : Bytes) (distinct : key ≠ other) :
    memory.patch other offset data key = memory key := by
  funext i
  simp [Memory.patch, distinct]

theorem logical_after_write (consistent : view.Consistent) {later : View}
    {window : Option FileWindow} {offset : Nat} {data : Bytes}
    (holds : view.Holds other frame window) (found : view.record key ≠ none)
    (record : later.record = view.record)
    (contents : later.contents =
      Function.update view.contents frame ((view.contents frame).overlay offset data))
    (slot : later.slot = view.slot) (layout : later.layout = view.layout)
    (byte : later.byte = view.byte) :
    later.logical key = view.logical.patch other offset data key := by
  obtain ⟨before, found⟩ := Option.ne_none_iff_exists'.mp found
  by_cases same : key = other
  · subst same
    obtain ⟨dirty, here⟩ := holds
    exact logical_of_overlay ⟨dirty, here⟩ ⟨dirty, by rw [record, here]⟩
      (by rw [contents, Function.update_self])
  · rw [patch_of_ne _ _ _ same]
    refine logical_of_fill frame found (by rw [record, found]) (fun inside => ?_)
      (fun place distinct => by rw [contents, Function.update_of_ne distinct]) slot layout byte
    obtain ⟨lies, holds'⟩ := holds_of_frame? found inside
    exact same (consistent.eq_of_frame holds' holds)

/-- A page that stays changes what it holds only by a write to it. -/
theorem logical_after (consistent : view.Consistent) {step : Step}
    (permitted : view.Permits strict step) (found : view.record key ≠ none)
    (found' : (view.after step).record key ≠ none)
    (safe : view.backing key = some none ∨ view.Careful) :
    (view.after step).logical key = step.effect view.logical key := by
  obtain ⟨record, recorded⟩ := Option.ne_none_iff_exists'.mp found
  cases step with
  | scribble free page =>
      refine logical_of_fill free recorded recorded (fun inside => ?_)
        (fun place distinct => Function.update_of_ne distinct ..) rfl rfl rfl
      obtain ⟨window, holds⟩ := holds_of_frame? recorded inside
      exact consistent.frame_ne holds permitted rfl
  | litter slot page =>
      refine logical_same recorded recorded
        (image_congr (fun _ _ => rfl) (fun place inside => ?_) rfl rfl)
      exact Function.update_of_ne (slot_ne_of_unused consistent recorded inside permitted) ..
  | soil other =>
      by_cases same : key = other
      · subst same
        have soiled : (view.after (.soil key)).record key = some { record with dirty := true } := by
          simp [after, put, recorded]
        exact logical_congr recorded soiled rfl fun _ _ => rfl
      · refine logical_same recorded ?_ rfl
        simp [after, put, same, recorded]
  | flush => exact logical_after_flush permitted found safe
  | swapOut => exact logical_after_swapOut consistent permitted found
  | fileOut => exact logical_after_fileOut permitted found safe
  | bringIn => exact logical_after_bringIn consistent permitted found
  | kernelWrite other place offset data =>
      obtain ⟨window, holds⟩ := permitted
      exact logical_after_write consistent holds found rfl rfl rfl rfl rfl
  | userWrite other place offset data =>
      obtain ⟨window, holds⟩ := permitted
      exact logical_after_write consistent holds found rfl rfl rfl rfl rfl
  | install other residence =>
      have distinct : key ≠ other := by
        rintro rfl
        exact found permitted.2.1
      refine logical_same recorded ?_ rfl
      simp [after, put, distinct, recorded]
  | drop other dropped saved =>
      have records := view.record_after_drop other dropped saved
      have distinct : key ≠ other := by
        rintro rfl
        rw [records, Function.update_self] at found'
        exact found' rfl
      apply logical_same recorded (by rw [records, Function.update_of_ne distinct, recorded])
      obtain ⟨residence, dirty⟩ := dropped
      cases residence <;> rfl
  | pin | unpin | stain | enter | forget | create | destroy => rfl

end View

end DemandPaging
