import DemandPaging.Bitmap
import Mathlib.Data.Finset.Card
import Mathlib.Order.Interval.Finset.Nat
import Mathlib.Data.Nat.Count

/-!
# Bitmaps as sets

What the operations of a bitmap do to the set of its indices that are on: the least index that is off
is claimed (`claim?_spec`), and the count is the size of the set (`count_eq`). Main statement: whatever
was done to it, a bitmap stands for the indices whose last update turned them on
(`bitmap_acts_as_set`).
-/

namespace DemandPaging.Bitmap

variable {map after : Bitmap} {bits index : Nat}

def Sized (map : Bitmap) : Prop := map.words.size = (map.bits + 63) / 64

theorem sized_clear (bits : Nat) : (clear bits).Sized := by
  simp [Sized, clear]

theorem sized_put (sized : map.Sized) (index : Nat) (on : Bool) : (map.put index on).Sized := by
  simpa [Sized, put] using sized

theorem Sized.stored (sized : map.Sized) (inside : index < map.bits) :
    index / 64 < map.words.size := by
  rw [show map.words.size = _ from sized]
  omega

theorem tidy_put (sized : map.Sized) (tidy : map.Tidy) (inside : index < map.bits) (on : Bool) :
    (map.put index on).Tidy := by
  intro other there
  rw [on_put map index on other (sized.stored inside)] at there
  split at there
  · rename_i same
    exact same ▸ inside
  · exact tidy other there

theorem word_eq (sized : map.Sized) (inside : index < map.bits) :
    map.word index = .ok (map.words.getD (index / 64) 0) := by
  have stored := sized.stored inside
  simp [word, stored]

theorem get_eq (sized : map.Sized) (inside : index < map.bits) :
    map.get index = .ok (decide (map.On index)) := by
  simp [get, inside, word_eq sized inside, On, bind, Except.bind, pure, Except.pure]

theorem on_of_get (got : map.get index = .ok true) : map.On index := by
  unfold get at got
  split at got
  · unfold word at got
    split at got
    · rename_i word there
      simpa [On, there, bind, Except.bind, pure, Except.pure] using got
    · cases got
  · cases got

theorem set_eq (sized : map.Sized) (inside : index < map.bits) (on : Bool) :
    map.set index on = .ok (map.put index on) := by
  simp [set, inside, word_eq sized inside, bind, Except.bind, pure, Except.pure]

/-! ## Claiming -/

theorem lowestClear_spec {word : BitVec 64} (room : word ≠ BitVec.allOnes 64) :
    lowestClear word < 64 ∧ word.getLsbD (lowestClear word) = false ∧
      ∀ place < lowestClear word, word.getLsbD place = true := by
  have gap : ∃ place ∈ List.range 64, !word.getLsbD place := by
    by_contra full
    refine room (BitVec.eq_of_getLsbD_eq fun place small => ?_)
    rw [BitVec.getLsbD_allOnes, decide_eq_true small]
    by_contra off
    exact full ⟨place, List.mem_range.mpr small, by simpa using off⟩
  have small : lowestClear word < 64 := by
    simpa [lowestClear] using List.findIdx_lt_length_of_exists gap
  refine ⟨small, ?_, fun place lower => ?_⟩
  · have found := @List.findIdx_getElem _ (!word.getLsbD ·) (List.range 64)
      (by simpa [lowestClear] using small)
    simpa [lowestClear] using found
  · have passed := List.not_of_lt_findIdx (show place < (List.range 64).findIdx _ from lower)
    simpa using passed

theorem claim?_spec (claimed : map.claim? = some (index, after)) :
    index < map.bits ∧ ¬ map.On index ∧ after = map.put index true ∧
      ∀ lower < index, map.On lower := by
  simp only [claim?, Option.bind_eq_bind, Option.bind_eq_some_iff, Option.ite_none_right_eq_some,
    Option.some.injEq, Prod.mk.injEq] at claimed
  obtain ⟨place, found, inside, rfl, rfl⟩ := claimed
  obtain ⟨stored, room, full⟩ := Array.findIdx?_eq_some_iff_getElem.mp found
  have word : map.words.getD place 0 = map.words[place] := by
    simp [Array.getD_eq_getD_getElem?, Array.getElem?_eq_getElem stored]
  have gap : map.words.getD place 0 ≠ BitVec.allOnes 64 := by
    rw [word]
    simpa using room
  obtain ⟨small, clear, below⟩ := lowestClear_spec gap
  have quotient : (place * 64 + lowestClear (map.words.getD place 0)) / 64 = place := by omega
  have remainder : (place * 64 + lowestClear (map.words.getD place 0)) % 64 =
    lowestClear (map.words.getD place 0) := by omega
  refine ⟨inside, ?_, rfl, fun lower less => ?_⟩
  · rw [On, quotient, remainder, clear]
    exact Bool.false_ne_true
  · rcases Nat.lt_or_ge (lower / 64) place with earlier | later
    · have filled := full (lower / 64) earlier
      simp only [bne_iff_ne, ne_eq, Decidable.not_not] at filled
      have present : lower / 64 < map.words.size := Nat.lt_trans earlier stored
      rw [On, Array.getD_eq_getD_getElem?, Array.getElem?_eq_getElem present, filled,
        Option.getD_some, BitVec.getLsbD_allOnes]
      exact decide_eq_true (Nat.mod_lt lower (by decide))
    · have same : lower / 64 = place := by omega
      rw [On, same]
      exact below _ (by omega)

theorem on_of_claim?_eq_none (sized : map.Sized) (refused : map.claim? = none)
    (inside : index < map.bits) : map.On index := by
  have stored := sized.stored inside
  have word : map.words.getD (index / 64) 0 = map.words[index / 64] := by
    simp [Array.getD_eq_getD_getElem?, Array.getElem?_eq_getElem stored]
  have full {place : Nat} (filled : map.words.getD place 0 = BitVec.allOnes 64)
      (here : index / 64 = place) : map.On index := by
    rw [On, here, filled, BitVec.getLsbD_allOnes]
    exact decide_eq_true (Nat.mod_lt index (by decide))
  simp only [claim?, Option.bind_eq_bind, Option.bind_eq_none_iff] at refused
  rcases found : map.words.findIdx? (· != BitVec.allOnes 64) with _ | place
  · have filled := Array.findIdx?_eq_none_iff.mp found _ (Array.getElem_mem stored)
    exact full (by rw [word]; simpa using filled) rfl
  · have past := refused place found
    obtain ⟨present, room, earlier⟩ := Array.findIdx?_eq_some_iff_getElem.mp found
    have gap : map.words.getD place 0 ≠ BitVec.allOnes 64 := by
      simpa [Array.getD_eq_getD_getElem?, Array.getElem?_eq_getElem present] using room
    obtain ⟨small, -, below⟩ := lowestClear_spec gap
    have outside : map.bits ≤ place * 64 + lowestClear (map.words.getD place 0) := by
      simpa using past
    rcases Nat.lt_or_ge (index / 64) place with before | after
    · have filled := earlier (index / 64) before
      exact full (by rw [word]; simpa using filled) rfl
    · have same : index / 64 = place := by omega
      rw [On, same]
      exact below _ (by omega)

/-! ## Counting -/

theorem foldl_countOnes (words : List (BitVec 64)) (start : Nat) :
    words.foldl (fun total word => total + countOnes word) start =
      start + Nat.count (fun index => (words.getD (index / 64) 0).getLsbD (index % 64) = true)
        (64 * words.length) := by
  induction words generalizing start with
  | nil => simp
  | cons word rest ih =>
      have length : 64 * (word :: rest).length = 64 + 64 * rest.length := by
        rw [List.length_cons]
        omega
      have here : countOnes word = Nat.count
          (fun index => ((word :: rest).getD (index / 64) 0).getLsbD (index % 64) = true) 64 := by
        rw [countOnes_eq, Nat.count]
        apply List.countP_congr
        intro index member
        have small := List.mem_range.mp member
        simp [Nat.div_eq_of_lt small, Nat.mod_eq_of_lt small]
      have later : ∀ index, (64 + index) / 64 = index / 64 + 1 ∧ (64 + index) % 64 = index % 64 :=
        fun index => by omega
      rw [List.foldl_cons, ih, length, Nat.count_add, ← here]
      simp only [later, List.getD_cons_succ]
      omega

theorem count_eq (sized : map.Sized) (tidy : map.Tidy) :
    map.count = ((Finset.range map.bits).filter map.On).card := by
  have counted : map.count = Nat.count map.On (64 * map.words.size) := by
    rw [count, ← Array.foldl_toList, foldl_countOnes, Nat.zero_add]
    simp only [Array.length_toList]
    congr 1
    ext index
    simp [On, Array.getD_eq_getD_getElem?, List.getD_eq_getElem?_getD]
  rw [counted, Nat.count_eq_card_filter_range]
  congr 1
  ext index
  simp only [Finset.mem_filter, Finset.mem_range, and_congr_left_iff]
  intro on
  have inside := tidy index on
  have stored := sized.stored inside
  constructor <;> intro <;> omega

/-! ## Histories -/

inductive Entry where
  | set (index : Nat) (on : Bool)
  | claimed (index : Nat)
  | full

namespace Entry

def Happens (entry : Entry) (before after : Bitmap) : Prop :=
  match entry with
  | set index on => before.set index on = .ok after
  | claimed index => before.claim? = some (index, after)
  | full => before.claim? = none ∧ after = before

def update? : Entry → Option (Nat × Bool)
  | set index on => some (index, on)
  | claimed index => some (index, true)
  | full => none

end Entry

/-- What happened to a map of `bits` bits since it was clear, the latest first. -/
inductive History (bits : Nat) : List Entry → Bitmap → Prop where
  | start : History bits [] (clear bits)
  | next {entries : List Entry} {entry : Entry} {before after : Bitmap}
      (earlier : History bits entries before) (happens : entry.Happens before after) :
      History bits (entry :: entries) after

def updates (entries : List Entry) : List (Nat × Bool) := entries.filterMap Entry.update?

def turnedOn (entries : List Entry) : Finset Nat :=
  ((updates entries).map Prod.fst).toFinset.filter fun index =>
    (updates entries).lookup index = some true

theorem mem_turnedOn {entries : List Entry} :
    index ∈ turnedOn entries ↔ (updates entries).lookup index = some true := by
  rw [turnedOn, Finset.mem_filter, List.mem_toFinset, and_iff_right_iff_imp]
  intro found
  obtain ⟨later, earlier, same, -⟩ := List.lookup_eq_some_iff.mp found
  rw [same]
  simp

structure Holds (bits : Nat) (indices : Finset Nat) (map : Bitmap) : Prop where
  length : map.bits = bits
  sized : map.Sized
  tidy : map.Tidy
  on : ∀ index, map.On index ↔ index ∈ indices

namespace Holds

variable {indices : Finset Nat}

theorem put (holds : Holds bits indices map) (inside : index < bits) {on : Bool}
    {changed : Finset Nat}
    (same : ∀ other, other ∈ changed ↔ if other = index then on = true else other ∈ indices) :
    Holds bits changed (map.put index on) where
  length := holds.length
  sized := sized_put holds.sized index on
  tidy := tidy_put holds.sized holds.tidy (holds.length ▸ inside) on
  on other := by
    rw [on_put map index on other (holds.sized.stored (holds.length ▸ inside)), same, holds.on]

theorem below (holds : Holds bits indices map) (member : index ∈ indices) : index < bits :=
  holds.length ▸ holds.tidy index ((holds.on index).mpr member)

theorem get (holds : Holds bits indices map) (inside : index < bits) :
    map.get index = .ok (decide (index ∈ indices)) := by
  rw [get_eq holds.sized (holds.length ▸ inside)]
  simp only [holds.on]

theorem count (holds : Holds bits indices map) : map.count = indices.card := by
  rw [count_eq holds.sized holds.tidy]
  congr 1
  ext index
  rw [Finset.mem_filter, Finset.mem_range, holds.on, holds.length, and_iff_right_iff_imp]
  exact holds.below

theorem claimed (holds : Holds bits indices map) (claimed : map.claim? = some (index, after)) :
    IsLeast {index | index < bits ∧ index ∉ indices} index ∧
      Holds bits (insert index indices) after := by
  obtain ⟨inside, off, rfl, lowest⟩ := claim?_spec claimed
  rw [holds.length] at inside
  constructor
  · constructor
    · exact ⟨inside, fun member => off ((holds.on index).mpr member)⟩
    · intro other missing
      apply Nat.le_of_not_lt
      intro lower
      exact missing.2 ((holds.on other).mp (lowest other lower))
  · apply holds.put inside
    intro other
    rw [Finset.mem_insert]
    by_cases same : other = index <;> simp [same]

theorem full_iff (holds : Holds bits indices map) :
    map.claim? = none ↔ ∀ index < bits, index ∈ indices := by
  constructor
  · intro refused index inside
    exact (holds.on index).mp (on_of_claim?_eq_none holds.sized refused (holds.length ▸ inside))
  · intro full
    cases claimed : map.claim? with
    | none => rfl
    | some found =>
        obtain ⟨⟨⟨inside, missing⟩, -⟩, -⟩ := holds.claimed claimed
        exact absurd (full found.1 inside) missing

theorem set (holds : Holds bits indices map) (inside : index < bits) (on : Bool) :
    ∃ after, map.set index on = .ok after ∧
      Holds bits (if on then insert index indices else indices.erase index) after := by
  refine ⟨map.put index on, set_eq holds.sized (holds.length ▸ inside) on,
    holds.put inside fun other => ?_⟩
  cases on <;> by_cases same : other = index <;> simp [same]

end Holds

theorem lookup_cons_iff {earlier : List (Nat × Bool)} {on : Bool} {other : Nat} :
    ((index, on) :: earlier).lookup other = some true ↔
      if other = index then on = true else earlier.lookup other = some true := by
  rw [List.lookup_cons]
  by_cases same : other = index
  · simp [same]
  · simp [same, beq_eq_false_iff_ne.mpr same]

theorem History.holds {entries : List Entry} (history : History bits entries map) :
    Holds bits (turnedOn entries) map := by
  induction history with
  | start => exact ⟨rfl, sized_clear bits, tidy_clear bits, fun index => by
      simp [not_on_clear, turnedOn, updates]⟩
  | next earlier happens ih =>
      rename_i entries entry before after
      cases entry with
      | set index on =>
          by_cases inside : index < before.bits
          · rw [Entry.Happens, set_eq ih.sized inside] at happens
            cases happens
            apply ih.put (ih.length ▸ inside)
            intro other
            simp only [mem_turnedOn, updates, List.filterMap_cons, Entry.update?, lookup_cons_iff]
          · rw [Entry.Happens, Bitmap.set, if_neg inside] at happens
            cases happens
      | claimed index =>
          obtain ⟨inside, -, rfl, -⟩ := claim?_spec happens
          apply ih.put (ih.length ▸ inside)
          intro other
          simp only [mem_turnedOn, updates, List.filterMap_cons, Entry.update?, lookup_cons_iff]
      | full =>
          obtain ⟨-, rfl⟩ := happens
          exact ih

/-! ## The main statement -/

/-- A map of `bits` bits can not be told from a set of indices. -/
structure ActsAsSet (bits : Nat) (indices : Finset Nat) (map : Bitmap) : Prop where
  below : ∀ index ∈ indices, index < bits
  stored : map.words.size = (bits + 63) / 64
  padding : ∀ (place : Nat) (word : BitVec 64), map.words[place]? = some word →
    ∀ i < 64, bits ≤ 64 * place + i → word.getLsbD i = false
  gets : ∀ index < bits, map.get index = .ok (decide (index ∈ indices))
  count : map.count = indices.card
  sets : ∀ index < bits, ∀ on, ∃ after, map.set index on = .ok after ∧
    Holds bits (if on then insert index indices else indices.erase index) after
  claims : ∀ index after, map.claim? = some (index, after) →
    IsLeast {index | index < bits ∧ index ∉ indices} index ∧
      Holds bits (insert index indices) after
  full : map.claim? = none ↔ ∀ index < bits, index ∈ indices

theorem Holds.padding {indices : Finset Nat} (holds : Holds bits indices map) {place : Nat}
    {word : BitVec 64} (found : map.words[place]? = some word) {i : Nat} (small : i < 64)
    (past : bits ≤ 64 * place + i) : word.getLsbD i = false := by
  have off : ¬ map.On (64 * place + i) := fun on =>
    Nat.not_lt.mpr past (holds.below ((holds.on _).mp on))
  rw [On, show (64 * place + i) / 64 = place by omega, show (64 * place + i) % 64 = i by omega,
    Array.getD_eq_getD_getElem?, found] at off
  simpa using off

/-- Whatever was set and claimed, a map stands for the indices whose last update turned them on. -/
theorem bitmap_acts_as_set {entries : List Entry} (history : History bits entries map) :
    ActsAsSet bits (turnedOn entries) map := by
  have holds := history.holds
  exact {
    below := fun _ => holds.below
    stored := holds.length ▸ holds.sized
    padding := fun _ _ found _ => holds.padding found
    gets := fun _ => holds.get
    count := holds.count
    sets := fun _ => holds.set
    claims := fun _ _ => holds.claimed
    full := holds.full_iff }

/-- Of three bits the first two are claimed around the last, which was set; then there is none left,
although the word has clear bits past the end. -/
theorem bitmap_acts_as_set_when_full : ∃ map, History 3
      [.full, .claimed 1, .set 2 true, .claimed 0] map ∧ map.count = 3 ∧ map.claim? = none := by
  let last : Bitmap := ⟨#[7], 3⟩
  have one : (clear 3).claim? = some (0, ⟨#[1], 3⟩) := by decide +kernel
  have two : Bitmap.set ⟨#[1], 3⟩ 2 true = .ok ⟨#[5], 3⟩ := rfl
  have three : claim? ⟨#[5], 3⟩ = some (1, last) := by decide +kernel
  have four : claim? last = none := by decide +kernel
  have begun : History 3 [.claimed 0] ⟨#[1], 3⟩ := .next .start one
  have gapped : History 3 [.set 2 true, .claimed 0] ⟨#[5], 3⟩ := .next begun two
  have filled : History 3 [.claimed 1, .set 2 true, .claimed 0] last := .next gapped three
  have history : History 3 [.full, .claimed 1, .set 2 true, .claimed 0] last :=
    .next filled ⟨four, rfl⟩
  have acts := bitmap_acts_as_set history
  have all : turnedOn [.full, .claimed 1, .set 2 true, .claimed 0] = Finset.range 3 := by decide
  rw [all] at acts
  exact ⟨last, history, acts.count.trans (Finset.card_range 3),
    acts.full.mpr fun _ => Finset.mem_range.mpr⟩

end DemandPaging.Bitmap
