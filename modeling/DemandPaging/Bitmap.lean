import DemandPaging.Bits
import DemandPaging.Panic

namespace DemandPaging

structure Bitmap where
  words : Array (BitVec 64)
  bits : Nat
  deriving DecidableEq, Repr

namespace Bitmap

def clear (bits : Nat) : Bitmap := ⟨Array.replicate ((bits + 63) / 64) 0, bits⟩

def On (map : Bitmap) (index : Nat) : Prop :=
  (map.words.getD (index / 64) 0).getLsbD (index % 64) = true

instance (map : Bitmap) (index : Nat) : Decidable (map.On index) :=
  inferInstanceAs (Decidable (_ = true))

def Tidy (map : Bitmap) : Prop := ∀ index, map.On index → index < map.bits

def word (map : Bitmap) (index : Nat) : Except Panic (BitVec 64) :=
  match map.words[index / 64]? with
  | some word => .ok word
  | none => .error .outOfBounds

def get (map : Bitmap) (index : Nat) : Except Panic Bool :=
  if index < map.bits then do return (← map.word index).getLsbD (index % 64)
  else .error (.bitOutOfRange index map.bits)

def put (map : Bitmap) (index : Nat) (on : Bool) : Bitmap :=
  { map with words := map.words.modify (index / 64) (putBit · (index % 64) on) }

def set (map : Bitmap) (index : Nat) (on : Bool) : Except Panic Bitmap :=
  if index < map.bits then do
    let _ ← map.word index
    return map.put index on
  else .error (.bitOutOfRange index map.bits)

def countOnes (word : BitVec 64) : Nat :=
  if word = 0 then 0 else (List.range 64).countP word.getLsbD

def count (map : Bitmap) : Nat := map.words.foldl (fun total word => total + countOnes word) 0

def lowestClear (word : BitVec 64) : Nat := (List.range 64).findIdx (!word.getLsbD ·)

def claim? (map : Bitmap) : Option (Nat × Bitmap) := do
  let place ← map.words.findIdx? (· != BitVec.allOnes 64)
  let index := place * 64 + lowestClear (map.words.getD place 0)
  if index < map.bits then some (index, map.put index true) else none

def describe (map : Bitmap) : String :=
  let words := ", ".intercalate (map.words.toList.map (toString ·.toNat))
  s!"Bitmap \x7b words: [{words}], bits: {map.bits} \x7d"

theorem on_put (map : Bitmap) (index : Nat) (on : Bool) (other : Nat)
    (stored : index / 64 < map.words.size) :
    (map.put index on).On other ↔ if other = index then on = true else map.On other := by
  simp only [On, put, Array.getD_eq_getD_getElem?, Array.getElem?_modify]
  by_cases word : index / 64 = other / 64
  · have place : other % 64 = index % 64 ↔ other = index := by omega
    have small : index % 64 < 64 := Nat.mod_lt index (by decide)
    simp [word, word ▸ stored, getLsbD_putBit _ _ _ _ small, place]
  · have distinct : other ≠ index := fun same => word (by rw [same])
    simp [word, distinct]

theorem countOnes_eq (word : BitVec 64) :
    countOnes word = (List.range 64).countP word.getLsbD := by
  unfold countOnes
  split
  · rename_i empty
    subst empty
    decide
  · rfl

theorem not_on_clear (bits index : Nat) : ¬ (clear bits).On index := by
  simp only [On, clear, Array.getD_eq_getD_getElem?, Array.getElem?_replicate]
  split <;> simp

theorem tidy_clear (bits : Nat) : (clear bits).Tidy :=
  fun index on => absurd on (not_on_clear bits index)

end Bitmap

end DemandPaging
