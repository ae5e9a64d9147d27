import Std.Data.ExtTreeMap
import DemandPaging.Bytes

namespace DemandPaging

structure Sectors where
  written : Std.ExtTreeMap Nat Sector := ∅

namespace Sectors

def get (row : Sectors) (sector : Nat) : Sector := (row.written[sector]?).getD (Block.zero 512)

def put (row : Sectors) (sector : Nat) (data : Sector) : Sectors :=
  ⟨row.written.insert sector data⟩

def place (position : Nat) : Fin 512 := ⟨position % sectorSize, Nat.mod_lt _ (by decide)⟩

def byteAt (row : Sectors) (position : Nat) : UInt8 :=
  (row.get (position / sectorSize))[place position]

def read (row : Sectors) (start length : Nat) : Bytes :=
  if length = 0 then []
  else
    let room := min (sectorSize - start % sectorSize) length
    (row.get (start / sectorSize)).slice (start % sectorSize) room ++
      read row (start + room) (length - room)
termination_by length
decreasing_by
  have := Nat.mod_lt start (show 0 < sectorSize by decide)
  omega

def write (row : Sectors) (start : Nat) (data : Bytes) : Sectors :=
  if data = [] then row
  else
    let sector := start / sectorSize
    let room := sectorSize - start % sectorSize
    let filled := (row.get sector).overlay (start % sectorSize) (data.take room)
    write (row.put sector filled) (start + room) (data.drop room)
termination_by data.length
decreasing_by
  have := List.length_pos_iff.mpr ‹data ≠ []›
  have := Nat.mod_lt start (show 0 < sectorSize by decide)
  simp only [List.length_drop]
  omega

def ofBytes (data : Bytes) : Sectors := ({} : Sectors).write 0 data

theorem get_put (row : Sectors) (sector : Nat) (data : Sector) (other : Nat) :
    (row.put sector data).get other = if other = sector then data else row.get other := by
  simp only [get, put, Std.ExtTreeMap.getElem?_insert, Nat.compare_eq_eq, eq_comm (a := sector)]
  split <;> rfl

theorem byteAt_put (row : Sectors) (sector : Nat) (data : Sector) (position : Nat) :
    (row.put sector data).byteAt position =
      if position / sectorSize = sector then data[place position] else row.byteAt position := by
  simp only [byteAt, get_put]
  split <;> rfl

theorem getElem?_get (row : Sectors) (start i : Nat) (near : start % sectorSize + i < 512) :
    (row.get (start / sectorSize))[start % sectorSize + i]? = some (row.byteAt (start + i)) := by
  have same : (start + i) / sectorSize = start / sectorSize := by
    simp only [sectorSize] at near ⊢
    omega
  have shifted : (place (start + i)).val = start % sectorSize + i := by
    simp only [place, sectorSize] at near ⊢
    omega
  rw [byteAt, same, Fin.getElem_fin, Vector.getElem?_eq_getElem near]
  simp only [shifted]

theorem getElem?_read (row : Sectors) (start length i : Nat) :
    (row.read start length)[i]? = if i < length then some (row.byteAt (start + i)) else none := by
  fun_induction read row start length generalizing i with
  | case1 start => simp
  | case2 start length more room ih =>
      have roomSize : room = min (512 - start % 512) length := rfl
      have begins : start % sectorSize = start % 512 := rfl
      clear_value room
      rw [List.getElem?_append, Block.length_slice, Block.getElem?_slice, ih]
      by_cases early : i < room
      · rw [if_pos (show i < min room (512 - start % sectorSize) by rw [begins]; omega),
          if_pos early, if_pos (show i < length by omega),
          getElem?_get _ _ _ (show start % sectorSize + i < 512 by rw [begins]; omega)]
      · have filled : min room (512 - start % sectorSize) = room := by rw [begins]; omega
        rw [filled, if_neg early, show start + room + (i - room) = start + i by omega]
        by_cases inside : i < length
        · rw [if_pos (show i - room < length - room by omega), if_pos inside]
        · rw [if_neg (show ¬ i - room < length - room by omega), if_neg inside]

theorem length_read (row : Sectors) (start length : Nat) :
    (row.read start length).length = length := by
  fun_induction read row start length with
  | case1 start => simp
  | case2 start length more room ih =>
      have roomSize : room = min (512 - start % 512) length := rfl
      have begins : start % sectorSize = start % 512 := rfl
      clear_value room
      rw [List.length_append, Block.length_slice, ih, begins]
      omega

theorem byteAt_put_overlay (row : Sectors) (start : Nat) (data : Bytes) (position : Nat) :
    (row.put (start / sectorSize)
        ((row.get (start / sectorSize)).overlay (start % sectorSize) data)).byteAt position =
      if start ≤ position ∧ position / sectorSize = start / sectorSize then
        (data[position - start]?).getD (row.byteAt position)
      else row.byteAt position := by
  have begins : start % sectorSize = start % 512 := rfl
  have lies : (place position).val = position % 512 := rfl
  rw [byteAt_put]
  by_cases same : position / sectorSize = start / sectorSize
  · have near : position / 512 = start / 512 := same
    rw [if_pos same, Fin.getElem_fin, Block.getElem_overlay]
    simp only [byteAt, same, and_true, Fin.getElem_fin]
    by_cases reached : start ≤ position
    · rw [if_pos (show start % sectorSize ≤ (place position).val by rw [begins, lies]; omega),
        if_pos reached,
        show (place position).val - start % sectorSize = position - start by
          rw [begins, lies]; omega]
    · rw [if_neg (show ¬ start % sectorSize ≤ (place position).val by rw [begins, lies]; omega),
        if_neg reached]
  · simp only [same, and_false, if_false]

theorem byteAt_write (row : Sectors) (start : Nat) (data : Bytes) (position : Nat) :
    (row.write start data).byteAt position =
      if start ≤ position then (data[position - start]?).getD (row.byteAt position)
      else row.byteAt position := by
  fun_induction write row start data with
  | case1 row start => simp
  | case2 row start data more sector room filled ih =>
      have roomSize : room = 512 - start % 512 := rfl
      have nearer : position / sectorSize = start / sectorSize →
        position / 512 = start / 512 := id
      have nearby : position / 512 = start / 512 →
        position / sectorSize = start / sectorSize := id
      rw [ih, byteAt_put_overlay, List.getElem?_drop, List.getElem?_take]
      clear_value room
      by_cases later : start + room ≤ position
      · rw [if_pos later, if_neg fun both => by have := nearer both.2; omega,
          if_pos (show start ≤ position by omega),
          show room + (position - (start + room)) = position - start by omega]
      · rw [if_neg later]
        by_cases reached : start ≤ position
        · rw [if_pos ⟨reached, nearby (by omega)⟩, if_pos (show position - start < room by omega),
            if_pos reached]
        · rw [if_neg fun both => reached both.1, if_neg reached]

end Sectors

end DemandPaging
