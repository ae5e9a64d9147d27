import DemandPaging.Panic

namespace DemandPaging

abbrev Bytes := List UInt8

abbrev Block (size : Nat) := Vector UInt8 size

def sectorSize : Nat := 512

def sectorsPerPage : Nat := 8

abbrev Sector := Block 512

abbrev Page := Block 4096

namespace Block

def zero (size : Nat) : Block size := Vector.replicate size 0

def overlay {size : Nat} (block : Block size) (start : Nat) (data : Bytes) : Block size :=
  let bytes := data.toArray
  Vector.ofFn fun i => if start ≤ i.val then bytes[i.val - start]?.getD block[i] else block[i]

def slice {size : Nat} (block : Block size) (start length : Nat) : Bytes :=
  List.ofFn fun i : Fin (min length (size - start)) => block[start + i.val]

/-- A slice that must lie within the block. -/
def cut {size : Nat} (block : Block size) (start length : Nat) : Except Panic Bytes :=
  if start + length ≤ size then .ok (block.slice start length) else .error .outOfBounds

def lay {size : Nat} (block : Block size) (start : Nat) (data : Bytes) :
    Except Panic (Block size) :=
  if start + data.length ≤ size then .ok (block.overlay start data) else .error .outOfBounds

def ofBytes (size : Nat) (data : Bytes) : Block size := (zero size).overlay 0 data

theorem getElem_overlay {size : Nat} (block : Block size) (start : Nat) (data : Bytes) (i : Nat)
    (small : i < size) :
    (block.overlay start data)[i] =
      if start ≤ i then (data[i - start]?).getD block[i] else block[i] := by
  simp [overlay]

theorem getElem?_slice {size : Nat} (block : Block size) (start length i : Nat) :
    (block.slice start length)[i]? = if i < length then block[start + i]? else none := by
  simp only [slice, List.getElem?_ofFn]
  split
  · rename_i small
    rw [if_pos (by omega), Vector.getElem?_eq_getElem (by omega)]
  · split
    · rw [Vector.getElem?_eq_none (by omega)]
    · rfl

theorem length_slice {size : Nat} (block : Block size) (start length : Nat) :
    (block.slice start length).length = min length (size - start) :=
  List.length_ofFn

theorem slice_all {size : Nat} (block : Block size) : block.slice 0 size = block.toList := by
  refine List.ext_getElem? fun i => ?_
  rw [getElem?_slice, Nat.zero_add, Vector.getElem?_toList]
  split
  · rfl
  · exact (Vector.getElem?_eq_none (by omega)).symm

theorem cut_eq {size : Nat} (block : Block size) {start length : Nat}
    (inside : start + length ≤ size) : block.cut start length = .ok (block.slice start length) :=
  if_pos inside

theorem lay_eq {size : Nat} (block : Block size) {start : Nat} {data : Bytes}
    (inside : start + data.length ≤ size) : block.lay start data = .ok (block.overlay start data) :=
  if_pos inside

end Block

def pageSector (page : Page) (index : Nat) : Sector :=
  Block.ofBytes 512 (page.slice (sectorSize * index) sectorSize)

end DemandPaging
