import DemandPaging.Address
import DemandPaging.Bytes

namespace DemandPaging

structure Piece where
  start : Nat
  length : Nat
  deriving DecidableEq, Repr

def Piece.of (piece : Piece) (start : Nat) (data : Array UInt8) : Bytes :=
  (data.extract (piece.start - start) (piece.start - start + piece.length)).toList

/-- Where a piece begins in a buffer of `length` bytes for `[start, start + length)`, which must hold
all of it. -/
def Piece.placeIn (piece : Piece) (start length : Nat) : Except Panic Nat := do
  let place ← subWord piece.start start
  if place + piece.length ≤ length then return place else throw .outOfBounds

def Piece.takeFrom (piece : Piece) (start : Nat) (data : Array UInt8) : Except Panic Bytes := do
  let _ ← piece.placeIn start data.size
  return piece.of start data

def pieces (size start length : Nat) : List Piece :=
  if length = 0 ∨ size = 0 then []
  else
    let room := min (size - start % size) length
    ⟨start, room⟩ :: pieces size (start + room) (length - room)
termination_by length
decreasing_by
  have := Nat.mod_lt start (show 0 < size by omega)
  omega

theorem Piece.of_toArray (piece : Piece) (start : Nat) (data : Bytes) :
    piece.of start data.toArray = (data.drop (piece.start - start)).take piece.length := by
  simp [Piece.of, List.extract_eq_take_drop]

structure Piece.Within (size start length : Nat) (piece : Piece) : Prop where
  begun : start ≤ piece.start
  ends : piece.start + piece.length ≤ start + length
  fits : piece.start % size + piece.length ≤ size

theorem Piece.placeIn_eq {size start length : Nat} {piece : Piece}
    (within : piece.Within size start length) :
    piece.placeIn start length = .ok (piece.start - start) := by
  have begun := within.begun
  have inside : piece.start - start + piece.length ≤ length := by
    have := within.ends
    omega
  simp [placeIn, subWord_eq begun, inside, bind, Except.bind, pure, Except.pure]

theorem Piece.takeFrom_eq {size start : Nat} {piece : Piece} {data : Bytes}
    (within : piece.Within size start data.length) :
    piece.takeFrom start data.toArray = .ok (piece.of start data.toArray) := by
  simp [takeFrom, placeIn_eq within, bind, Except.bind, pure, Except.pure]

theorem Piece.length_of {size start : Nat} {piece : Piece} {data : Bytes}
    (within : piece.Within size start data.length) :
    (piece.of start data.toArray).length = piece.length := by
  have begun := within.begun
  have ends := within.ends
  rw [of_toArray, List.length_take, List.length_drop]
  omega

theorem pieces_zero (size start : Nat) : pieces size start 0 = [] := by
  simp [pieces]

def Follow (start stop : Nat) : List Piece → Prop
  | [] => start = stop
  | piece :: rest => piece.start = start ∧ Follow (start + piece.length) stop rest

theorem pieces_follow {size : Nat} (positive : 0 < size) (start length : Nat) :
    Follow start (start + length) (pieces size start length) := by
  fun_induction pieces size start length with
  | case1 start length done =>
      simp only [Follow]
      omega
  | case2 start length more room ih =>
      have whole : start + room + (length - room) = start + length := by omega
      exact ⟨rfl, whole ▸ ih⟩

theorem piece_within_range {size start length : Nat} {piece : Piece}
    (member : piece ∈ pieces size start length) :
    start ≤ piece.start ∧ piece.start + piece.length ≤ start + length := by
  fun_induction pieces size start length with
  | case1 start length done => simp at member
  | case2 start length more room ih =>
      have short : room ≤ length := Nat.min_le_right ..
      rcases List.mem_cons.mp member with rfl | later
      · exact ⟨Nat.le_refl _, Nat.add_le_add_left short _⟩
      · have := ih later
        omega

theorem piece_within_block {size start length : Nat} {piece : Piece}
    (member : piece ∈ pieces size start length) :
    0 < piece.length ∧ piece.start % size + piece.length ≤ size := by
  fun_induction pieces size start length with
  | case1 start length done => simp at member
  | case2 start length more room ih =>
      have small := Nat.mod_lt start (show 0 < size by omega)
      rcases List.mem_cons.mp member with rfl | later
      · simp only
        omega
      · exact ih later

theorem within_of_mem {size start length : Nat} {piece : Piece}
    (member : piece ∈ pieces size start length) : piece.Within size start length :=
  ⟨(piece_within_range member).1, (piece_within_range member).2, (piece_within_block member).2⟩

end DemandPaging
