namespace DemandPaging

def putBit {width : Nat} (word : BitVec width) (place : Nat) (on : Bool) : BitVec width :=
  if on then word ||| BitVec.twoPow width place else word &&& ~~~ BitVec.twoPow width place

theorem getLsbD_putBit {width : Nat} (word : BitVec width) (place : Nat) (on : Bool) (other : Nat)
    (small : place < width) :
    (putBit word place on).getLsbD other =
      if other = place then on else word.getLsbD other := by
  by_cases same : other = place
  · subst same
    cases on <;> simp [putBit, small]
  · have distinct : place ≠ other := fun equal => same equal.symm
    cases on <;> simp [putBit, BitVec.getLsbD_twoPow, same, distinct]
    exact fun inside => BitVec.lt_of_getLsbD inside

end DemandPaging
