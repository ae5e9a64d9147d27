import DemandPaging.Machine.Fault

namespace DemandPaging.Machine

variable {α : Type}

/-- Runs `access` on a piece that lies within one page, which is given the frame of its page. -/
def visit (id : Nat) (write : Bool) (access : (frame : Nat) → Piece → Action PagingError Machine α)
    (piece : Piece) : Action PagingError Machine α := do
  let frame ← faultIn id piece.start
  let result ← access frame piece
  releasePin id (pageOf piece.start) frame (some write)
  let _ ← Action.orPanic (addWord piece.start piece.length)
  return result

def forPieces (id start length : Nat) (write : Bool)
    (access : (frame : Nat) → Piece → Action PagingError Machine α) :
    Action PagingError Machine (List α) := do
  Action.require (IsUserRange start length) .badAddress
  let _ ← Action.orPanic (addWord start length)
  (pieces pageSize start length).mapM (visit id write access)

def takeSlice (frame : Nat) (piece : Piece) : Action PagingError Machine Bytes := do
  Action.orPanic ((← contents frame).cut (pageOffset piece.start) piece.length)

def readUser (id start length : Nat) : Action PagingError Machine Bytes := do
  Action.insist (length < bufferLimit) .capacity
  return (← forPieces id start length false takeSlice).flatten

def putSlice (start : Nat) (data : Array UInt8) (frame : Nat) (piece : Piece) :
    Action PagingError Machine Unit :=
  Paged.changePool (·.rewrite frame fun page => do
    page.lay (pageOffset piece.start) (← piece.takeFrom start data))

def writeUser (id start : Nat) (data : Bytes) : Action PagingError Machine Unit := do
  let _ ← forPieces id start data.length true (putSlice start data.toArray)

end DemandPaging.Machine
