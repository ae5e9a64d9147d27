import DemandPaging.Action
import DemandPaging.Bytes

namespace DemandPaging

structure Transfer where
  bytes : Bytes
  failure : Option DeviceError := none
  deriving DecidableEq, Repr

namespace Transfer

variable {δ σ α : Type}

def gather (read : α → Action DeviceError σ Bytes) : List α → Action δ σ Transfer
  | [] => pure ⟨[], none⟩
  | step :: rest => do
    match ← (read step).attempt with
    | .error cause => return ⟨[], some cause⟩
    | .ok bytes =>
      let later ← gather read rest
      return { later with bytes := bytes ++ later.bytes }

end Transfer

end DemandPaging
