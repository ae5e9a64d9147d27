import DemandPaging.Address

namespace DemandPaging

structure Settings where
  /-- The default is 4 MB of memory. -/
  userFrames : Nat := 4 * megabyte / pageSize
  deriving DecidableEq, Repr

namespace Settings

def maxUserFrames : Nat := 0x100000

def validate (settings : Settings) : Except Panic Unit :=
  if settings.userFrames = 0 then .error .emptyPool
  else if maxUserFrames < settings.userFrames then .error (.oversizedPool settings.userFrames)
  else .ok ()

def describe (settings : Settings) : String :=
  s!"VmConfig \x7b user_frames: {settings.userFrames} \x7d"

theorem validate_ok_iff (settings : Settings) :
    settings.validate = .ok () ↔ 0 < settings.userFrames ∧ settings.userFrames ≤ maxUserFrames := by
  unfold validate
  split
  · simp
    omega
  · split
    · simp
      omega
    · simp
      omega

end Settings

end DemandPaging
