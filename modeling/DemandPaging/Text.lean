namespace DemandPaging.Text

def hex (n : Nat) : String :=
  "0x" ++ String.ofList (Nat.toDigits 16 n)

def padded (width n : Nat) : String :=
  let digits := Nat.toDigits 10 n
  String.ofList (List.replicate (width - digits.length) '0' ++ digits)

example : hex 0x1000 = "0x1000" := by decide
example : padded 4 8 = "0008" := by decide
example : padded 4 12345 = "12345" := by decide

end DemandPaging.Text
