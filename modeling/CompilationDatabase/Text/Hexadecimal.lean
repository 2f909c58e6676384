/-
Numbers in hexadecimal digits of lower case.
-/

namespace CompilationDatabase.Text

/-- The digit of a number below sixteen. -/
def hexDigit (n : Nat) : Char :=
  if n < 10 then Char.ofNat (48 + n) else Char.ofNat (87 + n)

/-- The last `n` digits of a number. -/
def hexDigits : Nat → Nat → List Char
  | 0, _ => []
  | n + 1, value => hexDigit (value / 16 ^ n % 16) :: hexDigits n value

end CompilationDatabase.Text
