import StringRewriting.Text.Lines

/-!
# Numbers on the command line

A number is written in ASCII decimal digits, behind a plus sign or not and with any number of
leading zeros, and has to fit into 64 bits.

* `ofText?`: the number that a text writes.
-/

namespace StringRewriting.Number

/-- The least number that does not fit into 64 bits. -/
def bound : Nat := 18446744073709551616

/-- The number that ASCII decimal digits write. -/
def ofDigits? (ds : Text) : Option Nat :=
  if ds ≠ [] ∧ ds.all Char.isDigit ∧ Nat.ofDigitChars 10 ds 0 < bound then
    some (Nat.ofDigitChars 10 ds 0)
  else none

/-- The number that a text writes. -/
def ofText? : Text → Option Nat
  | '+' :: ds => ofDigits? ds
  | ds => ofDigits? ds

end StringRewriting.Number
