/-! # Digits

The values of decimal and hexadecimal ASCII digits, and hexadecimal numbers in
lower case.
-/

namespace Bytecode.Text

def digitValue (digit : Char) : Nat := digit.toNat - '0'.toNat

/-- The value of a hexadecimal digit of either case. -/
def hexDigitValue? (char : Char) : Option Nat :=
  if char.isDigit then some (digitValue char)
  else if 'a' ≤ char ∧ char ≤ 'f' then some (char.toNat - 'a'.toNat + 10)
  else if 'A' ≤ char ∧ char ≤ 'F' then some (char.toNat - 'A'.toNat + 10)
  else none

/-- A number in hexadecimal, without leading zeros. -/
def hexadecimal (number : Nat) : String := String.ofList (Nat.toDigits 16 number)

end Bytecode.Text
