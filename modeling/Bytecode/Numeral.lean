import Bytecode.Text.Digit

/-! # Decimal numerals of 32 bits

A numeral is an optional plus sign and at least one ASCII digit. It is read from
the left: the first character that is no digit spoils it, unless the digits
before that character are already too large.
-/

namespace Bytecode.Numeral

/-- Why a text is no numeral of 32 bits. -/
inductive Error where
  | empty
  | invalidDigit
  | tooLarge
  deriving DecidableEq

def Error.message : Error → String
  | .empty => "cannot parse integer from empty string"
  | .invalidDigit => "invalid digit found in string"
  | .tooLarge => "number too large to fit in target type"

/-- The number whose digits follow those that make up `value`. -/
def readDigits (value : Nat) : List Char → Except Error UInt32
  | [] => .ok (UInt32.ofNat value)
  | char :: rest =>
      if char.isDigit then
        let longer := 10 * value + Text.digitValue char
        if longer < Nat.pow 2 32 then readDigits longer rest else .error .tooLarge
      else .error .invalidDigit

def read : List Char → Except Error UInt32
  | [] => .error .empty
  | ['+'] => .error .invalidDigit
  | '+' :: digits => readDigits 0 digits
  | digits => readDigits 0 digits

end Bytecode.Numeral
