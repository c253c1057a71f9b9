import Bytecode.Binary64
import Bytecode.Json.Defect
import Bytecode.Text.Digit

/-! # JSON numbers

A number is read one character at a time. Its digits are gathered into a
significand of 64 bits and a power of ten: once a digit no longer fits, the
digits of the whole part count as places and those of the fraction are left out.
A numeral without point and exponent that fits 64 bits is a whole number; any
other is a number of double precision.
-/

namespace Bytecode.Json

/-- The value of a number. -/
inductive Number where
  /-- From the least signed to the greatest unsigned number of 64 bits. -/
  | whole (value : Int)
  | double (negative : Bool) (magnitude : Binary64)
  deriving DecidableEq

/-- How far the reading of a number has come: what its latest character belongs to. -/
inductive Numeral.Phase where
  | sign
  | zero
  | whole
  | point
  | fraction
  | mark
  | markSign
  | exponent
  deriving DecidableEq

/-- A number being read. -/
structure Numeral where
  phase : Numeral.Phase
  negative : Bool
  /-- The digits gathered, always below `2 ^ 64`. -/
  significand : Nat
  /-- The power of ten that goes with the significand, the exponent apart. -/
  scale : Int
  /-- Whether a digit of this part did not fit the significand. -/
  full : Bool
  exponentNegative : Bool
  exponent : Nat

namespace Numeral

/-- The number that starts with a character: a minus sign or a digit. -/
def start? (char : Char) : Option Numeral :=
  if char = '-' then some ⟨.sign, true, 0, 0, false, false, 0⟩
  else if char = '0' then some ⟨.zero, false, 0, 0, false, false, 0⟩
  else if char.isDigit then some ⟨.whole, false, Text.digitValue char, 0, false, false, 0⟩
  else none

/-- Gather a digit of the whole part. -/
def addWhole (numeral : Numeral) (digit : Nat) : Numeral :=
  let longer := numeral.significand * 10 + digit
  if !numeral.full && longer < Nat.pow 2 64 then
    { numeral with phase := .whole, significand := longer }
  else { numeral with phase := .whole, full := true, scale := numeral.scale + 1 }

/-- Gather a digit of the fraction. -/
def addFraction (numeral : Numeral) (digit : Nat) : Numeral :=
  let longer := numeral.significand * 10 + digit
  if !numeral.full && longer < Nat.pow 2 64 then
    { numeral with phase := .fraction, significand := longer, scale := numeral.scale - 1 }
  else { numeral with phase := .fraction, full := true }

def addExponent (numeral : Numeral) (digit : Nat) : Numeral :=
  { numeral with phase := .exponent, exponent := numeral.exponent * 10 + digit }

/-- What may follow the whole part: a point, an exponent, or the end. -/
def leaveWhole (numeral : Numeral) (char : Char) : Option Numeral :=
  if char = '.' then some { numeral with phase := .point, full := false }
  else if char = 'e' || char = 'E' then some { numeral with phase := .mark }
  else none

/-- The number with one more character, or nothing if it ended before the
character. -/
def step (numeral : Numeral) (char : Char) : Except Defect (Option Numeral) :=
  match numeral.phase with
  | .sign =>
      if char = '0' then .ok (some { numeral with phase := .zero })
      else if char.isDigit then .ok (some (numeral.addWhole (Text.digitValue char)))
      else .error .invalidNumber
  | .zero => if char.isDigit then .error .invalidNumber else .ok (numeral.leaveWhole char)
  | .whole =>
      if char.isDigit then .ok (some (numeral.addWhole (Text.digitValue char)))
      else .ok (numeral.leaveWhole char)
  | .point =>
      if char.isDigit then .ok (some (numeral.addFraction (Text.digitValue char)))
      else .error .invalidNumber
  | .fraction =>
      if char.isDigit then .ok (some (numeral.addFraction (Text.digitValue char)))
      else if char = 'e' || char = 'E' then .ok (some { numeral with phase := .mark })
      else .ok none
  | .mark =>
      if char = '+' then .ok (some { numeral with phase := .markSign })
      else if char = '-' then
        .ok (some { numeral with phase := .markSign, exponentNegative := true })
      else if char.isDigit then .ok (some (numeral.addExponent (Text.digitValue char)))
      else .error .invalidNumber
  | .markSign =>
      if char.isDigit then .ok (some (numeral.addExponent (Text.digitValue char)))
      else .error .invalidNumber
  | .exponent =>
      if char.isDigit then .ok (some (numeral.addExponent (Text.digitValue char))) else .ok none

/-- Whether the number may end here. -/
def complete (numeral : Numeral) : Bool :=
  match numeral.phase with
  | .zero | .whole | .fraction | .exponent => true
  | .sign | .point | .mark | .markSign => false

/-- The power of ten of the significand, the exponent included. -/
def power (numeral : Numeral) : Int :=
  if numeral.exponentNegative then numeral.scale - numeral.exponent
  else numeral.scale + numeral.exponent

/-- The whole number that was read, unless it has a point or an exponent, needs
more than 64 bits, or is a negative zero. -/
def whole? (numeral : Numeral) : Option Int :=
  match numeral.phase with
  | .zero | .whole =>
      if numeral.full then none
      else if !numeral.negative then some numeral.significand
      else if 0 < numeral.significand && numeral.significand ≤ Nat.pow 2 63 then
        some (-numeral.significand)
      else none
  | _ => none

def value (numeral : Numeral) : Except Defect Number :=
  match numeral.whole? with
  | some value => .ok (.whole value)
  | none =>
      match Binary64.ofDecimal? numeral.significand numeral.power with
      | some magnitude => .ok (.double numeral.negative magnitude)
      | none => .error .numberOutOfRange

/-- The value of a number with which the text ends. -/
def valueAtEnd (numeral : Numeral) : Except Defect Number :=
  if numeral.complete then numeral.value else .error .endInValue

end Numeral

end Bytecode.Json
