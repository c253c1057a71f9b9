import Bytecode.Json.Defect
import Bytecode.Text.Digit

/-! # JSON strings

The part of a string after its opening quote, read one character at a time. Two
readings differ in one point: where the content is wanted, the units of a
surrogate pair have to come together and in order; where the string is only
passed over, they may come alone.
-/

namespace Bytecode.Json

/-- How far the reading of a string has come. -/
inductive StringBody.Phase where
  | plain
  | escape
  /-- Among the four digits of an escape by number: the bytes seen, the number
  unless something else than a digit was among them, and the first half of the
  pair that this escape has to complete. -/
  | digits (bytes : Nat) (unit : Option Nat) (leading : Option Nat)
  /-- After the first half of a pair. -/
  | pair (leading : Nat)
  /-- After the first half of a pair and a backslash. -/
  | pairEscape (leading : Nat)
  deriving DecidableEq

/-- A string being read. -/
structure StringBody where
  phase : StringBody.Phase
  /-- The content so far, the latest character first. -/
  gathered : List Char

namespace StringBody

/-- Right after the opening quote. -/
def start : StringBody := ⟨.plain, []⟩

def add (body : StringBody) (char : Char) : StringBody := ⟨.plain, char :: body.gathered⟩

/-- The character that a letter after a backslash stands for. -/
def escaped? (char : Char) : Option Char :=
  if char = '"' ∨ char = '\\' ∨ char = '/' then some char
  else if char = 'b' then some '\x08'
  else if char = 'f' then some '\x0c'
  else if char = 'n' then some '\n'
  else if char = 'r' then some '\r'
  else if char = 't' then some '\t'
  else none

/-- Whether a unit of sixteen bits is the first half of a pair. -/
def isLeading (unit : Nat) : Bool := 0xd800 ≤ unit && unit ≤ 0xdbff

/-- Whether a unit of sixteen bits is the second half of a pair. -/
def isTrailing (unit : Nat) : Bool := 0xdc00 ≤ unit && unit ≤ 0xdfff

/-- The character that a pair of units stands for. -/
def joinPair (leading trailing : Nat) : Char :=
  Char.ofNat ((leading - 0xd800) * 0x400 + (trailing - 0xdc00) + 0x10000)

def addUnit (body : StringBody) (pairing : Bool) (leading : Option Nat) (unit : Nat) :
    Except Defect StringBody :=
  if !pairing then .ok { body with phase := .plain }
  else
    match leading with
    | some first =>
        if isTrailing unit then .ok (body.add (joinPair first unit)) else .error .loneSurrogate
    | none =>
        if isTrailing unit then .error .loneSurrogate
        else if isLeading unit then .ok { body with phase := .pair unit }
        else .ok (body.add (Char.ofNat unit))

/-- The string after one more character of an escape by number. Four bytes are
awaited before they are judged, so that a text that ends among them is found to
end. -/
def addDigit (body : StringBody) (pairing : Bool) (bytes : Nat) (unit leading : Option Nat)
    (char : Char) : Except Defect StringBody :=
  let bytes := bytes + char.utf8Size
  let unit := unit.bind fun high => (Text.hexDigitValue? char).map fun low => high * 16 + low
  if bytes < 4 then .ok { body with phase := .digits bytes unit leading }
  else
    match unit with
    | some unit => body.addUnit pairing leading unit
    | none => .error .invalidEscape

/-- The string with one more character of the text; its content when the
character was the closing quote. -/
def step (pairing : Bool) (body : StringBody) (char : Char) :
    Except Defect (Progress StringBody String) :=
  match body.phase with
  | .plain =>
      if char = '"' then .ok (.last (String.ofList body.gathered.reverse))
      else if char = '\\' then .ok (.more { body with phase := .escape })
      else if char.toNat < 0x20 then .error .controlCharacter
      else .ok (.more (body.add char))
  | .escape =>
      if char = 'u' then .ok (.more { body with phase := .digits 0 (some 0) none })
      else
        match escaped? char with
        | some char => .ok (.more (body.add char))
        | none => .error .invalidEscape
  | .digits bytes unit leading => do
      return .more (← body.addDigit pairing bytes unit leading char)
  | .pair leading =>
      if char = '\\' then .ok (.more { body with phase := .pairEscape leading })
      else .error .cutSurrogatePair
  | .pairEscape leading =>
      if char = 'u' then .ok (.more { body with phase := .digits 0 (some 0) (some leading) })
      else .error .cutSurrogatePair

end StringBody

end Bytecode.Json
