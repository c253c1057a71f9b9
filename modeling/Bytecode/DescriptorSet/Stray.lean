import Bytecode.DescriptorSet.Problem
import Bytecode.Json.Skipped

/-! # Stray values

A value of the wrong kind is refused by its kind and content, so a word, number
or string is read to its end first, and a defect inside it wins. Lists and
objects are refused at their first character.
-/

namespace Bytecode.DescriptorSet

/-- A value of the wrong kind, being read. -/
inductive Stray where
  | word (expected : List Char) (found : Found)
  | number (numeral : Json.Numeral)
  | text (body : Json.StringBody)

namespace Stray

/-- What a word that starts with a letter stands for. -/
def wordValue (letter : Char) : Found :=
  if letter = 'n' then .null else .boolean (letter = 't')

def start (wanted : Shape) (char : Char) : Except Problem Stray :=
  match Json.word? char, Json.Numeral.start? char with
  | some expected, _ => .ok (.word expected (wordValue char))
  | none, some numeral => .ok (.number numeral)
  | none, none =>
      if char = '"' then .ok (.text .start)
      else if char = '[' then .error (.wrongKind .list wanted)
      else if char = '\x7b' then .error (.wrongKind .object wanted)
      else malformed .valueExpected

def refuseNumber (wanted : Shape) (value : Except Json.Defect Json.Number) : Problem :=
  match value with
  | .ok value => .wrongKind (.number value) wanted
  | .error defect => .malformed defect

/-- The value with one more character of the text; a complete value is refused. -/
def step (wanted : Shape) (stray : Stray) (char : Char) : Except Problem Stray :=
  match stray with
  | .word expected found => do
      match ← liftDefect (Json.stepWord expected char) with
      | .more expected => .ok (.word expected found)
      | .last _ | .past _ => .error (.wrongKind found wanted)
  | .number numeral => do
      match ← liftDefect (numeral.step char) with
      | some numeral => .ok (.number numeral)
      | none => .error (refuseNumber wanted numeral.value)
  | .text body => do
      match ← liftDefect (body.step true char) with
      | .more body => .ok (.text body)
      | .last content | .past content => .error (.wrongKind (.text content) wanted)

/-- The problem of a text that ends in the value. -/
def problemAtEnd (wanted : Shape) : Stray → Problem
  | .word .. => .malformed .endInValue
  | .number numeral => refuseNumber wanted numeral.valueAtEnd
  | .text _ => .malformed .endInString

end Stray

end Bytecode.DescriptorSet
