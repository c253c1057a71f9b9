import Bytecode.Json.Number
import Bytecode.Json.StringBody

/-! # Values passed over

A value that nobody asked for is still read to its end, one character at a time.
The containers around the current place are kept in a list, so values may be
nested to any depth. Numbers are not evaluated.
-/

namespace Bytecode.Json

/-- A word after its first letter: the letters to come. -/
def word? (char : Char) : Option (List Char) :=
  if char = 'n' then some "ull".toList
  else if char = 't' then some "rue".toList
  else if char = 'f' then some "alse".toList
  else none

def stepWord (expected : List Char) (char : Char) :
    Except Defect (Progress (List Char) Unit) :=
  match expected with
  | [] => .ok (.past ())
  | letter :: rest =>
      if char = letter then if rest.isEmpty then .ok (.last ()) else .ok (.more rest)
      else .error .wordExpected

inductive Container where
  | list
  | object
  deriving DecidableEq

/-- How far the reading of a value passed over has come. -/
inductive Skipped.Phase where
  /-- Before a value. -/
  | value
  /-- After an opening bracket. -/
  | firstItem
  /-- After an opening brace. -/
  | firstKey
  /-- After a comma in an object. -/
  | key
  | keyText (body : StringBody)
  | colon
  /-- After an item of a list or a member of an object. -/
  | afterItem
  | word (expected : List Char)
  | number (numeral : Numeral)
  | text (body : StringBody)

/-- A value being passed over. -/
structure Skipped where
  /-- The containers that are open, the innermost first. -/
  enclosing : List Container
  phase : Skipped.Phase

namespace Skipped

def start : Skipped := ⟨[], .value⟩

/-- Go on with another phase in the same containers. -/
def go (skipped : Skipped) (phase : Phase) : Except Defect (Progress Skipped Unit) :=
  .ok (.more { skipped with phase })

/-- A value starts with a character. -/
def enter (skipped : Skipped) (char : Char) : Except Defect (Progress Skipped Unit) :=
  match word? char, Numeral.start? char with
  | some expected, _ => skipped.go (.word expected)
  | none, some numeral => skipped.go (.number numeral)
  | none, none =>
      if char = '"' then skipped.go (.text .start)
      else if char = '[' then .ok (.more ⟨.list :: skipped.enclosing, .firstItem⟩)
      else if char = '\x7b' then .ok (.more ⟨.object :: skipped.enclosing, .firstKey⟩)
      else .error .valueExpected

/-- The character was the last of a value. -/
def close (enclosing : List Container) : Except Defect (Progress Skipped Unit) :=
  if enclosing.isEmpty then .ok (.last ()) else .ok (.more ⟨enclosing, .afterItem⟩)

/-- What may follow an item: a comma or the end of its container. -/
def afterItem (skipped : Skipped) (char : Char) : Except Defect (Progress Skipped Unit) :=
  if isBlank char then skipped.go .afterItem
  else
    match skipped.enclosing with
    | [] => .ok (.past ())
    | .list :: outer =>
        if char = ',' then skipped.go .value
        else if char = ']' then close outer
        else .error .commaOrBracketExpected
    | .object :: outer =>
        if char = ',' then skipped.go .key
        else if char = '\x7d' then close outer
        else .error .commaOrBraceExpected

def step (skipped : Skipped) (char : Char) : Except Defect (Progress Skipped Unit) :=
  match skipped.phase with
  | .value => if isBlank char then skipped.go .value else skipped.enter char
  | .firstItem =>
      if isBlank char then skipped.go .firstItem
      else if char = ']' then close skipped.enclosing.tail
      else skipped.enter char
  | .firstKey =>
      if isBlank char then skipped.go .firstKey
      else if char = '\x7d' then close skipped.enclosing.tail
      else if char = '"' then skipped.go (.keyText .start)
      else .error .keyExpected
  | .key =>
      if isBlank char then skipped.go .key
      else if char = '"' then skipped.go (.keyText .start)
      else .error .keyExpected
  | .keyText body => do
      match ← body.step false char with
      | .more body => skipped.go (.keyText body)
      | .last _ | .past _ => skipped.go .colon
  | .colon =>
      if isBlank char then skipped.go .colon
      else if char = ':' then skipped.go .value
      else .error .colonExpected
  | .afterItem => skipped.afterItem char
  | .word expected => do
      match ← stepWord expected char with
      | .more expected => skipped.go (.word expected)
      | .last _ | .past _ => close skipped.enclosing
  | .number numeral => do
      match ← numeral.step char with
      | some numeral => skipped.go (.number numeral)
      | none => if skipped.enclosing.isEmpty then .ok (.past ()) else skipped.afterItem char
  | .text body => do
      match ← body.step false char with
      | .more body => skipped.go (.text body)
      | .last _ | .past _ => close skipped.enclosing

/-- The defect of a text that ends after an item. -/
def endAfterItem (enclosing : List Container) : Option Defect :=
  match enclosing with
  | [] => none
  | .list :: _ => some .endInList
  | .object :: _ => some .endInObject

/-- The defect of a text that ends inside the value; none if the value was
complete. -/
def defectAtEnd (skipped : Skipped) : Option Defect :=
  match skipped.phase with
  | .value | .word _ => some .endInValue
  | .firstItem => some .endInList
  | .firstKey | .key | .colon => some .endInObject
  | .keyText _ | .text _ => some .endInString
  | .afterItem => endAfterItem skipped.enclosing
  | .number numeral =>
      if numeral.complete then endAfterItem skipped.enclosing else some .invalidNumber

end Skipped

end Bytecode.Json
