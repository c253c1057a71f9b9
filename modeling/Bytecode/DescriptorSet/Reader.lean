import Bytecode.DescriptorSet.Stray

/-! # Reading descriptor sets

The text of a descriptor set is read in one pass. The reader holds the
descriptors completed so far and its place in the text; each character moves it
to another place or is a problem. At the end of the text only the place after
the whole set is no problem.
-/

namespace Bytecode.DescriptorSet

/-- The fields of a descriptor that were read so far. -/
structure Fields where
  opcode : Option Opcode
  prefixWidth : Option UInt8
  fixedSize : Option UInt32
  deriving DecidableEq

namespace Fields

def unread : Fields := ⟨none, none, none⟩

def has (fields : Fields) : Field → Bool
  | .opcode => fields.opcode.isSome
  | .prefixWidth => fields.prefixWidth.isSome
  | .fixedSize => fields.fixedSize.isSome

/-- The fields with one more value. A number has to be whole and to fit. -/
def store (fields : Fields) (field : Field) : Json.Number → Except Problem Fields
  | .double negative magnitude =>
      .error (.wrongKind (.number (.double negative magnitude)) field.shape)
  | .whole value =>
      match field with
      | .opcode =>
          if 0 ≤ value ∧ value < 256 then
            .ok { fields with opcode := some (.ofNat value.toNat) }
          else .error (.outOfRange value field.shape)
      | .prefixWidth =>
          if 0 ≤ value ∧ value < 256 then
            .ok { fields with prefixWidth := some (.ofNat value.toNat) }
          else .error (.outOfRange value field.shape)
      | .fixedSize =>
          if 0 ≤ value ∧ value < 4294967296 then
            .ok { fields with fixedSize := some (.ofNat value.toNat) }
          else .error (.outOfRange value field.shape)

/-- The descriptor that the fields make up; only the opcode has to be there. -/
def descriptor (fields : Fields) : Except Problem Descriptor :=
  match fields.opcode with
  | some opcode => .ok ⟨opcode, fields.prefixWidth.getD 0, fields.fixedSize.getD 0⟩
  | none => .error (.missingField .opcode)

end Fields

/-- The two ways to write a descriptor. -/
inductive Form where
  | positional
  | keyed
  deriving DecidableEq

/-- A place in the text of a descriptor set. -/
inductive Place where
  | beforeSet
  /-- After the opening bracket of the set. -/
  | firstElement
  | element
  | afterElement
  | afterSet
  /-- After the opening bracket of a positional descriptor. -/
  | firstValue
  /-- Before the value of a field. -/
  | value (form : Form) (fields : Fields) (field : Field)
  | number (form : Form) (fields : Fields) (field : Field) (numeral : Json.Numeral)
  /-- After the value of a field in a positional descriptor. -/
  | afterValue (fields : Fields) (field : Field)
  /-- After the comma that follows the last value of a positional descriptor. -/
  | surplusComma
  /-- After the opening brace of a descriptor. -/
  | firstKey
  /-- After a comma between the members of a descriptor. -/
  | key (fields : Fields)
  | keyText (fields : Fields) (body : Json.StringBody)
  /-- After a key; a key that is no field's is not kept. -/
  | colon (fields : Fields) (field : Option Field)
  /-- In the value of a key that is no field's. -/
  | skipped (fields : Fields) (value : Json.Skipped)
  | afterMember (fields : Fields)
  | stray (wanted : Shape) (value : Stray)

/-- The state of reading a descriptor set. -/
structure Reader where
  /-- The descriptors completed so far, the latest first. -/
  completed : List Descriptor
  place : Place

namespace Reader

def start : Reader := ⟨[], .beforeSet⟩

def go (reader : Reader) (place : Place) : Except Problem Reader := .ok { reader with place }

/-- A value of the wrong kind starts with a character. -/
def goStray (reader : Reader) (wanted : Shape) (char : Char) : Except Problem Reader := do
  reader.go (.stray wanted (← Stray.start wanted char))

def complete (reader : Reader) (fields : Fields) : Except Problem Reader := do
  return ⟨(← fields.descriptor) :: reader.completed, .afterElement⟩

/-- An element of the set starts with a character. -/
def openElement (reader : Reader) (char : Char) : Except Problem Reader :=
  if char = '[' then reader.go .firstValue
  else if char = '\x7b' then reader.go .firstKey
  else reader.goStray .descriptor char

/-- The value of a field starts with a character. -/
def openValue (reader : Reader) (form : Form) (fields : Fields) (field : Field) (char : Char) :
    Except Problem Reader :=
  match Json.Numeral.start? char with
  | some numeral => reader.go (.number form fields field numeral)
  | none => reader.goStray field.shape char

/-- The character follows a value of a positional descriptor. -/
def afterValue (reader : Reader) (fields : Fields) (field : Field) (char : Char) :
    Except Problem Reader :=
  if Json.isBlank char then reader.go (.afterValue fields field)
  else if char = ']' then reader.complete fields
  else
    match field.next? with
    | some next =>
        if char = ',' then reader.go (.value .positional fields next)
        else malformed .commaOrBracketExpected
    | none => if char = ',' then reader.go .surplusComma else malformed .trailingCharacters

/-- The character follows a member of a descriptor. -/
def afterMember (reader : Reader) (fields : Fields) (char : Char) : Except Problem Reader :=
  if Json.isBlank char then reader.go (.afterMember fields)
  else if char = ',' then reader.go (.key fields)
  else if char = '\x7d' then reader.complete fields
  else malformed .commaOrBraceExpected

/-- The character stands where a value of a positional descriptor has to start
after a comma, or where a value follows a key. -/
def beforeValue (reader : Reader) (form : Form) (fields : Fields) (field : Field) (char : Char) :
    Except Problem Reader :=
  if Json.isBlank char then reader.go (.value form fields field)
  else if form = .positional ∧ char = ']' then malformed .trailingComma
  else reader.openValue form fields field char

/-- The character ends a value or follows its end. -/
def inNumber (reader : Reader) (form : Form) (fields : Fields) (field : Field)
    (numeral : Json.Numeral) (char : Char) : Except Problem Reader := do
  match ← liftDefect (numeral.step char) with
  | some numeral => reader.go (.number form fields field numeral)
  | none =>
      let fields ← fields.store field (← liftDefect numeral.value)
      match form with
      | .positional => reader.afterValue fields field char
      | .keyed => reader.afterMember fields char

def closeKey (reader : Reader) (fields : Fields) (key : String) : Except Problem Reader :=
  match Field.ofName? key with
  | some field =>
      if fields.has field then .error (.repeatedField field)
      else reader.go (.colon fields (some field))
  | none => reader.go (.colon fields none)

def step (reader : Reader) (char : Char) : Except Problem Reader :=
  match reader.place with
  | .beforeSet =>
      if Json.isBlank char then .ok reader
      else if char = '[' then reader.go .firstElement
      else reader.goStray .set char
  | .firstElement =>
      if Json.isBlank char then .ok reader
      else if char = ']' then reader.go .afterSet
      else reader.openElement char
  | .element =>
      if Json.isBlank char then .ok reader
      else if char = ']' then malformed .trailingComma
      else reader.openElement char
  | .afterElement =>
      if Json.isBlank char then .ok reader
      else if char = ']' then reader.go .afterSet
      else if char = ',' then reader.go .element
      else malformed .commaOrBracketExpected
  | .afterSet => if Json.isBlank char then .ok reader else malformed .trailingCharacters
  | .firstValue =>
      if Json.isBlank char then .ok reader
      else if char = ']' then .error .noValues
      else reader.openValue .positional .unread .opcode char
  | .value form fields field => reader.beforeValue form fields field char
  | .number form fields field numeral => reader.inNumber form fields field numeral char
  | .afterValue fields field => reader.afterValue fields field char
  | .surplusComma =>
      if Json.isBlank char then .ok reader
      else if char = ']' then malformed .trailingComma
      else malformed .trailingCharacters
  | .firstKey =>
      if Json.isBlank char then .ok reader
      else if char = '\x7d' then reader.complete .unread
      else if char = '"' then reader.go (.keyText .unread .start)
      else malformed .keyExpected
  | .key fields =>
      if Json.isBlank char then .ok reader
      else if char = '"' then reader.go (.keyText fields .start)
      else if char = '\x7d' then malformed .trailingComma
      else malformed .keyExpected
  | .keyText fields body => do
      match ← liftDefect (body.step true char) with
      | .more body => reader.go (.keyText fields body)
      | .last key | .past key => reader.closeKey fields key
  | .colon fields field =>
      if Json.isBlank char then .ok reader
      else if char = ':' then
        match field with
        | some field => reader.go (.value .keyed fields field)
        | none => reader.go (.skipped fields .start)
      else malformed .colonExpected
  | .skipped fields value => do
      match ← liftDefect (value.step char) with
      | .more value => reader.go (.skipped fields value)
      | .last _ => reader.go (.afterMember fields)
      | .past _ => reader.afterMember fields char
  | .afterMember fields => reader.afterMember fields char
  | .stray wanted value => do
      reader.go (.stray wanted (← value.step wanted char))

/-- The problem of a text that ends in the value of a field. -/
def problemInNumber (form : Form) (fields : Fields) (field : Field) (numeral : Json.Numeral) :
    Problem :=
  match liftDefect numeral.valueAtEnd >>= fields.store field with
  | .error problem => problem
  | .ok _ => .malformed (match form with
      | .positional => .endInList
      | .keyed => .endInObject)

/-- The descriptors of a text that ends here, or the problem with that. -/
def atEnd (reader : Reader) : Except Problem (List Descriptor) :=
  match reader.place with
  | .afterSet => .ok reader.completed.reverse
  | .beforeSet | .element | .value .. => malformed .endInValue
  | .firstElement | .afterElement | .firstValue | .afterValue .. => malformed .endInList
  | .number form fields field numeral => .error (problemInNumber form fields field numeral)
  | .surplusComma => malformed .trailingCharacters
  | .firstKey | .colon .. | .afterMember _ => malformed .endInObject
  | .key _ => malformed .endInValue
  | .keyText .. => malformed .endInString
  | .skipped _ value => malformed (value.defectAtEnd.getD .endInObject)
  | .stray wanted value => .error (value.problemAtEnd wanted)

def run (reader : Reader) (text : List Char) : Except Problem Reader := text.foldlM step reader

@[simp] theorem run_nil (reader : Reader) : reader.run [] = .ok reader := rfl

theorem run_cons (reader : Reader) (char : Char) (rest : List Char) :
    reader.run (char :: rest) = reader.step char >>= (·.run rest) := rfl

/-- Reading a text in two parts is reading it in one. -/
theorem run_append (reader : Reader) (front back : List Char) :
    reader.run (front ++ back) = reader.run front >>= (·.run back) := by
  simp only [run, List.foldlM_append]

end Reader

/-- The descriptors that a text lists, or the first problem in it. -/
def read (text : List Char) : Except Problem (List Descriptor) := do
  (← Reader.start.run text).atEnd

end Bytecode.DescriptorSet
