import Bytecode.Binary64.Shortest
import Bytecode.Descriptor
import Bytecode.Json.Number
import Bytecode.Text.Quoted

/-! # Problems of descriptor sets

A descriptor set is a JSON list of descriptors; a descriptor is an object with
named fields, or a list of the fields' values in order. A text that is no such
thing is refused with the first problem that a reader meets from the left.
-/

namespace Bytecode.DescriptorSet

/-- The fields of a descriptor, in the order of the positional form. -/
inductive Field where
  | opcode
  | prefixWidth
  | fixedSize
  deriving DecidableEq

namespace Field

/-- The key of the field in the object form. -/
def name : Field → String
  | .opcode => "opcode"
  | .prefixWidth => "prefix_width"
  | .fixedSize => "fixed_size"

def all : List Field := [.opcode, .prefixWidth, .fixedSize]

def ofName? (name : String) : Option Field := all.find? (·.name = name)

/-- The field after this one in the positional form. -/
def next? : Field → Option Field
  | .opcode => some .prefixWidth
  | .prefixWidth => some .fixedSize
  | .fixedSize => none

end Field

/-- What is looked for at a place of the text. -/
inductive Shape where
  | set
  | descriptor
  /-- A number of one byte. -/
  | byte
  /-- A number of four bytes. -/
  | word
  deriving DecidableEq

def Shape.phrase : Shape → String
  | .set => "a sequence"
  | .descriptor => "struct OperandDescriptor"
  | .byte => "u8"
  | .word => "u32"

def Field.shape : Field → Shape
  | .opcode | .prefixWidth => .byte
  | .fixedSize => .word

/-- A value found where something else was looked for. -/
inductive Found where
  | null
  | boolean (value : Bool)
  | number (value : Json.Number)
  | text (content : String)
  | list
  | object
  deriving DecidableEq

/-- Numbers of double precision are written without an exponent from one hundred
thousandth up to below ten thousand million million. -/
def numberLayout : Decimal.Layout := ⟨-5, 15⟩

def Found.phrase : Found → String
  | .null => "null"
  | .boolean value => "boolean `" ++ (if value then "true" else "false") ++ "`"
  | .number (.whole value) => "integer `" ++ toString value ++ "`"
  | .number (.double negative magnitude) =>
      "floating point `" ++ (if negative then "-" else "") ++
        String.ofList (magnitude.shortest.write numberLayout) ++ "`"
  | .text content => "string " ++ Text.quote content
  | .list => "sequence"
  | .object => "map"

/-- Why a text is no descriptor set. -/
inductive Problem where
  | malformed (defect : Json.Defect)
  | wrongKind (found : Found) (wanted : Shape)
  /-- A whole number that does not fit its field. -/
  | outOfRange (value : Int) (wanted : Shape)
  /-- A positional descriptor without any value. -/
  | noValues
  | repeatedField (field : Field)
  | missingField (field : Field)
  deriving DecidableEq

def Problem.message : Problem → String
  | .malformed defect => defect.message
  | .wrongKind found wanted => "invalid type: " ++ found.phrase ++ ", expected " ++ wanted.phrase
  | .outOfRange value wanted =>
      "invalid value: integer `" ++ toString value ++ "`, expected " ++ wanted.phrase
  | .noValues => "invalid length 0, expected struct OperandDescriptor with 3 elements"
  | .repeatedField field => "duplicate field `" ++ field.name ++ "`"
  | .missingField field => "missing field `" ++ field.name ++ "`"

/-- A defect of the JSON text is a problem of the descriptor set. -/
def malformed {α : Type} (defect : Json.Defect) : Except Problem α := .error (.malformed defect)

/-- A part of the text read as JSON, its defects counted as problems. -/
def liftDefect {α : Type} : Except Json.Defect α → Except Problem α
  | .ok value => .ok value
  | .error defect => malformed defect

end Bytecode.DescriptorSet
