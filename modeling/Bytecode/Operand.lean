import Bytecode.Bytes
import Bytecode.Fault

/-! # Reading operands

An operand is a byte string. It can be read as typed little-endian fields at
any offset, or as ASCII text with a question mark for every byte beyond ASCII.
Which reading makes sense depends on the opcode. Offsets in faults count from
the start of the operand.
-/

namespace Bytecode

/-- The types of fields. -/
inductive FieldKind where
  | u8
  | i8
  | u16
  | i16
  | u32
  | i32
  | i64
  deriving DecidableEq

namespace FieldKind

def name : FieldKind → String
  | .u8 => "u8"
  | .i8 => "i8"
  | .u16 => "u16"
  | .i16 => "i16"
  | .u32 => "u32"
  | .i32 => "i32"
  | .i64 => "i64"

def all : List FieldKind := [.u8, .i8, .u16, .i16, .u32, .i32, .i64]

def ofName? (name : String) : Option FieldKind := all.find? (·.name = name)

/-- The bytes a field of the type takes. -/
def width : FieldKind → Nat
  | .u8 | .i8 => 1
  | .u16 | .i16 => 2
  | .u32 | .i32 => 4
  | .i64 => 8

theorem width_pos (kind : FieldKind) : 0 < kind.width := by cases kind <;> decide

/-- Whether the type has negative values, stored in two's complement. -/
def signed : FieldKind → Bool
  | .u8 | .u16 | .u32 => false
  | .i8 | .i16 | .i32 | .i64 => true

/-- The number of values of the type. -/
def range (kind : FieldKind) : Nat := Nat.pow 256 kind.width

/-- The value of the type that an unsigned number of its width stands for. -/
def ofUnsigned (kind : FieldKind) (number : Nat) : Int :=
  if kind.signed then Int.bmod number kind.range else number

/-- The bytes that store a value of the type. -/
def write (kind : FieldKind) (value : Int) : Bytes :=
  Bytes.ofNat kind.width (value % kind.range).toNat

end FieldKind

/-- The text of an operand. -/
inductive OperandText where
  /-- The operand is this ASCII text as it stands. -/
  | verbatim (text : String)
  /-- The operand is no ASCII text; question marks stand for what is not ASCII. -/
  | replaced (text : String)
  deriving DecidableEq

namespace OperandText

def toString : OperandText → String
  | .verbatim text | .replaced text => text

/-- Whether the operand is the text as it stands. -/
def isVerbatim : OperandText → Bool
  | .verbatim _ => true
  | .replaced _ => false

end OperandText

namespace Operand

/-- The value of a type stored at an offset of an operand. -/
def read (kind : FieldKind) (operand : Bytes) (offset : Nat) : Except Fault Int :=
  match Bytes.split? kind.width (operand.drop offset) with
  | some (field, _) => .ok (kind.ofUnsigned (Bytes.littleEndian field))
  | none => .error (.outOfBounds offset kind.width (operand.length - offset))

/-- The character that shows a byte: an ASCII character as itself, any other
byte as a question mark. -/
def showByte (byte : UInt8) : Char :=
  if byte < 0x80 then Char.ofNat byte.toNat else '?'

/-- The text of an operand that need not be text: one character for each byte. -/
def showBytes (operand : Bytes) : String := String.ofList (operand.map showByte)

/-- The operand as ASCII text: as it stands if it is UTF-8 text of ASCII
characters only, and otherwise byte by byte. -/
def text (operand : Bytes) : OperandText :=
  match String.fromUTF8? ⟨operand.toArray⟩ with
  | some text =>
      if text.toList.all (·.toNat < 0x80) then .verbatim text else .replaced (showBytes operand)
  | none => .replaced (showBytes operand)

end Operand

/-- A field that instructions are known to hold: its type and place. The places
beyond the start are those of the second of two packed fields. -/
structure Token where
  kind : FieldKind
  offset : Nat
  deriving DecidableEq

namespace Token

/-- The fields at the start of an operand, and the second of two packed bytes or
of two packed four-byte fields. -/
def all : List Token :=
  [⟨.u8, 0⟩, ⟨.u8, 1⟩, ⟨.i8, 0⟩, ⟨.i8, 1⟩, ⟨.u16, 0⟩, ⟨.i16, 0⟩, ⟨.u32, 0⟩, ⟨.i32, 0⟩, ⟨.i32, 4⟩,
    ⟨.i64, 0⟩]

/-- The name of the field: its type, marked as the second field where it is one. -/
def name (token : Token) : String :=
  if token.offset = 0 then token.kind.name else token.kind.name ++ "_1"

/-- The value of the field in an operand. -/
def read (token : Token) (operand : Bytes) : Except Fault Int :=
  Operand.read token.kind operand token.offset

end Token

end Bytecode
