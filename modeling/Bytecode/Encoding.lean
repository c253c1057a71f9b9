import Bytecode.Bytes

/-! # Operand encodings

The operand of an opcode has a constant size, or its length is stored in front
of it as a little-endian field of one, two or four bytes.
-/

namespace Bytecode

/-- The width of a stored operand length. -/
inductive LengthWidth where
  | one
  | two
  | four
  deriving DecidableEq

namespace LengthWidth

/-- The number of bytes of the length field. -/
def bytes : LengthWidth → Nat
  | .one => 1
  | .two => 2
  | .four => 4

/-- The width with a given number of bytes; only one, two and four are widths. -/
def ofBytes? (count : UInt8) : Option LengthWidth :=
  if count = 1 then some .one
  else if count = 2 then some .two
  else if count = 4 then some .four
  else none

@[simp] theorem ofBytes?_bytes (width : LengthWidth) :
    ofBytes? (UInt8.ofNat width.bytes) = some width := by
  cases width <;> rfl

def inspect : LengthWidth → String
  | .one => "One"
  | .two => "Two"
  | .four => "Four"

end LengthWidth

/-- How the operand of an opcode is laid out in a script. -/
inductive Encoding where
  /-- The operand has this many bytes; no length is stored. -/
  | fixed (size : UInt32)
  /-- The operand follows a length field of this width. -/
  | prefixed (width : LengthWidth)
  deriving DecidableEq

namespace Encoding

/-- No operand: what an opcode has unless something else is said about it. -/
def empty : Encoding := .fixed 0

instance : Inhabited Encoding := ⟨empty⟩

/-- The bytes of the length field, zero where no length is stored. -/
def prefixWidth : Encoding → UInt8
  | .fixed _ => 0
  | .prefixed width => UInt8.ofNat width.bytes

/-- The constant operand size, zero where the length is stored. -/
def fixedSize : Encoding → UInt32
  | .fixed size => size
  | .prefixed _ => 0

/-- Whether the operand's length is stored in the script. -/
def isPrefixed : Encoding → Bool
  | .fixed _ => false
  | .prefixed _ => true

def inspect : Encoding → String
  | .fixed size => "Fixed(" ++ toString size.toNat ++ ")"
  | .prefixed width => "Prefixed(" ++ width.inspect ++ ")"

end Encoding

end Bytecode
