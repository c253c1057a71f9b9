import Bytecode.Opcode
import Bytecode.Encoding

/-! # Operand descriptors

A descriptor states the encoding of one opcode in three numbers. A prefix width
of zero means an operand of the fixed size; a width of one, two or four means a
stored length, and the fixed size then says nothing. Any other width is
malformed.
-/

namespace Bytecode

/-- What an instruction set says about the operand of one opcode. -/
structure Descriptor where
  opcode : Opcode
  prefixWidth : UInt8
  fixedSize : UInt32
  deriving DecidableEq

namespace Descriptor

/-- An operand of constant size. -/
def fixed (opcode : Opcode) (size : UInt32) : Descriptor := ⟨opcode, 0, size⟩

/-- An operand whose length is stored in `width` bytes. -/
def prefixed (opcode : Opcode) (width : UInt8) : Descriptor := ⟨opcode, width, 0⟩

/-- The encoding that the descriptor states, unless its width is malformed. -/
def encoding? (descriptor : Descriptor) : Option Encoding :=
  if descriptor.prefixWidth = 0 then some (.fixed descriptor.fixedSize)
  else (LengthWidth.ofBytes? descriptor.prefixWidth).map .prefixed

/-- The descriptor that states an encoding, with zero for the number that does not apply. -/
def ofEncoding (opcode : Opcode) (encoding : Encoding) : Descriptor :=
  ⟨opcode, encoding.prefixWidth, encoding.fixedSize⟩

/-- A descriptor made from an encoding states that encoding. -/
@[simp] theorem encoding?_ofEncoding (opcode : Opcode) (encoding : Encoding) :
    (ofEncoding opcode encoding).encoding? = some encoding := by
  cases encoding with
  | fixed size => rfl
  | prefixed width => cases width <;> rfl

/-- Only the widths zero, one, two and four state an encoding. -/
theorem encoding?_eq_none_iff (descriptor : Descriptor) :
    descriptor.encoding? = none ↔ descriptor.prefixWidth ∉ [0, 1, 2, 4] := by
  simp only [encoding?, LengthWidth.ofBytes?, List.mem_cons, List.not_mem_nil, or_false, not_or]
  split
  · next zero => simp [zero]
  · split
    · next one => simp [one]
    · split
      · next two => simp [two]
      · split
        · next four => simp [four]
        · simp_all

def inspect (descriptor : Descriptor) : String :=
  "OperandDescriptor \x7b opcode: " ++ descriptor.opcode.inspect ++
    ", prefix_width: " ++ toString descriptor.prefixWidth.toNat ++
    ", fixed_size: " ++ toString descriptor.fixedSize.toNat ++ " \x7d"

end Descriptor

end Bytecode
