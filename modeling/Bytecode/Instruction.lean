import Bytecode.Table

/-! # Instructions

An instruction is an opcode with its operand and the encoding under which the
operand was stored. The operand may be replaced afterwards; the encoding stays,
and with it the rule for the size.
-/

namespace Bytecode

/-- An opcode with its operand. -/
structure Instruction where
  opcode : Opcode
  operand : Bytes
  /-- The layout under which the operand was stored. -/
  encoding : Encoding
  deriving DecidableEq

namespace Instruction

/-- The instruction that ends every script. -/
def ret : Instruction := ⟨⟨0x40⟩, [], .empty⟩

/-- The bytes the instruction takes in a script. A stored length makes room for
the operand; a constant size counts whatever the operand is. -/
def size (instruction : Instruction) : Nat :=
  match instruction.encoding with
  | .fixed size => 1 + size.toNat
  | .prefixed width => 1 + width.bytes + instruction.operand.length

theorem size_pos (instruction : Instruction) : 0 < instruction.size := by
  unfold size
  split <;> omega

/-- The bytes of the instruction in a script: the opcode, the operand's length
where it is stored, and the operand. -/
def wire (instruction : Instruction) : Bytes :=
  match instruction.encoding with
  | .fixed _ => instruction.opcode.byte :: instruction.operand
  | .prefixed width =>
      instruction.opcode.byte ::
        (Bytes.ofNat width.bytes instruction.operand.length ++ instruction.operand)

def inspect (instruction : Instruction) : String :=
  "Instruction \x7b opcode: " ++ instruction.opcode.inspect ++ ", operand: [" ++
    String.intercalate ", " (instruction.operand.map fun byte => toString byte.toNat) ++
    "], encoding: " ++ instruction.encoding.inspect ++ " \x7d"

end Instruction

end Bytecode
