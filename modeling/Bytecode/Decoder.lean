import Bytecode.Instruction
import Bytecode.Limits

/-! # Decoding one instruction

A decoder reads the instruction at a position of a script. It looks at the
bytes from that position on; the position itself only enters the faults. A
rejected instruction is reported with the position and the byte found there.
-/

namespace Bytecode

/-- A table and the limits under which it is used. -/
structure Decoder where
  table : Table
  limits : Limits := .standard

namespace Decoder

/-- The operand of a declared length at the front of `bytes`, which stand at
`position` in the script. -/
def takeOperand (decoder : Decoder) (position declared : Nat) (bytes : Bytes) :
    Except Fault Bytes :=
  if declared ≤ decoder.limits.operandLength.toNat then
    match bytes.split? declared with
    | some (operand, _) => .ok operand
    | none => .error (.truncatedOperand position declared bytes.length)
  else .error (.truncatedOperand position declared bytes.length)

/-- The instruction at the front of `bytes`, which stand at `position` in the
script. -/
def takeInstruction (decoder : Decoder) (position : Nat) : Bytes → Except Fault Instruction
  | [] => .error (.outOfBounds position 1 0)
  | first :: rest =>
      let opcode : Opcode := ⟨first⟩
      match decoder.table.lookup opcode with
      | .fixed size => do
          let operand ← decoder.takeOperand (position + 1) size.toNat rest
          return ⟨opcode, operand, .fixed size⟩
      | .prefixed width =>
          match Bytes.split? width.bytes rest with
          | none => .error (.outOfBounds (position + 1) width.bytes rest.length)
          | some (length, bytes) => do
              let operand ←
                decoder.takeOperand (position + 1 + width.bytes) (Bytes.littleEndian length) bytes
              return ⟨opcode, operand, .prefixed width⟩

/-- The instruction at a position of a script. -/
def decode (decoder : Decoder) (script : Bytes) (position : Nat) : Except Fault Instruction :=
  decoder.takeInstruction position (script.drop position)

end Decoder

/-- The report due for the outcome of decoding at the front of `bytes`, which
stand at `position` in the script. -/
def rejectionEvents (position : Nat) (bytes : Bytes) :
    Except Fault Instruction → List Event
  | .ok _ => []
  | .error fault => [.instructionRejected position (bytes.head?.map Opcode.mk) fault]

namespace Decoder

/-- The instruction at a position of a script, reporting a rejection. -/
def decodeLogged (decoder : Decoder) (script : Bytes) (position : Nat) :
    Logged (Except Fault Instruction) :=
  let bytes := script.drop position
  let decoded := decoder.takeInstruction position bytes
  ⟨decoded, rejectionEvents position bytes decoded⟩

@[simp] theorem value_decodeLogged (decoder : Decoder) (script : Bytes) (position : Nat) :
    (decoder.decodeLogged script position).value = decoder.decode script position := rfl

end Decoder

end Bytecode
