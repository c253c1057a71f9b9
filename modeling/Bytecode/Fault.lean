import Bytecode.Opcode
import Bytecode.Text.Quoted

/-! # Faults

A fault says why a script could not be decoded, an operand not be read, or a
descriptor set not be accepted. Only the first two kinds are the script's doing.
-/

namespace Bytecode

/-- Why a script, an operand or a descriptor set was refused. -/
inductive Fault where
  /-- Too few bytes for an opcode, a length field or a typed field. -/
  | outOfBounds (offset needed available : Nat)
  /-- An operand declared longer than the limit or than what follows. -/
  | truncatedOperand (offset declared available : Nat)
  /-- A descriptor with a width other than zero, one, two and four. -/
  | invalidMetadata (opcode : Opcode) (prefixWidth : UInt8)
  /-- A descriptor set whose text could not be read. -/
  | descriptorSet (problem : String)
  deriving DecidableEq

namespace Fault

/-- Whether the script is to blame, rather than the operand table. -/
def isMalformedInstruction : Fault → Bool
  | .outOfBounds .. | .truncatedOperand .. => true
  | .invalidMetadata .. | .descriptorSet _ => false

def message : Fault → String
  | .outOfBounds offset needed available =>
      "Fora dos limites: " ++ toString needed ++ " byte(s) no offset " ++ toString offset ++
        ", " ++ toString available ++ " disponível(is)"
  | .truncatedOperand offset declared available =>
      "Operando truncado no offset " ++ toString offset ++ ": declarado " ++ toString declared ++
        ", disponível " ++ toString available
  | .invalidMetadata opcode prefixWidth =>
      "Metadados inválidos para " ++ opcode.text ++ ": largura de prefixo " ++
        toString prefixWidth.toNat
  | .descriptorSet problem => "Erro de decodificação de descritores: " ++ problem

def inspect : Fault → String
  | .outOfBounds offset needed available =>
      "OutOfBounds \x7b offset: " ++ toString offset ++ ", needed: " ++ toString needed ++
        ", available: " ++ toString available ++ " \x7d"
  | .truncatedOperand offset declared available =>
      "TruncatedOperand \x7b offset: " ++ toString offset ++ ", declared: " ++ toString declared ++
        ", available: " ++ toString available ++ " \x7d"
  | .invalidMetadata opcode prefixWidth =>
      "InvalidMetadata \x7b opcode: " ++ opcode.inspect ++ ", prefix_width: " ++
        toString prefixWidth.toNat ++ " \x7d"
  | .descriptorSet problem => "DescriptorSet(" ++ Text.quote problem ++ ")"

end Fault

end Bytecode
