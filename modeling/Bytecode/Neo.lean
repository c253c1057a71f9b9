import Bytecode.Table.Build

/-! # The Neo instruction set

The opcodes of the Neo virtual machine that have a name here, and the operands
they take. Opcodes that are not listed take no operand.
-/

namespace Bytecode.Neo

/-- The instructions that take an operand: name, opcode and encoding. -/
def operandInstructions : List (String × Opcode × Encoding) :=
  [ -- constants
    ("PUSHINT8", ⟨0x00⟩, .fixed 1), ("PUSHINT16", ⟨0x01⟩, .fixed 2),
    ("PUSHINT32", ⟨0x02⟩, .fixed 4), ("PUSHINT64", ⟨0x03⟩, .fixed 8),
    ("PUSHINT128", ⟨0x04⟩, .fixed 16), ("PUSHINT256", ⟨0x05⟩, .fixed 32),
    ("PUSHA", ⟨0x0a⟩, .fixed 4), ("PUSHDATA1", ⟨0x0c⟩, .prefixed .one),
    ("PUSHDATA2", ⟨0x0d⟩, .prefixed .two), ("PUSHDATA4", ⟨0x0e⟩, .prefixed .four),
    -- flow control
    ("JMP", ⟨0x22⟩, .fixed 1), ("JMP_L", ⟨0x23⟩, .fixed 4),
    ("JMPIF", ⟨0x24⟩, .fixed 1), ("JMPIF_L", ⟨0x25⟩, .fixed 4),
    ("JMPIFNOT", ⟨0x26⟩, .fixed 1), ("JMPIFNOT_L", ⟨0x27⟩, .fixed 4),
    ("JMPEQ", ⟨0x28⟩, .fixed 1), ("JMPEQ_L", ⟨0x29⟩, .fixed 4),
    ("JMPNE", ⟨0x2a⟩, .fixed 1), ("JMPNE_L", ⟨0x2b⟩, .fixed 4),
    ("JMPGT", ⟨0x2c⟩, .fixed 1), ("JMPGT_L", ⟨0x2d⟩, .fixed 4),
    ("JMPGE", ⟨0x2e⟩, .fixed 1), ("JMPGE_L", ⟨0x2f⟩, .fixed 4),
    ("JMPLT", ⟨0x30⟩, .fixed 1), ("JMPLT_L", ⟨0x31⟩, .fixed 4),
    ("JMPLE", ⟨0x32⟩, .fixed 1), ("JMPLE_L", ⟨0x33⟩, .fixed 4),
    ("CALL", ⟨0x34⟩, .fixed 1), ("CALL_L", ⟨0x35⟩, .fixed 4), ("CALLT", ⟨0x37⟩, .fixed 2),
    ("TRY", ⟨0x3b⟩, .fixed 2), ("TRY_L", ⟨0x3c⟩, .fixed 8),
    ("ENDTRY", ⟨0x3d⟩, .fixed 1), ("ENDTRY_L", ⟨0x3e⟩, .fixed 4),
    ("SYSCALL", ⟨0x41⟩, .fixed 4),
    -- slots
    ("INITSSLOT", ⟨0x56⟩, .fixed 1), ("INITSLOT", ⟨0x57⟩, .fixed 2),
    ("LDSFLD", ⟨0x5f⟩, .fixed 1), ("STSFLD", ⟨0x67⟩, .fixed 1),
    ("LDLOC", ⟨0x6f⟩, .fixed 1), ("STLOC", ⟨0x77⟩, .fixed 1),
    ("LDARG", ⟨0x7f⟩, .fixed 1), ("STARG", ⟨0x87⟩, .fixed 1),
    -- types
    ("NEWARRAY_T", ⟨0xc4⟩, .fixed 1), ("ISTYPE", ⟨0xd9⟩, .fixed 1), ("CONVERT", ⟨0xdb⟩, .fixed 1)]

/-- The instructions without an operand that have a name here. -/
def plainInstructions : List (String × Opcode) :=
  [("PUSH0", ⟨0x10⟩), ("NOP", ⟨0x21⟩), ("RET", ⟨0x40⟩)]

def names : List (String × Opcode) :=
  operandInstructions.map (fun (name, opcode, _) => (name, opcode)) ++ plainInstructions

def opcode? (name : String) : Option Opcode := names.lookup name

/-- The descriptors of the instruction set, in its own order. -/
def descriptors : List Descriptor :=
  operandInstructions.map fun (_, opcode, encoding) => .ofEncoding opcode encoding

/-- Build the table of the instruction set. All its descriptors are well
formed (`encoding?_isSome`), so the table of no operands never stands in. -/
def loadTable : Logged Table :=
  let built := Table.build descriptors
  ⟨built.value.toOption.getD .empty, built.events⟩

theorem encoding?_isSome : ∀ descriptor ∈ descriptors, descriptor.encoding?.isSome := by
  decide

/-- The descriptors name 47 opcodes, each once. -/
theorem descriptors_nodup : (descriptors.map (·.opcode)).Nodup ∧ descriptors.length = 47 := by
  decide

end Bytecode.Neo
