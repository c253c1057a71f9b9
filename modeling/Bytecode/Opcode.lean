import Bytecode.Text.Digit

/-! # Opcodes

An opcode is the first byte of an instruction. All 256 values are opcodes, also
those that no instruction set names.
-/

namespace Bytecode

/-- The byte that starts an instruction. -/
structure Opcode where
  byte : UInt8
  deriving DecidableEq, Inhabited

namespace Opcode

/-- The place of the opcode in a table of all opcodes. -/
def index (opcode : Opcode) : Fin 256 := opcode.byte.toFin

def toNat (opcode : Opcode) : Nat := opcode.byte.toNat

/-- The opcode of a number below 256. -/
def ofNat (number : Nat) : Opcode := ⟨UInt8.ofNat number⟩

theorem toNat_lt (opcode : Opcode) : opcode.toNat < 256 := opcode.byte.toNat_lt

theorem index_lt (opcode : Opcode) : opcode.index.val < 256 := opcode.index.isLt

@[simp] theorem val_index (opcode : Opcode) : opcode.index.val = opcode.toNat := rfl

@[simp] theorem ofNat_toNat (opcode : Opcode) : ofNat opcode.toNat = opcode := by
  simp [ofNat, toNat]

theorem toNat_ofNat {number : Nat} (small : number < 256) : (ofNat number).toNat = number := by
  simp only [ofNat, toNat, UInt8.toNat_ofNat']
  exact Nat.mod_eq_of_lt small

theorem toNat_injective {first second : Opcode} (same : first.toNat = second.toNat) :
    first = second := by
  rw [← ofNat_toNat first, ← ofNat_toNat second, same]

/-- Every opcode once, in ascending order. -/
def all : List Opcode := (List.range 256).map ofNat

theorem mem_all (opcode : Opcode) : opcode ∈ all :=
  List.mem_map.mpr ⟨opcode.toNat, List.mem_range.mpr opcode.toNat_lt, ofNat_toNat opcode⟩

/-- The opcode in a sentence: two hexadecimal digits. -/
def text (opcode : Opcode) : String :=
  let digits := Text.hexadecimal opcode.toNat
  "opcode 0x" ++ (if digits.length < 2 then "0" ++ digits else digits)

/-- The opcode as a developer sees it: the decimal number, named as an opcode. -/
def inspect (opcode : Opcode) : String := "OpCode(" ++ toString opcode.toNat ++ ")"

end Opcode

end Bytecode
