import Bytecode.Cursor
import Bytecode.Operand
import Bytecode.Word

/-! # Decoding with words

The decoder, the walk and the typed fields as a machine computes them: positions and lengths
are words, bytes are looked up by index, and each sum, difference and slice is one that may
fail. Faults hold words too.
-/

namespace Bytecode.Word

/-- Why a script or an operand was refused, in words. -/
inductive Fault where
  | outOfBounds (offset needed available : Word)
  | truncatedOperand (offset declared available : Word)
  deriving DecidableEq

/-- The fault with the numbers that its words are. -/
def Fault.exact : Fault → Bytecode.Fault
  | .outOfBounds offset needed available =>
      .outOfBounds offset.toNat needed.toNat available.toNat
  | .truncatedOperand offset declared available =>
      .truncatedOperand offset.toNat declared.toNat available.toNat

/-- The number in a length field whose bytes are taken for granted. -/
def lengthIn (width : LengthWidth) (field : Bytes) : Except Trap Word := do
  let bytes ← bytesAt field 0 width.bytes
  return .ofNat (Bytes.littleEndian bytes)

/-- Where the operand of an instruction stands and how long it is declared to be, unless its
length field is cut off. -/
def declaration (overflow : Overflow) (script : Bytes) (position : Word) :
    Encoding → Except Trap (Except Fault (Word × Word))
  | .fixed size => do
      let start ← add overflow position 1
      return .ok (start, size.toUInt64)
  | .prefixed width => do
      let start ← add overflow position 1
      let finish ← add overflow start (.ofNat width.bytes)
      -- What is available is computed whether or not the field is there.
      let available ← sub overflow (count script) start
      match slice? script start finish with
      | none => return .error (.outOfBounds start (.ofNat width.bytes) available)
      | some field =>
          let declared ← lengthIn width field
          return .ok (finish, declared)

/-- The operand of a declared length at a place of a script. An empty one is not looked up. -/
def takeOperand (overflow : Overflow) (decoder : Decoder) (script : Bytes)
    (start declared : Word) : Except Trap (Except Fault Bytes) := do
  let available ← sub overflow (count script) start
  if decoder.limits.operandLength.toUInt64 < declared ∨ available < declared then
    return .error (.truncatedOperand start declared available)
  else if declared = 0 then return .ok []
  else
    let finish ← add overflow start declared
    let operand ← slice script start finish
    return .ok operand

/-- The instruction at a position of a script. -/
def decode (overflow : Overflow) (decoder : Decoder) (script : Bytes) (position : Word) :
    Except Trap (Except Fault Instruction) :=
  match script[position.toNat]? with
  | none => return .error (.outOfBounds position 1 0)
  | some first => do
      let encoding := decoder.table.lookup ⟨first⟩
      match ← declaration overflow script position encoding with
      | .error fault => return .error fault
      | .ok (start, declared) =>
          let taken ← takeOperand overflow decoder script start declared
          return taken.map fun operand => ⟨⟨first⟩, operand, encoding⟩

/-- The bytes that an instruction takes in a script. -/
def size (overflow : Overflow) (instruction : Instruction) : Except Trap Word :=
  match instruction.encoding with
  | .fixed size => add overflow 1 size.toUInt64
  | .prefixed width => do
      let header ← add overflow 1 (.ofNat width.bytes)
      add overflow header (count instruction.operand)

/-- What a step of a walk yields, in words. -/
inductive Item where
  | decoded (position : Word) (instruction : Instruction)
  | rejected (fault : Fault)

/-- The item with the numbers that its words are. -/
def Item.exact : Item → Bytecode.Item
  | .decoded position instruction => .decoded position.toNat instruction
  | .rejected fault => .rejected fault.exact

/-- A walk under way: the whole script and the position in it. -/
structure Walker where
  decoder : Decoder
  script : Bytes
  position : Word
  failed : Bool

namespace Walker

def start (decoder : Decoder) (script : Bytes) : Walker := ⟨decoder, script, 0, false⟩

/-- The item at the position and the walk behind it; nothing at the end of the script or
after a fault. -/
def next? (overflow : Overflow) (walker : Walker) : Except Trap (Option (Item × Walker)) :=
  if walker.failed = true ∨ count walker.script ≤ walker.position then return none
  else do
    match ← decode overflow walker.decoder walker.script walker.position with
    | .ok instruction =>
        let size ← size overflow instruction
        let position ← add overflow walker.position size
        return some (.decoded walker.position instruction, { walker with position })
    | .error fault => return some (.rejected fault, { walker with failed := true })

/-- The items of up to `steps` steps and the walk behind them. -/
def run (overflow : Overflow) (walker : Walker) : Nat → Except Trap (List Item × Walker)
  | 0 => return ([], walker)
  | steps + 1 => do
      match ← walker.next? overflow with
      | none => return ([], walker)
      | some (item, later) =>
          let (items, last) ← later.run overflow steps
          return (item :: items, last)

end Walker

/-- The value of a type stored at an offset of an operand. -/
def read (kind : FieldKind) (operand : Bytes) (offset : Word) : Except Fault Int :=
  match (add? offset (.ofNat kind.width)).bind (slice? operand offset) with
  | some field => .ok (kind.ofUnsigned (Bytes.littleEndian field))
  | none =>
      .error (.outOfBounds offset (.ofNat kind.width) (subOrZero (count operand) offset))

end Bytecode.Word
