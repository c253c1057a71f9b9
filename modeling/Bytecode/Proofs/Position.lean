import Bytecode.Cursor
import Bytecode.Proofs.Layout

/-! # Positions only enter the faults

The same bytes further on in a script are read alike: an instruction stays what it
is, and of a fault only the offset changes (`Decoder.takeInstruction_shift`). So it does
not matter what stands before the position (`Decoder.decode_append_left`).
-/

namespace Bytecode

/-- The fault that the same bytes give when they stand further on. -/
def Fault.shift (distance : Nat) : Fault → Fault
  | .outOfBounds offset needed available => .outOfBounds (distance + offset) needed available
  | .truncatedOperand offset declared available =>
      .truncatedOperand (distance + offset) declared available
  | .invalidMetadata opcode prefixWidth => .invalidMetadata opcode prefixWidth
  | .descriptorSet problem => .descriptorSet problem

/-- The item that the same bytes give when they stand further on. -/
def Item.shift (distance : Nat) : Item → Item
  | .decoded position instruction => .decoded (distance + position) instruction
  | .rejected fault => .rejected (fault.shift distance)

namespace Decoder

theorem takeOperand_shift (decoder : Decoder) (distance position declared : Nat)
    (bytes : Bytes) :
    decoder.takeOperand (distance + position) declared bytes =
      (decoder.takeOperand position declared bytes).mapError (Fault.shift distance) := by
  unfold takeOperand
  by_cases within : declared ≤ decoder.limits.operandLength.toNat
  · rw [if_pos within, if_pos within]
    cases Bytes.split? declared bytes with
    | none => rfl
    | some cut => rfl
  · rw [if_neg within, if_neg within]
    rfl

/-- Bytes that stand further on give the same instruction, or the same fault with
its offset moved as far. -/
theorem takeInstruction_shift (decoder : Decoder) (distance position : Nat) (bytes : Bytes) :
    decoder.takeInstruction (distance + position) bytes =
      (decoder.takeInstruction position bytes).mapError (Fault.shift distance) := by
  cases bytes with
  | nil => rfl
  | cons first rest =>
      cases entry : decoder.table.lookup ⟨first⟩ with
      | fixed size =>
          rw [takeInstruction_fixed entry, takeInstruction_fixed entry, Nat.add_assoc,
            takeOperand_shift]
          cases decoder.takeOperand (position + 1) size.toNat rest <;> rfl
      | prefixed width =>
          rcases exists_field_or_short width rest with ⟨length, bytes, rfl, stored⟩ | short
          · rw [takeInstruction_prefixed entry stored, takeInstruction_prefixed entry stored,
              Nat.add_assoc, Nat.add_assoc, takeOperand_shift, ← Nat.add_assoc]
            cases decoder.takeOperand (position + 1 + width.bytes) (Bytes.littleEndian length)
              bytes <;> rfl
          · rw [takeInstruction_short entry short, takeInstruction_short entry short]
            rfl

/-- **Decoding does not depend on where the bytes stand.** Behind other bytes a script gives
the same instructions at the positions moved by their number, and the same faults with their
offset moved as far. The bytes before a position may be replaced by as many others. -/
theorem decode_append_left (decoder : Decoder) (front script : Bytes) (position : Nat) :
    (∀ instruction, decoder.decode script position = .ok instruction →
      decoder.decode (front ++ script) (front.length + position) = .ok instruction) ∧
    (∀ fault, decoder.decode script position = .error fault →
      decoder.decode (front ++ script) (front.length + position) =
        .error (fault.shift front.length)) ∧
    ∀ others : Bytes, others.length = (script.take position).length →
      decoder.decode (others ++ script.drop position) position =
        decoder.decode script position := by
  have moved : decoder.decode (front ++ script) (front.length + position) =
      (decoder.decode script position).mapError (Fault.shift front.length) := by
    rw [decode, List.drop_length_add_append, takeInstruction_shift]
    rfl
  refine ⟨?_, ?_, ?_⟩
  · intro instruction decoded
    rw [moved, decoded]
    rfl
  · intro fault refused
    rw [moved, refused]
    rfl
  · intro others replaced
    have behind : (others ++ script.drop position).drop position = script.drop position := by
      rcases Nat.le_total position script.length with inside | beyond
      · rw [List.length_take_of_le inside] at replaced
        rw [List.drop_left' replaced]
      · rw [List.take_of_length_le beyond] at replaced
        rw [List.drop_eq_nil_of_le beyond, List.append_nil, List.drop_eq_nil_of_le (by omega)]
    rw [decode, behind, decode]

/-- An instruction and a missing length field, both three bytes further on; and the missing
length field with the instruction before it overwritten. -/
theorem decode_append_left_three_further :
    let decoder : Decoder := ⟨.ofFunction fun _ => .prefixed .one, .standard⟩
    let script : Bytes := [0x0c, 1, 7, 0x0c]
    let instruction : Instruction := ⟨⟨0x0c⟩, [7], .prefixed .one⟩
    (decoder.decode script 0 = .ok instruction ∧
      decoder.decode ([1, 2, 3] ++ script) 3 = .ok instruction) ∧
    (decoder.decode script 3 = .error (.outOfBounds 4 1 0) ∧
      decoder.decode ([1, 2, 3] ++ script) 6 = .error (.outOfBounds 7 1 0)) ∧
    [9, 9, 9].length = (script.take 3).length ∧
    decoder.decode ([9, 9, 9] ++ script.drop 3) 3 = .error (.outOfBounds 4 1 0) := by
  intro decoder script instruction
  have entry : ∀ opcode, decoder.table.lookup opcode = .prefixed .one := by simp [decoder]
  have admitted : decoder.Admits instruction := ⟨(entry _).symm, by decide, by decide⟩
  have written : instruction.wire = [0x0c, 1, 7] := by decide
  have read : decoder.decode script 0 = .ok instruction :=
    takeInstruction_eq_ok_iff.mpr ⟨admitted, by rw [written]; exact ⟨[0x0c], rfl⟩⟩
  have missing : decoder.decode script 3 = .error (.outOfBounds 4 1 0) :=
    takeInstruction_short (entry _) (by decide) 3
  obtain ⟨moved, -, -⟩ := decode_append_left decoder [1, 2, 3] script 0
  obtain ⟨-, faultMoved, replaced⟩ := decode_append_left decoder [1, 2, 3] script 3
  exact ⟨⟨read, moved _ read⟩, ⟨missing, faultMoved _ missing⟩, rfl,
    (replaced [9, 9, 9] rfl).trans missing⟩

end Decoder

end Bytecode
