import Bytecode.Decoder
import Bytecode.Proofs.Bytes

/-! # The layout that a decoder reads

A decoder reads an instruction exactly where the written form of one that it
admits stands (`Decoder.takeInstruction_eq_ok_iff`). What follows the written form
has no influence, so different admitted instructions never have written forms of
which one begins the other (`Decoder.Admits.eq_of_isPrefix`).
-/

namespace Bytecode

theorem map_eq_ok_iff {ε α β : Type} {f : α → β} {outcome : Except ε α} {value : β} :
    outcome.map f = .ok value ↔ ∃ found, outcome = .ok found ∧ f found = value := by
  cases outcome with
  | error fault => simp [Except.map]
  | ok found => simp [Except.map]

theorem map_eq_error_iff {ε α β : Type} {f : α → β} {outcome : Except ε α} {fault : ε} :
    outcome.map f = .error fault ↔ outcome = .error fault := by
  cases outcome with
  | error other => simp [Except.map]
  | ok found => simp [Except.map]

namespace Instruction

/-- **What a table and a limit allow an instruction to be.** The encoding is the
table's, the operand has the length that the encoding can state, and that
length is within the limit. -/
structure Admissible (table : Table) (limit : Nat) (instruction : Instruction) : Prop where
  encoding_eq : instruction.encoding = table.lookup instruction.opcode
  stated : match instruction.encoding with
    | .fixed size => instruction.operand.length = size.toNat
    | .prefixed width => instruction.operand.length < 256 ^ width.bytes
  limited : instruction.operand.length ≤ limit

/-- An admissible instruction takes as many bytes as its written form has. -/
theorem Admissible.length_wire {table : Table} {limit : Nat} {instruction : Instruction}
    (admissible : Admissible table limit instruction) :
    instruction.wire.length = instruction.size := by
  have stated := admissible.stated
  unfold wire size
  cases encoding : instruction.encoding with
  | fixed size =>
      rw [encoding] at stated
      simp only at stated
      simp only [List.length_cons]
      omega
  | prefixed width =>
      simp only [List.length_cons, List.length_append, Bytes.length_ofNat]
      omega

/-- The bytes in front of the operand: the opcode and the length field, if there is one. -/
def header (instruction : Instruction) : Nat :=
  match instruction.encoding with
  | .fixed _ => 1
  | .prefixed width => 1 + width.bytes

/-- An admissible instruction consists of what is in front of the operand and the operand. -/
theorem Admissible.size_eq {table : Table} {limit : Nat} {instruction : Instruction}
    (admissible : Admissible table limit instruction) :
    instruction.size = instruction.header + instruction.operand.length := by
  have stated := admissible.stated
  unfold size header
  cases encoding : instruction.encoding with
  | fixed size =>
      rw [encoding] at stated
      simp only at stated ⊢
      rw [stated]
  | prefixed width => rfl

/-- The fault of an instruction at `position` whose operand is refused, in bytes that end
at `finish`. -/
def operandFault (instruction : Instruction) (position finish : Nat) : Fault :=
  .truncatedOperand (position + instruction.header) instruction.operand.length
    (finish - (position + instruction.header))

end Instruction

namespace Decoder

/-- The instructions that the table and the limit of a decoder allow. -/
abbrev Admits (decoder : Decoder) (instruction : Instruction) : Prop :=
  instruction.Admissible decoder.table decoder.limits.operandLength.toNat

/-- An operand of a declared length is read where the limit allows that length
and as many bytes follow. -/
theorem takeOperand_eq_ok_iff {decoder : Decoder} {position declared : Nat}
    {bytes operand : Bytes} :
    decoder.takeOperand position declared bytes = .ok operand ↔
      operand.length = declared ∧ declared ≤ decoder.limits.operandLength.toNat ∧
        operand <+: bytes := by
  unfold takeOperand
  constructor
  · intro taken
    split at taken
    · next within =>
        split at taken
        · next front back cut =>
            obtain rfl : front = operand := by simpa using taken
            obtain ⟨rfl, exact⟩ := Bytes.split?_eq_some_iff.mp cut
            exact ⟨exact, within, List.prefix_append front back⟩
        · simp at taken
    · simp at taken
  · rintro ⟨rfl, within, rest, rfl⟩
    have cut : Bytes.split? operand.length (operand ++ rest) = some (operand, rest) :=
      Bytes.split?_eq_some_iff.mpr ⟨rfl, rfl⟩
    rw [if_pos within, cut]

/-- An operand is refused where its length is beyond the limit or beyond what follows. -/
theorem takeOperand_eq_error_iff {decoder : Decoder} {position declared : Nat} {bytes : Bytes}
    {fault : Fault} :
    decoder.takeOperand position declared bytes = .error fault ↔
      (decoder.limits.operandLength.toNat < declared ∨ bytes.length < declared) ∧
        fault = .truncatedOperand position declared bytes.length := by
  unfold takeOperand
  by_cases within : declared ≤ decoder.limits.operandLength.toNat
  · rw [if_pos within]
    cases cut : Bytes.split? declared bytes with
    | none =>
        have short := Bytes.split?_eq_none_iff.mp cut
        simp [short, eq_comm]
    | some parts =>
        have enough : ¬ bytes.length < declared := by
          rw [← Bytes.split?_eq_none_iff, cut]
          exact Option.some_ne_none parts
        simp [enough, Nat.not_lt.mpr within]
  · rw [if_neg within]
    simp [Nat.lt_of_not_le within, eq_comm]

theorem takeInstruction_fixed {decoder : Decoder} {first : UInt8} {size : UInt32}
    (entry : decoder.table.lookup ⟨first⟩ = .fixed size) (position : Nat) (rest : Bytes) :
    decoder.takeInstruction position (first :: rest) =
      (decoder.takeOperand (position + 1) size.toNat rest).map fun operand =>
        ⟨⟨first⟩, operand, .fixed size⟩ := by
  simp only [takeInstruction, entry]
  cases decoder.takeOperand (position + 1) size.toNat rest <;> rfl

theorem takeInstruction_prefixed {decoder : Decoder} {first : UInt8} {width : LengthWidth}
    (entry : decoder.table.lookup ⟨first⟩ = .prefixed width) {length : Bytes}
    (stored : length.length = width.bytes) (position : Nat) (bytes : Bytes) :
    decoder.takeInstruction position (first :: (length ++ bytes)) =
      (decoder.takeOperand (position + 1 + width.bytes) (Bytes.littleEndian length) bytes).map
        fun operand => ⟨⟨first⟩, operand, .prefixed width⟩ := by
  have cut : Bytes.split? width.bytes (length ++ bytes) = some (length, bytes) :=
    Bytes.split?_eq_some_iff.mpr ⟨rfl, stored⟩
  simp only [takeInstruction, entry, cut]
  cases decoder.takeOperand (position + 1 + width.bytes) (Bytes.littleEndian length) bytes <;> rfl

theorem takeInstruction_short {decoder : Decoder} {first : UInt8} {width : LengthWidth}
    (entry : decoder.table.lookup ⟨first⟩ = .prefixed width) {rest : Bytes}
    (short : rest.length < width.bytes) (position : Nat) :
    decoder.takeInstruction position (first :: rest) =
      .error (.outOfBounds (position + 1) width.bytes rest.length) := by
  have cut : Bytes.split? width.bytes rest = none := Bytes.split?_eq_none_iff.mpr short
  simp only [takeInstruction, entry, cut]

/-- A length field either stands at the front of the bytes or they are too few for it. -/
theorem exists_field_or_short (width : LengthWidth) (rest : Bytes) :
    (∃ length bytes, rest = length ++ bytes ∧ length.length = width.bytes) ∨
      rest.length < width.bytes := by
  rcases Nat.lt_or_ge rest.length width.bytes with short | enough
  · exact .inr short
  · exact .inl ⟨rest.take width.bytes, rest.drop width.bytes,
      (List.take_append_drop _ _).symm, List.length_take_of_le enough⟩

/-- **Reading finds only what is written.** An instruction that was read is an
admitted one, and its written form stands at the front of the bytes. -/
theorem admits_of_takeInstruction {decoder : Decoder} {position : Nat} {bytes : Bytes}
    {instruction : Instruction}
    (taken : decoder.takeInstruction position bytes = .ok instruction) :
    decoder.Admits instruction ∧ instruction.wire <+: bytes := by
  cases bytes with
  | nil => simp [takeInstruction] at taken
  | cons first rest =>
      cases entry : decoder.table.lookup ⟨first⟩ with
      | fixed size =>
          rw [takeInstruction_fixed entry, map_eq_ok_iff] at taken
          obtain ⟨operand, read, rfl⟩ := taken
          obtain ⟨exact, within, front⟩ := takeOperand_eq_ok_iff.mp read
          refine ⟨⟨entry.symm, exact, exact ▸ within⟩, ?_⟩
          exact List.cons_prefix_cons.mpr ⟨rfl, front⟩
      | prefixed width =>
          rcases exists_field_or_short width rest with ⟨length, bytes, rfl, stored⟩ | short
          · rw [takeInstruction_prefixed entry stored, map_eq_ok_iff] at taken
            obtain ⟨operand, read, rfl⟩ := taken
            obtain ⟨exact, within, front⟩ := takeOperand_eq_ok_iff.mp read
            -- No other length field of this width states the same length.
            have field : Bytes.ofNat width.bytes operand.length = length := by
              rw [exact, ← stored, Bytes.ofNat_littleEndian]
            refine ⟨⟨entry.symm, ?_, exact ▸ within⟩, ?_⟩
            · have bounded := Bytes.littleEndian_lt length
              rwa [stored, ← exact] at bounded
            · simp only [Instruction.wire, field]
              exact List.cons_prefix_cons.mpr
                ⟨rfl, (List.prefix_append_right_inj length).mpr front⟩
          · rw [takeInstruction_short entry short] at taken
            cases taken

/-- **Reading finds all that is written.** An admitted instruction is read back
from its written form, whatever follows. -/
theorem takeInstruction_wire_append {decoder : Decoder} {instruction : Instruction}
    (admitted : decoder.Admits instruction) (position : Nat) (rest : Bytes) :
    decoder.takeInstruction position (instruction.wire ++ rest) = .ok instruction := by
  obtain ⟨opcode, operand, encoding⟩ := instruction
  obtain ⟨entry, stated, limited⟩ := admitted
  simp only at entry stated limited
  cases encoding with
  | fixed size =>
      have read : decoder.takeOperand (position + 1) size.toNat (operand ++ rest) = .ok operand :=
        takeOperand_eq_ok_iff.mpr ⟨stated, stated ▸ limited, List.prefix_append operand rest⟩
      simp only [Instruction.wire, List.cons_append]
      rw [takeInstruction_fixed entry.symm, read]
      rfl
  | prefixed width =>
      -- The length is within the range of its width, so its field states it exactly.
      have value : Bytes.littleEndian (Bytes.ofNat width.bytes operand.length) =
          operand.length := by
        rw [Bytes.littleEndian_ofNat, Nat.mod_eq_of_lt stated]
      have read : decoder.takeOperand (position + 1 + width.bytes) operand.length
          (operand ++ rest) = .ok operand :=
        takeOperand_eq_ok_iff.mpr ⟨rfl, limited, List.prefix_append operand rest⟩
      simp only [Instruction.wire, List.cons_append, List.append_assoc]
      rw [takeInstruction_prefixed entry.symm (Bytes.length_ofNat _ _), value, read]
      rfl

theorem takeInstruction_eq_ok_iff {decoder : Decoder} {position : Nat} {bytes : Bytes}
    {instruction : Instruction} :
    decoder.takeInstruction position bytes = .ok instruction ↔
      decoder.Admits instruction ∧ instruction.wire <+: bytes := by
  constructor
  · exact admits_of_takeInstruction
  · rintro ⟨admitted, rest, rfl⟩
    exact takeInstruction_wire_append admitted position rest

/-- The written forms of admitted instructions can be told apart from the front. -/
theorem Admits.eq_of_isPrefix {decoder : Decoder} {first second : Instruction}
    (firstAdmitted : decoder.Admits first) (secondAdmitted : decoder.Admits second)
    {bytes : Bytes} (firstFront : first.wire <+: bytes) (secondFront : second.wire <+: bytes) :
    first = second := by
  have firstTaken : decoder.takeInstruction 0 bytes = .ok first :=
    takeInstruction_eq_ok_iff.mpr ⟨firstAdmitted, firstFront⟩
  have secondTaken : decoder.takeInstruction 0 bytes = .ok second :=
    takeInstruction_eq_ok_iff.mpr ⟨secondAdmitted, secondFront⟩
  exact Except.ok.inj (firstTaken.symm.trans secondTaken)

/-- An instruction that was read fits into the bytes it was read from. -/
theorem size_le_of_takeInstruction {decoder : Decoder} {position : Nat} {bytes : Bytes}
    {instruction : Instruction}
    (taken : decoder.takeInstruction position bytes = .ok instruction) :
    instruction.size ≤ bytes.length := by
  obtain ⟨admitted, front⟩ := admits_of_takeInstruction taken
  rw [← admitted.length_wire]
  exact front.length_le

/-- **Decoding inverts the layout.** At a position of a script a decoder reads an
instruction exactly if it admits the instruction and the written form stands
there. The size of an instruction that was read is the length of its written
form, so the next position is never beyond the end of the script. -/
theorem decode_eq_ok_iff_wire (decoder : Decoder) (script : Bytes) (position : Nat)
    (instruction : Instruction) :
    (decoder.decode script position = .ok instruction ↔
      instruction.Admissible decoder.table decoder.limits.operandLength.toNat ∧
        instruction.wire <+: script.drop position) ∧
    (decoder.decode script position = .ok instruction →
      instruction.size = instruction.wire.length ∧
        position + instruction.size ≤ script.length) := by
  refine ⟨takeInstruction_eq_ok_iff, ?_⟩
  intro decoded
  obtain ⟨admitted, _⟩ := admits_of_takeInstruction decoded
  have fits := size_le_of_takeInstruction decoded
  have positive := instruction.size_pos
  rw [List.length_drop] at fits
  exact ⟨admitted.length_wire.symm, by omega⟩

end Decoder

end Bytecode
