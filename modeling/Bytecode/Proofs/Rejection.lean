import Bytecode.DescriptorSet.Load
import Bytecode.Operand
import Bytecode.Proofs.Table.Meaning
import Bytecode.Proofs.Walk.Tiling

/-! # Faults that scripts call for

A decoder reports a fault exactly if the script calls for it, and exactly the fault that
it calls for (`Decoder.rejects_of_decode`, `Decoder.Rejects.decode_eq`). The numbers in
the fault are those of the script (`Decoder.Rejects.accounts`). Scripts and operands give
faults of two kinds, descriptor sets those of the other two.
-/

namespace Bytecode

/-- **Where an operand stands and how long it is declared to be.** The length is the
constant of the table, or the number in the length field behind the opcode. -/
inductive Decoder.Declares (decoder : Decoder) (script : Bytes) (position : Nat) :
    Nat → Nat → Prop where
  | fixed {first : UInt8} {size : UInt32} :
      script[position]? = some first →
      decoder.table.lookup ⟨first⟩ = .fixed size →
      decoder.Declares script position (position + 1) size.toNat
  | prefixed {first : UInt8} {width : LengthWidth} :
      script[position]? = some first →
      decoder.table.lookup ⟨first⟩ = .prefixed width →
      position + 1 + width.bytes ≤ script.length →
      decoder.Declares script position (position + 1 + width.bytes)
        (Bytes.littleEndian ((script.drop (position + 1)).take width.bytes))

/-- **The faults that a script calls for.** No opcode stands at the position; or a length
field behind the opcode is cut off; or the operand is declared longer than the limit or
than what follows. -/
inductive Decoder.Rejects (decoder : Decoder) (script : Bytes) (position : Nat) :
    Fault → Prop where
  | missingOpcode :
      script.length ≤ position →
      decoder.Rejects script position (.outOfBounds position 1 0)
  | missingLength {first : UInt8} {width : LengthWidth} :
      script[position]? = some first →
      decoder.table.lookup ⟨first⟩ = .prefixed width →
      script.length - position - 1 < width.bytes →
      decoder.Rejects script position
        (.outOfBounds (position + 1) width.bytes (script.length - position - 1))
  | overlong {start declared : Nat} :
      decoder.Declares script position start declared →
      decoder.limits.operandLength.toNat < declared ∨ script.length - start < declared →
      decoder.Rejects script position
        (.truncatedOperand start declared (script.length - start))

/-- **Faults whose numbers are those of the bytes.** What is available is all that stands
from the offset on, and less than what is asked for; a declared length is a number of four
bytes, beyond the limit or beyond what is available. -/
def Fault.Accounts (bytes : Bytes) (limit : Nat) : Fault → Prop
  | .outOfBounds offset needed available =>
      available < needed ∧ available = (bytes.drop offset).length
  | .truncatedOperand offset declared available =>
      offset ≤ bytes.length ∧ available = bytes.length - offset ∧ declared < 2 ^ 32 ∧
        min limit available < declared
  | .invalidMetadata .. | .descriptorSet _ => False

namespace Decoder

variable {decoder : Decoder} {script : Bytes} {position : Nat}

theorem decode_of_length_le (beyond : script.length ≤ position) :
    decoder.decode script position = .error (.outOfBounds position 1 0) := by
  rw [decode, List.drop_eq_nil_of_le beyond]
  rfl

theorem drop_of_getElem? {first : UInt8} (found : script[position]? = some first) :
    script.drop position = first :: script.drop (position + 1) := by
  obtain ⟨inside, rfl⟩ := List.getElem?_eq_some_iff.mp found
  exact List.drop_eq_getElem_cons inside

/-- A length field and what follows it, in the bytes behind an opcode. -/
theorem drop_eq_field_append (width : LengthWidth) :
    script.drop (position + 1) =
      (script.drop (position + 1)).take width.bytes ++
        script.drop (position + 1 + width.bytes) := by
  have behind : script.drop (position + 1 + width.bytes) =
      (script.drop (position + 1)).drop width.bytes := List.drop_drop.symm
  rw [behind, List.take_append_drop]

theorem Declares.start_le {start declared : Nat}
    (declares : decoder.Declares script position start declared) : start ≤ script.length := by
  cases declares with
  | fixed found _ =>
      obtain ⟨inside, -⟩ := List.getElem?_eq_some_iff.mp found
      exact inside
  | prefixed _ _ fits => exact fits

theorem Declares.declared_lt {start declared : Nat}
    (declares : decoder.Declares script position start declared) : declared < 2 ^ 32 := by
  cases declares with
  | @fixed first size _ _ => exact size.toNat_lt
  | @prefixed first width _ _ _ =>
      have bounded := Bytes.littleEndian_lt ((script.drop (position + 1)).take width.bytes)
      have shorter : ((script.drop (position + 1)).take width.bytes).length ≤ 4 := by
        have widest : width.bytes ≤ 4 := by cases width <;> decide
        exact Nat.le_trans (List.length_take_le _ _) widest
      calc Bytes.littleEndian ((script.drop (position + 1)).take width.bytes)
          < 256 ^ ((script.drop (position + 1)).take width.bytes).length := bounded
        _ ≤ 256 ^ 4 := Nat.pow_le_pow_right (by decide) shorter
        _ = 2 ^ 32 := by decide

/-- Where an operand is declared, decoding is reading that operand. -/
theorem Declares.decode_eq {start declared : Nat} {first : UInt8}
    (declares : decoder.Declares script position start declared)
    (found : script[position]? = some first) :
    decoder.decode script position =
      (decoder.takeOperand start declared (script.drop start)).map fun operand =>
        ⟨⟨first⟩, operand, decoder.table.lookup ⟨first⟩⟩ := by
  cases declares with
  | fixed foundThere entry =>
      obtain rfl := Option.some.inj (found.symm.trans foundThere)
      rw [decode, drop_of_getElem? found, takeInstruction_fixed entry, entry]
  | @prefixed _ width foundThere entry fits =>
      obtain rfl := Option.some.inj (found.symm.trans foundThere)
      have stored : ((script.drop (position + 1)).take width.bytes).length = width.bytes := by
        rw [List.length_take, List.length_drop]
        omega
      have taken := takeInstruction_prefixed entry stored position
        (script.drop (position + 1 + width.bytes))
      rw [← drop_eq_field_append] at taken
      rw [decode, drop_of_getElem? found, taken, entry]

theorem Declares.exists_opcode {start declared : Nat}
    (declares : decoder.Declares script position start declared) :
    ∃ first, script[position]? = some first := by
  cases declares with
  | fixed found _ => exact ⟨_, found⟩
  | prefixed found _ _ => exact ⟨_, found⟩

theorem Declares.decode_eq_error_iff {start declared : Nat}
    (declares : decoder.Declares script position start declared) {fault : Fault} :
    decoder.decode script position = .error fault ↔
      decoder.takeOperand start declared (script.drop start) = .error fault := by
  obtain ⟨first, found⟩ := declares.exists_opcode
  rw [declares.decode_eq found, map_eq_error_iff]

/-- At an opcode, either an operand is declared or its length field is cut off. -/
theorem exists_declares_or_short {first : UInt8} (found : script[position]? = some first) :
    (∃ start declared, decoder.Declares script position start declared) ∨
      ∃ width, decoder.table.lookup ⟨first⟩ = .prefixed width ∧
        script.length - position - 1 < width.bytes := by
  cases entry : decoder.table.lookup ⟨first⟩ with
  | fixed size => exact .inl ⟨_, _, .fixed found entry⟩
  | prefixed width =>
      rcases Nat.lt_or_ge script.length (position + 1 + width.bytes) with short | fits
      · obtain ⟨inside, -⟩ := List.getElem?_eq_some_iff.mp found
        exact .inr ⟨width, rfl, by omega⟩
      · exact .inl ⟨_, _, .prefixed found entry fits⟩

/-- An instruction that was read stands at its opcode. -/
theorem getElem?_of_decode {instruction : Instruction}
    (decoded : decoder.decode script position = .ok instruction) :
    script[position]? = some instruction.opcode.byte := by
  obtain ⟨-, rest, split⟩ := admits_of_takeInstruction decoded
  rw [← List.head?_drop, ← split]
  unfold Instruction.wire
  split <;> rfl

/-- An instruction that was read had its operand declared behind its header. -/
theorem declares_of_decode {instruction : Instruction}
    (decoded : decoder.decode script position = .ok instruction) :
    decoder.Declares script position (position + instruction.header)
      instruction.operand.length := by
  obtain ⟨admitted, rest, split⟩ := admits_of_takeInstruction decoded
  have found := getElem?_of_decode decoded
  obtain ⟨opcode, operand, encoding⟩ := instruction
  obtain ⟨entry, stated, -⟩ := admitted
  cases encoding with
  | fixed size =>
      have declares := Declares.fixed found entry.symm
      have stated : operand.length = size.toNat := stated
      rw [← stated] at declares
      exact declares
  | prefixed width =>
      have behind : script.drop (position + 1) =
          Bytes.ofNat width.bytes operand.length ++ (operand ++ rest) := by
        rw [← List.tail_drop, ← split]
        exact List.append_assoc _ _ _
      have fits : position + 1 + width.bytes ≤ script.length := by
        have total := congrArg List.length behind
        rw [List.length_drop, List.length_append, Bytes.length_ofNat] at total
        have positive : 0 < width.bytes := by cases width <;> decide
        omega
      have value : Bytes.littleEndian ((script.drop (position + 1)).take width.bytes) =
          operand.length := by
        rw [behind, List.take_left' (Bytes.length_ofNat _ _), Bytes.littleEndian_ofNat,
          Nat.mod_eq_of_lt stated]
      have declares := Declares.prefixed found entry.symm fits
      rw [value, Nat.add_assoc] at declares
      exact declares

theorem decode_of_short {first : UInt8} {width : LengthWidth}
    (found : script[position]? = some first)
    (entry : decoder.table.lookup ⟨first⟩ = .prefixed width)
    (short : script.length - position - 1 < width.bytes) :
    decoder.decode script position =
      .error (.outOfBounds (position + 1) width.bytes (script.length - position - 1)) := by
  have behind : (script.drop (position + 1)).length = script.length - position - 1 := by
    rw [List.length_drop]
    omega
  rw [decode, drop_of_getElem? found, takeInstruction_short entry (behind ▸ short), behind]

/-- Every fault of a decoder is one that the script calls for. -/
theorem rejects_of_decode {fault : Fault}
    (refused : decoder.decode script position = .error fault) :
    decoder.Rejects script position fault := by
  cases found : script[position]? with
  | none =>
      have beyond := List.getElem?_eq_none_iff.mp found
      rw [decode_of_length_le beyond] at refused
      cases refused
      exact .missingOpcode beyond
  | some first =>
      rcases exists_declares_or_short found with ⟨start, declared, declares⟩ | ⟨width, entry, short⟩
      · rw [declares.decode_eq_error_iff, takeOperand_eq_error_iff, List.length_drop] at refused
        obtain ⟨tooLong, rfl⟩ := refused
        exact .overlong declares tooLong
      · rw [decode_of_short found entry short] at refused
        cases refused
        exact .missingLength found entry short

/-- Every fault that a script calls for is reported. -/
theorem Rejects.decode_eq {fault : Fault} (rejects : decoder.Rejects script position fault) :
    decoder.decode script position = .error fault := by
  cases rejects with
  | missingOpcode beyond => exact decode_of_length_le beyond
  | missingLength found entry short => exact decode_of_short found entry short
  | overlong declares tooLong =>
      rw [declares.decode_eq_error_iff, takeOperand_eq_error_iff, List.length_drop]
      exact ⟨tooLong, rfl⟩

theorem Rejects.accounts {fault : Fault} (rejects : decoder.Rejects script position fault) :
    fault.Accounts script decoder.limits.operandLength.toNat := by
  cases rejects with
  | missingOpcode beyond =>
      refine ⟨Nat.zero_lt_one, ?_⟩
      rw [List.drop_eq_nil_of_le beyond, List.length_nil]
  | missingLength _ _ short =>
      refine ⟨short, ?_⟩
      rw [List.length_drop]
      omega
  | overlong declares tooLong =>
      refine ⟨declares.start_le, rfl, declares.declared_lt, ?_⟩
      rcases tooLong with limited | short
      · exact Nat.lt_of_le_of_lt (Nat.min_le_left _ _) limited
      · exact Nat.lt_of_le_of_lt (Nat.min_le_right _ _) short

/-- A fault of a walk is one of decoding where the walk stops. -/
theorem rejects_of_mem_walk {fault : Fault}
    (member : .rejected fault ∈ (decoder.walk script).value.items) :
    decoder.Rejects script (decoder.walk script).value.stop fault :=
  rejects_of_decode ((decoder.course_walk script).decode_stop_of_mem rfl member).1

end Decoder

/-- Faults whose numbers are those of bytes are the script's doing. -/
theorem Fault.Accounts.isMalformedInstruction {bytes : Bytes} {limit : Nat} {fault : Fault}
    (accounts : fault.Accounts bytes limit) : fault.isMalformedInstruction = true := by
  cases fault with
  | outOfBounds offset needed available => rfl
  | truncatedOperand offset declared available => rfl
  | invalidMetadata opcode prefixWidth => exact accounts.elim
  | descriptorSet problem => exact accounts.elim

theorem Operand.accounts_of_read {kind : FieldKind} {operand : Bytes} {offset : Nat}
    {fault : Fault} (refused : read kind operand offset = .error fault) (limit : Nat) :
    fault.Accounts operand limit := by
  unfold read at refused
  cases cut : Bytes.split? kind.width (operand.drop offset) with
  | some parts =>
      rw [cut] at refused
      cases refused
  | none =>
      rw [cut] at refused
      cases refused
      have short := Bytes.split?_eq_none_iff.mp cut
      rw [List.length_drop] at short
      exact ⟨short, (List.length_drop ..).symm⟩

/-- A list that builds no table is not the script's doing. -/
theorem Table.isMalformedInstruction_of_build {descriptors : List Descriptor} {fault : Fault}
    (refused : (build descriptors).value = .error fault) :
    fault.isMalformedInstruction = false := by
  obtain ⟨malformed, -, rfl⟩ := value_build_eq_error_iff.mp refused
  rfl

theorem Table.isMalformedInstruction_of_load {text : List Char} {fault : Fault}
    (refused : (load text).value = .error fault) : fault.isMalformedInstruction = false := by
  cases found : DescriptorSet.read text with
  | ok descriptors =>
      rw [load_of_read_eq_ok found] at refused
      exact isMalformedInstruction_of_build refused
  | error problem =>
      rw [load_of_read_eq_error found] at refused
      cases refused
      rfl

namespace Decoder

/-- **Faults are reported exactly when and as the script calls for them.** The numbers in
every fault of a decoder or a walk are those of the script, and those in a fault of a
typed field are those of the operand: such faults are the script's doing. Those of
descriptor lists, given as such or as text, never are. -/
theorem decode_eq_error_iff_rejects (decoder : Decoder) (script : Bytes) (position : Nat) :
    (∀ fault, decoder.decode script position = .error fault ↔
      decoder.Rejects script position fault) ∧
    (∀ fault, decoder.decode script position = .error fault ∨
        .rejected fault ∈ (decoder.walk script).value.items →
      fault.Accounts script decoder.limits.operandLength.toNat ∧
        fault.isMalformedInstruction = true) ∧
    (∀ kind operand offset fault, Operand.read kind operand offset = .error fault →
      fault.isMalformedInstruction = true) ∧
    (∀ token operand fault, Token.read token operand = .error fault →
      fault.isMalformedInstruction = true) ∧
    (∀ descriptors fault, (Table.build descriptors).value = .error fault →
      fault.isMalformedInstruction = false) ∧
    ∀ text fault, (Table.load text).value = .error fault →
      fault.isMalformedInstruction = false := by
  refine ⟨?_, ?_, ?_, ?_, ?_, ?_⟩
  · intro fault
    exact ⟨rejects_of_decode, Rejects.decode_eq⟩
  · intro fault reported
    have accounts : fault.Accounts script decoder.limits.operandLength.toNat := by
      rcases reported with refused | member
      · exact (rejects_of_decode refused).accounts
      · exact (rejects_of_mem_walk member).accounts
    exact ⟨accounts, accounts.isMalformedInstruction⟩
  · intro kind operand offset fault refused
    exact (Operand.accounts_of_read refused 0).isMalformedInstruction
  · intro token operand fault refused
    exact (Operand.accounts_of_read refused 0).isMalformedInstruction
  · intro descriptors fault refused
    exact Table.isMalformedInstruction_of_build refused
  · intro text fault refused
    exact Table.isMalformedInstruction_of_load refused

/-- One fault of each origin: a length field with two of its four bytes, met by a decoder and
by a walk; a number of four bytes asked of an operand of one; a width of three; and a text
that ends in its list. -/
theorem decode_eq_error_iff_rejects_each_origin :
    let decoder : Decoder := ⟨.ofFunction fun _ => .prefixed .four, .standard⟩
    let fault : Fault := .outOfBounds 1 4 2
    decoder.decode [0x22, 1, 0] 0 = .error fault ∧
    .rejected fault ∈ (decoder.walk [0x22, 1, 0]).value.items ∧
    fault.Accounts [0x22, 1, 0] decoder.limits.operandLength.toNat ∧
    (∃ met, Operand.read .u32 [7] 0 = .error met ∧ met.isMalformedInstruction = true) ∧
    (∃ met, Token.read ⟨.i32, 4⟩ [7] = .error met ∧ met.isMalformedInstruction = true) ∧
    (∃ met, (Table.build [⟨⟨0x0c⟩, 3, 0⟩]).value = .error met ∧
      met.isMalformedInstruction = false) ∧
    ∃ met, (Table.load ['[']).value = .error met ∧ met.isMalformedInstruction = false := by
  intro decoder fault
  obtain ⟨reported, accounts, fields, tokens, lists, texts⟩ :=
    decode_eq_error_iff_rejects decoder [0x22, 1, 0] 0
  have entry : decoder.table.lookup ⟨0x22⟩ = .prefixed .four := by simp [decoder]
  have refused : decoder.decode [0x22, 1, 0] 0 = .error fault :=
    (reported fault).mpr (.missingLength rfl entry (by decide))
  have walked := (Course.rejected (List.cons_ne_nil _ _) refused).walk_eq
  have member : .rejected fault ∈ (decoder.walk [0x22, 1, 0]).value.items := by
    rw [walked]
    exact List.mem_singleton.mpr rfl
  refine ⟨refused, member, (accounts fault (.inr member)).1, ?_, ?_, ?_, ?_⟩
  · exact ⟨.outOfBounds 0 4 1, rfl, fields .u32 [7] 0 _ rfl⟩
  · exact ⟨.outOfBounds 4 4 0, rfl, tokens ⟨.i32, 4⟩ [7] _ rfl⟩
  · exact ⟨.invalidMetadata ⟨0x0c⟩ 3, rfl, lists [⟨⟨0x0c⟩, 3, 0⟩] _ rfl⟩
  · exact ⟨_, rfl, texts ['['] _ rfl⟩

end Decoder

end Bytecode
