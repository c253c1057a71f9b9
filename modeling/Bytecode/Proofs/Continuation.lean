import Bytecode.Proofs.Rejection

/-! # Decoding while bytes arrive

Bytes that come behind a script leave an instruction that was read as it is
(`Decoder.decode_append_of_ok`), and what the script declares stays declared
(`Decoder.Declares.append`). A fault for want of bytes counts the ones that came, and goes
away with the last byte that it asks for; a length beyond the limit is refused whatever
comes (`Decoder.decode_append_refines`).
-/

namespace Bytecode.Decoder

variable {decoder : Decoder} {script : Bytes} {position : Nat}

/-- An instruction that was read is read with more bytes behind it. -/
theorem decode_append_of_ok {instruction : Instruction}
    (decoded : decoder.decode script position = .ok instruction) (further : Bytes) :
    decoder.decode (script ++ further) position = .ok instruction := by
  obtain ⟨admitted, front⟩ := admits_of_takeInstruction decoded
  have longer : script.drop position <+: (script ++ further).drop position := by
    rw [List.drop_append]
    exact List.prefix_append _ _
  exact takeInstruction_eq_ok_iff.mpr ⟨admitted, front.trans longer⟩

theorem getElem?_append_of_some {first : UInt8} (found : script[position]? = some first)
    (further : Bytes) : (script ++ further)[position]? = some first := by
  obtain ⟨inside, -⟩ := List.getElem?_eq_some_iff.mp found
  rw [List.getElem?_append_left inside, found]

/-- What a script declares is declared with more bytes behind it. -/
theorem Declares.append {start declared : Nat}
    (declares : decoder.Declares script position start declared) (further : Bytes) :
    decoder.Declares (script ++ further) position start declared := by
  cases declares with
  | fixed found entry => exact .fixed (getElem?_append_of_some found further) entry
  | @prefixed first width found entry fits =>
      have field : ((script ++ further).drop (position + 1)).take width.bytes =
          (script.drop (position + 1)).take width.bytes := by
        rw [List.drop_append_of_le_length (by omega),
          List.take_append_of_le_length (by rw [List.length_drop]; omega)]
      have room : position + 1 + width.bytes ≤ (script ++ further).length := by
        rw [List.length_append]
        omega
      have declares := Declares.prefixed (getElem?_append_of_some found further) entry room
      rwa [field] at declares

/-- An operand that is declared within the limit and within the script is read. -/
theorem Declares.exists_decode_eq_ok {start declared : Nat}
    (declares : decoder.Declares script position start declared)
    (limited : declared ≤ decoder.limits.operandLength.toNat)
    (there : declared ≤ script.length - start) :
    ∃ instruction, decoder.decode script position = .ok instruction ∧
      instruction.operand = (script.drop start).take declared ∧
        instruction.operand.length = declared := by
  obtain ⟨first, found⟩ := declares.exists_opcode
  have exact : ((script.drop start).take declared).length = declared := by
    rw [List.length_take, List.length_drop, Nat.min_eq_left there]
  have taken : decoder.takeOperand start declared (script.drop start) =
      .ok ((script.drop start).take declared) :=
    takeOperand_eq_ok_iff.mpr ⟨exact, limited, List.take_prefix _ _⟩
  refine ⟨⟨⟨first⟩, (script.drop start).take declared, decoder.table.lookup ⟨first⟩⟩, ?_, rfl,
    exact⟩
  rw [declares.decode_eq found, taken]
  rfl

/-- Where an operand is declared, decoding can only fail for its length. -/
theorem Declares.ok_or_truncated {start declared : Nat}
    (declares : decoder.Declares script position start declared) :
    (∃ instruction, decoder.decode script position = .ok instruction) ∨
      decoder.decode script position =
        .error (.truncatedOperand start declared (script.length - start)) := by
  by_cases fits : declared ≤ decoder.limits.operandLength.toNat ∧ declared ≤ script.length - start
  · obtain ⟨instruction, decoded, -⟩ := declares.exists_decode_eq_ok fits.1 fits.2
    exact .inl ⟨instruction, decoded⟩
  · have tooLong : decoder.limits.operandLength.toNat < declared ∨
        script.length - start < declared := by omega
    exact .inr (Rejects.overlong declares tooLong).decode_eq

/-- The fault of a missing opcode stays exactly until bytes reach the position. -/
theorem decode_eq_missing_iff :
    decoder.decode script position = .error (.outOfBounds position 1 0) ↔
      script.length ≤ position := by
  constructor
  · intro refused
    generalize met : Fault.outOfBounds position 1 0 = fault at refused
    cases rejects_of_decode refused with
    | missingOpcode beyond => exact beyond
    | missingLength found entry short =>
        injection met with offset
        omega
    | overlong declares tooLong => cases met
  · exact decode_of_length_le

/-- **More bytes refine a decoding and never contradict it.** An instruction stays what it
is. A truncated operand is read once it is there in full, unless it is beyond the limit;
until then only what is available grows. A missing length field stays missing until its
last byte is there, and then the operand behind it is read or found truncated. A missing
opcode stays missing exactly while the bytes do not reach the position. -/
theorem decode_append_refines (decoder : Decoder) (script further : Bytes) (position : Nat) :
    (∀ instruction, decoder.decode script position = .ok instruction →
      decoder.decode (script ++ further) position = .ok instruction) ∧
    (∀ start declared available,
      decoder.decode script position = .error (.truncatedOperand start declared available) →
      (declared ≤ decoder.limits.operandLength.toNat ∧
          declared ≤ available + further.length →
        ∃ instruction, decoder.decode (script ++ further) position = .ok instruction ∧
          instruction.operand = ((script ++ further).drop start).take declared ∧
            instruction.operand.length = declared) ∧
      (decoder.limits.operandLength.toNat < declared ∨
          available + further.length < declared →
        decoder.decode (script ++ further) position =
          .error (.truncatedOperand start declared (available + further.length)))) ∧
    (∀ needed available,
      decoder.decode script position = .error (.outOfBounds (position + 1) needed available) →
      (available + further.length < needed →
        decoder.decode (script ++ further) position =
          .error (.outOfBounds (position + 1) needed (available + further.length))) ∧
      (needed ≤ available + further.length →
        (∃ instruction, decoder.decode (script ++ further) position = .ok instruction) ∨
          ∃ declared left, decoder.decode (script ++ further) position =
            .error (.truncatedOperand (position + 1 + needed) declared left))) ∧
    (script.length ≤ position →
      decoder.decode script position = .error (.outOfBounds position 1 0) ∧
      (decoder.decode (script ++ further) position = .error (.outOfBounds position 1 0) ↔
        script.length + further.length ≤ position)) := by
  have total : (script ++ further).length = script.length + further.length := List.length_append
  refine ⟨fun _ decoded => decode_append_of_ok decoded further, ?_, ?_, ?_⟩
  · intro start declared available refused
    cases rejects_of_decode refused with
    | overlong declares tooLong =>
        have inside := declares.start_le
        have grown : (script ++ further).length - start =
            script.length - start + further.length := by omega
        rw [← grown]
        constructor
        · rintro ⟨limited, there⟩
          exact (declares.append further).exists_decode_eq_ok limited there
        · intro tooLong
          exact (Rejects.overlong (declares.append further) tooLong).decode_eq
  · intro needed available refused
    generalize met : Fault.outOfBounds (position + 1) needed available = fault at refused
    cases rejects_of_decode refused with
    | missingOpcode beyond =>
        injection met with offset
        omega
    | overlong declares tooLong => cases met
    | @missingLength first width found entry short =>
        injection met with offset widths count
        subst widths count
        obtain ⟨inside, -⟩ := List.getElem?_eq_some_iff.mp found
        have grown : (script ++ further).length - position - 1 =
            script.length - position - 1 + further.length := by omega
        have foundThere := getElem?_append_of_some found further
        rw [← grown]
        constructor
        · intro short
          exact (Rejects.missingLength foundThere entry short).decode_eq
        · intro there
          have declares := Declares.prefixed foundThere entry (by omega)
          rcases declares.ok_or_truncated with read | truncated
          · exact .inl read
          · exact .inr ⟨_, _, truncated⟩
  · intro beyond
    refine ⟨decode_of_length_le beyond, ?_⟩
    rw [decode_eq_missing_iff, total]

/-- An instruction with a length field of two bytes, under a limit of two: the bytes come one
after the other until it is read, and a length of nine is refused although nine bytes come. -/
theorem decode_append_refines_piece_by_piece :
    let decoder : Decoder := ⟨.ofFunction fun _ => .prefixed .two, ⟨2⟩⟩
    let instruction : Instruction := ⟨⟨0x0d⟩, [7, 8], .prefixed .two⟩
    (decoder.decode [] 0 = .error (.outOfBounds 0 1 0) ∧
      decoder.decode [0x0d] 0 ≠ .error (.outOfBounds 0 1 0)) ∧
    (decoder.decode [0x0d] 0 = .error (.outOfBounds 1 2 0) ∧
      decoder.decode [0x0d, 2] 0 = .error (.outOfBounds 1 2 1)) ∧
    (decoder.decode [0x0d, 2, 0, 7] 0 = .error (.truncatedOperand 3 2 1) ∧
      decoder.decode [0x0d, 2, 0, 7, 8] 0 = .ok instruction ∧ instruction.operand = [7, 8] ∧
      decoder.decode [0x0d, 2, 0, 7, 8, 9] 0 = .ok instruction) ∧
    (decoder.decode [0x0d, 9, 0] 0 = .error (.truncatedOperand 3 9 0) ∧
      decoder.decode [0x0d, 9, 0, 1, 2, 3, 4, 5, 6, 7, 8, 9] 0 =
        .error (.truncatedOperand 3 9 9)) := by
  intro decoder instruction
  have entry : ∀ opcode, decoder.table.lookup opcode = .prefixed .two := by simp [decoder]
  have lengthCut : decoder.decode [0x0d] 0 = .error (.outOfBounds 1 2 0) :=
    (Rejects.missingLength rfl (entry _) (by decide)).decode_eq
  have operandCut : decoder.decode [0x0d, 2, 0, 7] 0 = .error (.truncatedOperand 3 2 1) :=
    (Rejects.overlong (.prefixed rfl (entry _) (by decide)) (.inr (by decide))).decode_eq
  have admitted : decoder.Admits instruction := ⟨(entry _).symm, by decide, by decide⟩
  have written : instruction.wire = [0x0d, 2, 0, 7, 8] := by decide
  have read : decoder.decode [0x0d, 2, 0, 7, 8] 0 = .ok instruction :=
    takeInstruction_eq_ok_iff.mpr ⟨admitted, by rw [written]; exact List.prefix_rfl⟩
  have tooLong : decoder.decode [0x0d, 9, 0] 0 = .error (.truncatedOperand 3 9 0) :=
    (Rejects.overlong (.prefixed rfl (entry _) (by decide)) (.inl (by decide))).decode_eq
  obtain ⟨-, -, -, opcodeArrives⟩ := decode_append_refines decoder [] [0x0d] 0
  obtain ⟨-, -, lengthGrows, -⟩ := decode_append_refines decoder [0x0d] [2] 0
  obtain ⟨-, operandGrows, -, -⟩ := decode_append_refines decoder [0x0d, 2, 0, 7] [8] 0
  obtain ⟨stays, -, -, -⟩ := decode_append_refines decoder [0x0d, 2, 0, 7, 8] [9] 0
  obtain ⟨-, staysRefused, -, -⟩ :=
    decode_append_refines decoder [0x0d, 9, 0] [1, 2, 3, 4, 5, 6, 7, 8, 9] 0
  obtain ⟨opcodeMissing, reached⟩ := opcodeArrives (by decide)
  obtain ⟨whole, decoded, operand, -⟩ := (operandGrows 3 2 1 operandCut).1 (by decide)
  cases read.symm.trans decoded
  exact ⟨⟨opcodeMissing, mt reached.mp (by decide)⟩,
    ⟨lengthCut, (lengthGrows 2 0 lengthCut).1 (by decide)⟩,
    ⟨operandCut, decoded, operand, stays _ read⟩,
    tooLong, (staysRefused 3 9 0 tooLong).2 (by decide)⟩

end Bytecode.Decoder
