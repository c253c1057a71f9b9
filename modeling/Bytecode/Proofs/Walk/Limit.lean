import Bytecode.Proofs.Rejection

/-! # Walks under a higher limit

Under two limits the same is decoded, unless an operand is there whose length only the
higher limit admits (`Decoder.decode_eq_or_hidden`). Two walks therefore go together up to
the first such operand, which the lower limit makes a fault (`Course.eq_or_cutShort`).
-/

namespace Bytecode

namespace Decoder

variable {table : Table} {lower higher : Limits} {script : Bytes} {position : Nat}

/-- Where an operand stands and how long it is declared to be does not depend on the limit. -/
theorem Declares.of_limits {start declared : Nat}
    (declares : Declares ⟨table, higher⟩ script position start declared) :
    Declares ⟨table, lower⟩ script position start declared := by
  cases declares with
  | fixed found entry => exact .fixed found entry
  | prefixed found entry fits => exact .prefixed found entry fits

/-- A fault that a script calls for under a limit is called for under every lower one. -/
theorem Rejects.of_raised (raised : lower.operandLength ≤ higher.operandLength) {fault : Fault}
    (rejects : Rejects ⟨table, higher⟩ script position fault) :
    Rejects ⟨table, lower⟩ script position fault := by
  cases rejects with
  | missingOpcode beyond => exact .missingOpcode beyond
  | missingLength found entry short => exact .missingLength found entry short
  | overlong declares tooLong =>
      refine .overlong declares.of_limits (tooLong.imp_left ?_)
      exact Nat.lt_of_le_of_lt (UInt32.le_iff_toNat_le.mp raised)

/-- **Two limits differ only on an operand between them.** Either the same is decoded under
both, or the operand is there and only the higher limit admits its length. -/
theorem decode_eq_or_hidden (raised : lower.operandLength ≤ higher.operandLength)
    (script : Bytes) (position : Nat) :
    decode ⟨table, lower⟩ script position = decode ⟨table, higher⟩ script position ∨
      ∃ next : Instruction,
        decode ⟨table, higher⟩ script position = .ok next ∧
        lower.operandLength.toNat < next.operand.length ∧
        decode ⟨table, lower⟩ script position =
          .error (next.operandFault position script.length) := by
  cases read : decode ⟨table, higher⟩ script position with
  | error fault => exact .inl ((rejects_of_decode read).of_raised raised).decode_eq
  | ok next =>
      obtain ⟨admitted, front⟩ := admits_of_takeInstruction read
      by_cases within : next.operand.length ≤ lower.operandLength.toNat
      · have still : Admits ⟨table, lower⟩ next :=
          ⟨admitted.encoding_eq, admitted.stated, within⟩
        exact .inl (takeInstruction_eq_ok_iff.mpr ⟨still, front⟩)
      · have beyond := Nat.lt_of_not_le within
        have rejects : Rejects ⟨table, lower⟩ script position
            (next.operandFault position script.length) :=
          .overlong (declares_of_decode read).of_limits (.inl beyond)
        exact .inr ⟨next, rfl, beyond, rejects.decode_eq⟩

/-- Bytes at any position have a course. -/
theorem exists_course (decoder : Decoder) (position : Nat) (bytes : Bytes) :
    ∃ items stop, Course decoder position bytes items stop :=
  ⟨_, _, Cursor.course_drain ⟨decoder, position, bytes, false⟩ rfl⟩

end Decoder

/-- The two courses of a script under a lower and a higher limit are the same, or the first
ends at an operand that only the higher limit admits and the second goes on there. -/
theorem Course.eq_or_cutShort {table : Table} {lower higher : Limits} {script bytes : Bytes}
    {position stop : Nat} {items : List Item}
    (raised : lower.operandLength ≤ higher.operandLength)
    (course : Course ⟨table, lower⟩ position bytes items stop)
    (ahead : bytes = script.drop position) :
    Course ⟨table, higher⟩ position bytes items stop ∨
      ∃ (passed : Program) (next : Instruction) (rest : List Item) (halt : Nat),
        items = passed.layOut position ++ [.rejected (next.operandFault stop script.length)] ∧
        stop = position + passed.size ∧
        Course ⟨table, higher⟩ position bytes
          (passed.layOut position ++ .decoded stop next :: rest) halt ∧
        Decoder.decode ⟨table, higher⟩ script stop = .ok next ∧
        lower.operandLength.toNat < next.operand.length := by
  induction course with
  | ended position => exact .inl (.ended position)
  | @rejected position bytes fault nonempty refused =>
      subst ahead
      rcases Decoder.decode_eq_or_hidden raised script position with
        same | ⟨next, read, beyond, hidden⟩
      · exact .inl (.rejected nonempty (same.symm.trans refused))
      · cases refused.symm.trans hidden
        obtain ⟨rest, halt, further⟩ := Decoder.exists_course ⟨table, higher⟩
          (position + next.size) ((script.drop position).drop next.size)
        exact .inr ⟨[], next, rest, halt, rfl, rfl, .decoded read further, read, beyond⟩
  | @decoded position bytes instruction items stop taken _ ih =>
      subst ahead
      rcases Decoder.decode_eq_or_hidden raised script position with
        same | ⟨next, -, -, hidden⟩
      · have read := same.symm.trans taken
        rcases ih List.drop_drop with later | ⟨passed, next, rest, halt, rfl, rfl, later, found⟩
        · exact .inl (.decoded read later)
        · refine .inr ⟨instruction :: passed, next, rest, halt, rfl, ?_, .decoded read later, found⟩
          rw [Program.size_cons, Nat.add_assoc]
      · cases taken.symm.trans hidden

/-- **A walk that its limit cuts short.** Two walks pass the same program up to an
instruction whose operand is there. Its length is between the two limits, so that one walk
ends in a fault where the other goes on with the instruction. -/
structure Walk.CutShort (lower higher : Limits) (script : Bytes) (less more : Walk)
    (passed : Program) (next : Instruction) : Prop where
  less_items : less.items =
    passed.layOut 0 ++ [.rejected (next.operandFault less.stop script.length)]
  less_stop : less.stop = passed.size
  more_items : ∃ rest, more.items = passed.layOut 0 ++ .decoded less.stop next :: rest
  beyond : lower.operandLength.toNat < next.operand.length
  within : next.operand.length ≤ higher.operandLength.toNat
  available : next.operand.length ≤ script.length - (less.stop + next.header)

namespace Decoder

variable {table : Table} {lower higher : Limits} {script : Bytes}

theorem walk_eq_or_exists_cutShort (raised : lower.operandLength ≤ higher.operandLength) :
    (walk ⟨table, lower⟩ script).value = (walk ⟨table, higher⟩ script).value ∨
      ∃ passed next, Walk.CutShort lower higher script (walk ⟨table, lower⟩ script).value
        (walk ⟨table, higher⟩ script).value passed next := by
  rcases (course_walk ⟨table, lower⟩ script).eq_or_cutShort raised rfl with
    same | ⟨passed, next, rest, halt, items, stop, further, read, beyond⟩
  · exact .inl same.walk_eq.symm
  · obtain ⟨admitted, -⟩ := admits_of_takeInstruction read
    have fits := size_le_of_takeInstruction read
    rw [admitted.size_eq, List.length_drop] at fits
    refine .inr ⟨passed, next, items, ?_, ⟨rest, ?_⟩, beyond, admitted.limited, ?_⟩
    · rw [stop, Nat.zero_add]
    · rw [further.walk_eq]
    · omega

/-- Two limits that no operand of a script can exceed give the same walk. -/
theorem walk_eq_of_length_le (raised : lower.operandLength ≤ higher.operandLength)
    (roomy : script.length ≤ lower.operandLength.toNat) :
    (walk ⟨table, lower⟩ script).value = (walk ⟨table, higher⟩ script).value := by
  rcases walk_eq_or_exists_cutShort raised with same | ⟨passed, next, cut⟩
  · exact same
  · have beyond := cut.beyond
    have available := cut.available
    omega

/-- **A higher limit only shows more of the same walk.** The walks under two limits are
equal, or the lower limit cuts the first one short. They are equal if no operand of the
script can exceed either limit, and if the walk under the lower limit ends without a
fault or for lack of an opcode or a length field. -/
theorem walk_eq_or_cutShort (table : Table) (script : Bytes) :
    (∀ lower higher : Limits, lower.operandLength ≤ higher.operandLength →
      (walk ⟨table, lower⟩ script).value = (walk ⟨table, higher⟩ script).value ∨
        ∃ passed next, Walk.CutShort lower higher script (walk ⟨table, lower⟩ script).value
          (walk ⟨table, higher⟩ script).value passed next) ∧
    (∀ first second : Limits, script.length ≤ first.operandLength.toNat →
      script.length ≤ second.operandLength.toNat →
      (walk ⟨table, first⟩ script).value = (walk ⟨table, second⟩ script).value) ∧
    ∀ lower higher : Limits, lower.operandLength ≤ higher.operandLength →
      (∀ fault, .rejected fault ∈ (walk ⟨table, lower⟩ script).value.items →
        ∃ offset needed available, fault = .outOfBounds offset needed available) →
      (walk ⟨table, lower⟩ script).value = (walk ⟨table, higher⟩ script).value := by
  refine ⟨fun _ _ => walk_eq_or_exists_cutShort, ?_, ?_⟩
  · intro first second firstRoomy secondRoomy
    rcases Nat.le_total first.operandLength.toNat second.operandLength.toNat with
      raised | raised
    · exact walk_eq_of_length_le (UInt32.le_iff_toNat_le.mpr raised) firstRoomy
    · exact (walk_eq_of_length_le (UInt32.le_iff_toNat_le.mpr raised) secondRoomy).symm
  · intro lower higher raised bounded
    rcases walk_eq_or_exists_cutShort raised with same | ⟨passed, next, cut⟩
    · exact same
    · have member : .rejected (next.operandFault
          (walk ⟨table, lower⟩ script).value.stop script.length) ∈
          (walk ⟨table, lower⟩ script).value.items := by
        rw [cut.less_items]
        exact List.mem_append_right _ (List.mem_singleton.mpr rfl)
      obtain ⟨offset, needed, available, other⟩ := bounded _ member
      cases other

/-- A push of three bytes behind another instruction: the limit of two cuts the walk short
there, while limits of all six bytes of the script change nothing. Nor does a higher limit
help where the push lacks its length. -/
theorem walk_eq_or_cutShort_limit_two :
    let table : Table := .ofFunction fun opcode =>
      if opcode = ⟨0x0c⟩ then .prefixed .one else .empty
    let script : Bytes := [0x40, 0x0c, 3, 1, 2, 3]
    let lower : Limits := ⟨2⟩
    let higher : Limits := ⟨3⟩
    lower.operandLength ≤ higher.operandLength ∧
    (∃ passed next, Walk.CutShort lower higher script (walk ⟨table, lower⟩ script).value
      (walk ⟨table, higher⟩ script).value passed next) ∧
    script.length ≤ 6 ∧ script.length ≤ 7 ∧
    (walk ⟨table, ⟨6⟩⟩ script).value = (walk ⟨table, ⟨7⟩⟩ script).value ∧
    .rejected (.outOfBounds 1 1 0) ∈ (walk ⟨table, lower⟩ [0x0c]).value.items ∧
    (∀ fault, .rejected fault ∈ (walk ⟨table, lower⟩ [0x0c]).value.items →
      ∃ offset needed available, fault = .outOfBounds offset needed available) ∧
    (walk ⟨table, lower⟩ [0x0c]).value = (walk ⟨table, higher⟩ [0x0c]).value := by
  intro table script lower higher
  have push (limits : Limits) :
      (⟨table, limits⟩ : Decoder).table.lookup ⟨0x0c⟩ = .prefixed .one := by simp [table]
  have plain (limits : Limits) :
      (⟨table, limits⟩ : Decoder).table.lookup ⟨0x40⟩ = .fixed 0 := by simp [table, Encoding.empty]
  have passed (limits : Limits) :
      takeInstruction ⟨table, limits⟩ 0 script = .ok ⟨⟨0x40⟩, [], .fixed 0⟩ := by
    rw [takeInstruction_fixed (plain limits)]
    rfl
  have refused : takeInstruction ⟨table, lower⟩ 1 (0x0c :: ([3] ++ [1, 2, 3])) =
      .error (.truncatedOperand 3 3 3) := by
    rw [takeInstruction_prefixed (push lower) rfl]
    rfl
  have read : takeInstruction ⟨table, higher⟩ 1 (0x0c :: ([3] ++ [1, 2, 3])) =
      .ok ⟨⟨0x0c⟩, [1, 2, 3], .prefixed .one⟩ := by
    rw [takeInstruction_prefixed (push higher) rfl]
    rfl
  have less := (Course.decoded (passed lower)
    (.rejected (List.cons_ne_nil _ _) refused)).walk_eq
  have more := (Course.decoded (passed higher) (.decoded read (.ended _))).walk_eq
  have apart : (walk ⟨table, lower⟩ script).value ≠ (walk ⟨table, higher⟩ script).value := by
    rw [less, more]
    decide
  have lacking : takeInstruction ⟨table, lower⟩ 0 [0x0c] = .error (.outOfBounds 1 1 0) :=
    takeInstruction_short (push lower) (by decide) 0
  have ended := (Course.rejected (List.cons_ne_nil _ _) lacking).walk_eq
  have raised : lower.operandLength ≤ higher.operandLength := by decide
  have bounded : ∀ fault, .rejected fault ∈ (walk ⟨table, lower⟩ [0x0c]).value.items →
      ∃ offset needed available, fault = .outOfBounds offset needed available := by
    intro fault member
    rw [ended] at member
    cases List.mem_singleton.mp member
    exact ⟨1, 1, 0, rfl⟩
  refine ⟨raised, ?_, by decide, by decide, ?_, ?_, bounded, ?_⟩
  · exact ((walk_eq_or_cutShort table script).1 lower higher raised).resolve_left apart
  · exact (walk_eq_or_cutShort table script).2.1 ⟨6⟩ ⟨7⟩ (by decide) (by decide)
  · rw [ended]
    exact List.mem_singleton.mpr rfl
  · exact (walk_eq_or_cutShort table [0x0c]).2.2 lower higher raised bounded

end Decoder

end Bytecode
