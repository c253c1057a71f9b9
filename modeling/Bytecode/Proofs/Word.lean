import Bytecode.Proofs.Rejection
import Bytecode.Proofs.Walk.Places
import Bytecode.Word.Decoder

/-! # Machines compute exactly

Whatever a machine does where a number is no word, it never comes to that. Each sum and
difference is safe because of what was found before it: a position at which a byte was found
is below the length of the script, a length field that is there ends inside it, and so does
an operand that is not refused. This holds of decoding (`Word.exists_decode`), of each step
of a walk (`Word.Walker.Mirrors.exists_next?`), so of a whole run
(`Word.Walker.Mirrors.exists_run`), and of typed fields (`Word.mapError_read`).
-/

namespace Bytecode.Word

variable {overflow : Overflow} {decoder : Decoder} {script : Bytes} {position : Word}

/-! ## Places in a script -/

theorem toNat_bytes (width : LengthWidth) : (UInt64.ofNat width.bytes).toNat = width.bytes := by
  cases width <;> rfl

theorem lt_size (short : script.length < 2 ^ 63) : script.length < UInt64.size :=
  Nat.lt_trans short (by decide)

/-- The place behind a byte that is there. -/
theorem exists_behind (overflow : Overflow) (short : script.length < 2 ^ 63)
    (inside : position.toNat < script.length) :
    ∃ start, add overflow position 1 = .ok start ∧ start.toNat = position.toNat + 1 :=
  exists_add overflow position 1 (Nat.lt_of_le_of_lt inside (lt_size short))

/-- The place behind a length field, whether or not all of the field is there. -/
theorem exists_behindField (overflow : Overflow) (short : script.length < 2 ^ 63) {start : Word}
    (inside : start.toNat ≤ script.length) (width : LengthWidth) :
    ∃ finish, add overflow start (.ofNat width.bytes) = .ok finish ∧
      finish.toNat = start.toNat + width.bytes := by
  have range : UInt64.size = 2 ^ 64 := rfl
  have widest : width.bytes ≤ 4 := by cases width <;> decide
  have widthExact := toNat_bytes width
  obtain ⟨finish, finishEq, finishExact⟩ :=
    exists_add overflow start (.ofNat width.bytes) (by omega)
  exact ⟨finish, finishEq, widthExact ▸ finishExact⟩

/-- The number of bytes from a place on. -/
theorem exists_available (overflow : Overflow) (short : script.length < 2 ^ 63) {start : Word}
    (inside : start.toNat ≤ script.length) :
    ∃ available, sub overflow (count script) start = .ok available ∧
      available.toNat = script.length - start.toNat := by
  have counted : (count script).toNat = script.length := toNat_count (lt_size short)
  rw [← counted] at inside ⊢
  exact exists_sub overflow (count script) start inside

/-! ## Decoding -/

theorem lengthIn_eq {width : LengthWidth} {field : Bytes} (exact : field.length = width.bytes) :
    lengthIn width field = .ok (.ofNat (Bytes.littleEndian field)) := by
  have there : bytesAt field 0 width.bytes = .ok ((field.drop 0).take width.bytes) :=
    bytesAt_of_le (by omega)
  rw [List.drop_zero, ← exact, List.take_length, exact] at there
  rw [lengthIn, there]
  rfl

/-- A length field that is there holds a number of four bytes at most, so a word. -/
theorem exists_lengthIn {first : UInt8} (found : script[position.toNat]? = some first)
    {width : LengthWidth} (entry : decoder.table.lookup ⟨first⟩ = .prefixed width)
    (there : position.toNat + 1 + width.bytes ≤ script.length) :
    ∃ declared,
      lengthIn width ((script.drop (position.toNat + 1)).take width.bytes) = .ok declared ∧
      decoder.Declares script position.toNat (position.toNat + 1 + width.bytes)
        declared.toNat := by
  have range : UInt64.size = 2 ^ 64 := rfl
  have stored : ((script.drop (position.toNat + 1)).take width.bytes).length = width.bytes := by
    rw [List.length_take, List.length_drop]
    omega
  have declares := Decoder.Declares.prefixed found entry there
  have small := declares.declared_lt
  have exact : (UInt64.ofNat (Bytes.littleEndian
      ((script.drop (position.toNat + 1)).take width.bytes))).toNat =
      Bytes.littleEndian ((script.drop (position.toNat + 1)).take width.bytes) :=
    UInt64.toNat_ofNat_of_lt' (by omega)
  rw [← exact] at declares
  exact ⟨_, lengthIn_eq stored, declares⟩

/-- **What stands behind an opcode.** A machine finds where the operand is declared, or that
the length field is missing. -/
theorem exists_declaration (overflow : Overflow) (decoder : Decoder)
    (short : script.length < 2 ^ 63) {first : UInt8}
    (found : script[position.toNat]? = some first) :
    (∃ start declared,
      declaration overflow script position (decoder.table.lookup ⟨first⟩) =
        .ok (.ok (start, declared)) ∧
      decoder.Declares script position.toNat start.toNat declared.toNat) ∨
    ∃ fault,
      declaration overflow script position (decoder.table.lookup ⟨first⟩) = .ok (.error fault) ∧
      decoder.Rejects script position.toNat fault.exact := by
  obtain ⟨inside, -⟩ := List.getElem?_eq_some_iff.mp found
  obtain ⟨start, startEq, startExact⟩ := exists_behind overflow short inside
  cases entry : decoder.table.lookup ⟨first⟩ with
  | fixed size =>
      refine .inl ⟨start, size.toUInt64, ?_, ?_⟩
      · rw [declaration, startEq]
        rfl
      · rw [startExact, UInt32.toNat_toUInt64]
        exact .fixed found entry
  | prefixed width =>
      have startInside : start.toNat ≤ script.length := by omega
      obtain ⟨finish, finishEq, finishExact⟩ := exists_behindField overflow short startInside width
      obtain ⟨available, availableEq, availableExact⟩ :=
        exists_available overflow short startInside
      rw [startExact] at finishExact availableExact
      rcases Nat.lt_or_ge script.length finish.toNat with beyond | there
      · have lacking : script.length - position.toNat - 1 < width.bytes := by omega
        refine .inr ⟨.outOfBounds start (.ofNat width.bytes) available, ?_, ?_⟩
        · simp only [declaration, bind, Except.bind, startEq, finishEq, availableEq,
            slice?_of_lt beyond]
          rfl
        · rw [Fault.exact, startExact, toNat_bytes, availableExact, ← Nat.sub_sub]
          exact .missingLength found entry lacking
      · have extent : finish.toNat - start.toNat = width.bytes := by omega
        have field : slice? script start finish =
            some ((script.drop start.toNat).take (finish.toNat - start.toNat)) :=
          slice?_of_le (by omega) there
        rw [extent, startExact] at field
        rw [finishExact] at there
        obtain ⟨declared, declaredEq, declares⟩ := exists_lengthIn found entry there
        rw [← finishExact] at declares
        refine .inl ⟨finish, declared, ?_, declares⟩
        simp only [declaration, bind, Except.bind, startEq, finishEq, availableEq, field,
          declaredEq]
        rfl

/-- An operand that starts inside a script is taken or refused exactly. -/
theorem exists_takeOperand (overflow : Overflow) (decoder : Decoder)
    (short : script.length < 2 ^ 63) {start : Word} (inside : start.toNat ≤ script.length)
    (declared : Word) :
    ∃ outcome, takeOperand overflow decoder script start declared = .ok outcome ∧
      outcome.mapError Fault.exact =
        decoder.takeOperand start.toNat declared.toNat (script.drop start.toNat) := by
  have range : UInt64.size = 2 ^ 64 := rfl
  obtain ⟨available, availableEq, availableExact⟩ := exists_available overflow short inside
  rw [← List.length_drop] at availableExact
  by_cases tooLong : decoder.limits.operandLength.toUInt64 < declared ∨ available < declared
  · refine ⟨.error (.truncatedOperand start declared available), ?_, ?_⟩
    · simp only [takeOperand, bind, Except.bind, availableEq, if_pos tooLong]
      rfl
    · rw [UInt64.lt_iff_toNat_lt, UInt64.lt_iff_toNat_lt, UInt32.toNat_toUInt64,
        availableExact] at tooLong
      refine (Decoder.takeOperand_eq_error_iff.mpr ⟨tooLong, ?_⟩).symm
      rw [← availableExact]
      rfl
  · obtain ⟨limited, there⟩ := not_or.mp tooLong
    rw [UInt64.lt_iff_toNat_lt, UInt32.toNat_toUInt64, Nat.not_lt] at limited
    rw [UInt64.lt_iff_toNat_lt, availableExact, Nat.not_lt] at there
    refine ⟨.ok ((script.drop start.toNat).take declared.toNat), ?_, ?_⟩
    · by_cases empty : declared = 0
      · simp only [takeOperand, bind, Except.bind, availableEq, if_neg tooLong, if_pos empty]
        rw [empty]
        rfl
      · rw [List.length_drop] at there
        obtain ⟨finish, finishEq, finishExact⟩ := exists_add overflow start declared (by omega)
        have extent : finish.toNat - start.toNat = declared.toNat := by omega
        have part : slice? script start finish =
            some ((script.drop start.toNat).take (finish.toNat - start.toNat)) :=
          slice?_of_le (by omega) (by omega)
        simp only [takeOperand, bind, Except.bind, availableEq, if_neg tooLong, if_neg empty,
          finishEq, slice, part, extent]
        rfl
    · exact (Decoder.takeOperand_eq_ok_iff.mpr
        ⟨List.length_take_of_le there, limited, List.take_prefix _ _⟩).symm

/-- **A machine decodes exactly.** It comes to an end, with the outcome of the decoder. -/
theorem exists_decode (overflow : Overflow) (decoder : Decoder) (short : script.length < 2 ^ 63)
    (position : Word) :
    ∃ outcome, decode overflow decoder script position = .ok outcome ∧
      outcome.mapError Fault.exact = decoder.decode script position.toNat := by
  cases found : script[position.toNat]? with
  | none =>
      have beyond := List.getElem?_eq_none_iff.mp found
      refine ⟨.error (.outOfBounds position 1 0), ?_, ?_⟩
      · rw [decode, found]
        rfl
      · rw [Decoder.decode_of_length_le beyond]
        rfl
  | some first =>
      rcases exists_declaration overflow decoder short found with
        ⟨start, declared, declaration, declares⟩ | ⟨fault, declaration, rejects⟩
      · obtain ⟨taken, takenEq, takenExact⟩ :=
          exists_takeOperand overflow decoder short declares.start_le declared
        refine ⟨taken.map fun operand => ⟨⟨first⟩, operand, decoder.table.lookup ⟨first⟩⟩, ?_, ?_⟩
        · rw [decode, found]
          simp only [bind, Except.bind, declaration, takenEq]
          rfl
        · rw [declares.decode_eq found, ← takenExact]
          cases taken <;> rfl
      · refine ⟨.error fault, ?_, ?_⟩
        · rw [decode, found]
          simp only [bind, Except.bind, declaration]
          rfl
        · exact rejects.decode_eq.symm

/-- The size of an instruction that was decoded is a word, as is the place behind it. -/
theorem exists_size (overflow : Overflow) (short : script.length < 2 ^ 63) {place : Nat}
    {instruction : Instruction} (decoded : decoder.decode script place = .ok instruction) :
    ∃ bytes, size overflow instruction = .ok bytes ∧ bytes.toNat = instruction.size ∧
      place + instruction.size < UInt64.size := by
  have fits := Decoder.size_le_of_takeInstruction decoded
  have positive := instruction.size_pos
  rw [List.length_drop] at fits
  have range : UInt64.size = 2 ^ 64 := rfl
  have one : (1 : Word).toNat = 1 := rfl
  cases encoding : instruction.encoding with
  | fixed count =>
      have exact : instruction.size = 1 + count.toNat := by
        simp only [Instruction.size, encoding]
      have sizeExact := UInt32.toNat_toUInt64 count
      obtain ⟨bytes, bytesEq, bytesExact⟩ := exists_add overflow 1 count.toUInt64 (by omega)
      refine ⟨bytes, ?_, by omega, by omega⟩
      simp only [size, encoding]
      exact bytesEq
  | prefixed width =>
      have exact : instruction.size = 1 + width.bytes + instruction.operand.length := by
        simp only [Instruction.size, encoding]
      have widthExact := toNat_bytes width
      have counted : (count instruction.operand).toNat = instruction.operand.length :=
        toNat_count (by omega)
      obtain ⟨header, headerEq, headerExact⟩ :=
        exists_add overflow 1 (.ofNat width.bytes) (by omega)
      obtain ⟨bytes, bytesEq, bytesExact⟩ :=
        exists_add overflow header (count instruction.operand) (by omega)
      refine ⟨bytes, ?_, by omega, by omega⟩
      simp only [size, encoding, bind, Except.bind, headerEq]
      exact bytesEq

/-! ## Walks -/

namespace Walker

/-- **A walk in words and a cursor at the same place.** -/
structure Mirrors (walker : Walker) (cursor : Cursor) : Prop where
  short : walker.script.length < 2 ^ 63
  decoder_eq : cursor.decoder = walker.decoder
  position_eq : cursor.position = walker.position.toNat
  ahead_eq : cursor.ahead = walker.script.drop walker.position.toNat
  failed_eq : cursor.failed = walker.failed

theorem mirrors_start (decoder : Decoder) (short : script.length < 2 ^ 63) :
    (start decoder script).Mirrors (.start decoder script) :=
  ⟨short, rfl, rfl, rfl, rfl⟩

variable {walker : Walker} {cursor : Cursor}

/-- Both stop at the same places. -/
theorem Mirrors.stopped_iff (mirrors : walker.Mirrors cursor) :
    cursor.next? = none ↔ walker.failed = true ∨ count walker.script ≤ walker.position := by
  have counted : (count walker.script).toNat = walker.script.length :=
    toNat_count (lt_size mirrors.short)
  rw [Cursor.next?_eq_none_iff, mirrors.failed_eq, mirrors.ahead_eq, List.drop_eq_nil_iff,
    UInt64.le_iff_toNat_le, counted]

/-- Both look at the same bytes. -/
theorem Mirrors.decode_eq (mirrors : walker.Mirrors cursor) :
    walker.decoder.decode walker.script walker.position.toNat =
      cursor.decoder.takeInstruction cursor.position cursor.ahead := by
  rw [Decoder.decode, mirrors.ahead_eq, mirrors.decoder_eq, mirrors.position_eq]

/-- **A step is exact.** Neither goes on, or both do with the same item. -/
theorem Mirrors.exists_next? (mirrors : walker.Mirrors cursor) (overflow : Overflow) :
    (cursor.next? = none ∧ walker.next? overflow = .ok none) ∨
    ∃ item later machineItem machineLater,
      cursor.next? = some (item, later) ∧
      walker.next? overflow = .ok (some (machineItem, machineLater)) ∧
      machineItem.exact = item.value ∧ machineLater.Mirrors later := by
  cases step : cursor.next? with
  | none => exact .inl ⟨rfl, if_pos (mirrors.stopped_iff.mp step)⟩
  | some found =>
      obtain ⟨item, later⟩ := found
      have going : ¬ (walker.failed = true ∨ count walker.script ≤ walker.position) := by
        rw [← mirrors.stopped_iff, step]
        exact Option.some_ne_none _
      obtain ⟨outcome, decoded, exact⟩ :=
        exists_decode overflow walker.decoder mirrors.short walker.position
      rw [mirrors.decode_eq] at exact
      obtain ⟨-, -, ⟨instruction, taken, rfl, rfl⟩ | ⟨fault, refused, rfl, rfl⟩⟩ :=
        Cursor.next?_cases step
      · rw [taken] at exact
        obtain rfl : outcome = .ok instruction := by
          cases outcome <;> cases exact
          rfl
        obtain ⟨bytes, sizeEq, sizeExact, fits⟩ :=
          exists_size overflow mirrors.short (mirrors.decode_eq.trans taken)
        rw [← sizeExact] at fits
        obtain ⟨position, positionEq, positionExact⟩ :=
          exists_add overflow walker.position bytes fits
        refine .inr ⟨_, _, .decoded walker.position instruction,
          { walker with position }, rfl, ?_, ?_, mirrors.short, mirrors.decoder_eq, ?_, ?_,
          mirrors.failed_eq⟩
        · simp only [next?, if_neg going, bind, Except.bind, decoded, sizeEq, positionEq]
          rfl
        · rw [Item.exact, ← mirrors.position_eq]
        · rw [positionExact, sizeExact, mirrors.position_eq]
        · rw [positionExact, sizeExact, mirrors.ahead_eq, List.drop_drop]
      · rw [refused] at exact
        obtain ⟨machineFault, rfl, rfl⟩ :
            ∃ machineFault, outcome = .error machineFault ∧ machineFault.exact = fault := by
          cases outcome with
          | ok _ => cases exact
          | error machineFault => exact ⟨machineFault, rfl, Except.error.inj exact⟩
        refine .inr ⟨_, _, .rejected machineFault, { walker with failed := true }, rfl, ?_, rfl,
          mirrors.short, mirrors.decoder_eq, mirrors.position_eq, mirrors.ahead_eq, rfl⟩
        simp only [next?, if_neg going, bind, Except.bind, decoded]
        rfl

/-- **A run is exact.** From an index of the items of a script on, a machine finds the items
that follow, and stands behind them. -/
theorem Mirrors.exists_run {items : List Bytecode.Item} {index : Nat}
    (mirrors : walker.Mirrors cursor) (stands : cursor.StandsAt items index)
    (overflow : Overflow) (steps : Nat) :
    ∃ found last, walker.run overflow steps = .ok (found, last) ∧
      found.map Item.exact = (items.drop index).take steps ∧
      last.position.toNat = Bytecode.Item.passedBy (items.take (index + steps)) := by
  induction steps generalizing walker cursor index with
  | zero =>
      refine ⟨[], walker, rfl, ?_, ?_⟩
      · rw [List.take_zero, List.map_nil]
      · rw [← mirrors.position_eq, stands.position_eq, Nat.add_zero]
  | succ steps ih =>
      rcases mirrors.exists_next? overflow with
        ⟨stopped, step⟩ | ⟨item, later, found, machineLater, going, step, same, mirrorsLater⟩
      · have finished := List.getElem?_eq_none_iff.mp (stands.getElem?_of_next?_eq_none stopped)
        refine ⟨[], walker, ?_, ?_, ?_⟩
        · simp only [run, bind, Except.bind, step]
          rfl
        · rw [List.drop_eq_nil_of_le finished, List.take_nil, List.map_nil]
        · rw [← mirrors.position_eq, stands.position_eq, List.take_of_length_le finished,
            List.take_of_length_le (Nat.le_add_right_of_le finished)]
      · obtain ⟨rest, last, runEq, restEq, positionEq⟩ := ih mirrorsLater (stands.step going)
        refine ⟨found :: rest, last, ?_, ?_, ?_⟩
        · simp only [run, bind, Except.bind, step, runEq]
          rfl
        · have laterEq := (stands.step going).ahead_eq
          rw [stands.drop_of_next?_eq_some going, laterEq, List.take_succ_cons, List.map_cons,
            same, restEq]
        · rw [positionEq, Nat.add_assoc, Nat.add_comm 1]

end Walker

/-! ## Fields -/

/-- A part of some width is found where the bytes are there. No sum beyond the words is
missed: what stands there stands beyond the bytes too. -/
theorem add?_bind_slice? {bytes : Bytes} (small : bytes.length < UInt64.size) (offset : Word)
    {width : Word} (positive : 0 < width.toNat) :
    (add? offset width).bind (slice? bytes offset) =
      (Bytes.split? width.toNat (bytes.drop offset.toNat)).map Prod.fst := by
  have ahead := List.length_drop (l := bytes) (i := offset.toNat)
  rcases Nat.lt_or_ge bytes.length (offset.toNat + width.toNat) with beyond | inside
  · have lacking : (bytes.drop offset.toNat).length < width.toNat := by omega
    rw [Bytes.split?_eq_none_iff.mpr lacking, Option.map_none]
    unfold add?
    split
    · next fits =>
        refine slice?_of_lt ?_
        rw [UInt64.toNat_add, Nat.mod_eq_of_lt fits]
        exact beyond
    · rfl
  · have fits : offset.toNat + width.toNat < UInt64.size := by omega
    have finishExact : (offset + width).toNat = offset.toNat + width.toNat :=
      Nat.mod_eq_of_lt fits
    have extent : (offset + width).toNat - offset.toNat = width.toNat := by omega
    have stored : ((bytes.drop offset.toNat).take width.toNat).length = width.toNat := by
      rw [List.length_take]
      omega
    have split := Bytes.split?_eq_some_iff.mpr
      ⟨(List.take_append_drop width.toNat (bytes.drop offset.toNat)).symm, stored⟩
    rw [split, add?, if_pos fits, Option.bind_some, slice?_of_le (by omega) (by omega), extent]
    rfl

/-- **A field is read exactly**, at whatever offset. -/
theorem mapError_read (kind : FieldKind) {operand : Bytes} (small : operand.length < UInt64.size)
    (offset : Word) :
    (read kind operand offset).mapError Fault.exact = Operand.read kind operand offset.toNat := by
  have widthExact : (UInt64.ofNat kind.width).toNat = kind.width := by cases kind <;> rfl
  have positive : 0 < (UInt64.ofNat kind.width).toNat := by rw [widthExact]; exact kind.width_pos
  rw [read, add?_bind_slice? small offset positive, Operand.read, widthExact]
  cases Bytes.split? kind.width (operand.drop offset.toNat) with
  | some parts => rfl
  | none =>
      refine congrArg Except.error ?_
      simp only [Fault.exact, widthExact, toNat_subOrZero, toNat_count small]

/-- **A machine computes exactly.** Whatever a machine does where a number is no word, and
whatever it is given, it never comes to that: it decodes at every position, passes each
instruction and reads each field with the exact outcome, and its runs are the walk. -/
theorem computes_exactly (overflow : Overflow) (decoder : Decoder) {script : Bytes}
    (short : script.length < 2 ^ 63) :
    (∀ position, ∃ outcome, decode overflow decoder script position = .ok outcome ∧
      outcome.mapError Fault.exact = decoder.decode script position.toNat) ∧
    (∀ position instruction, decoder.decode script position = .ok instruction →
      ∃ bytes, size overflow instruction = .ok bytes ∧ bytes.toNat = instruction.size ∧
        position + instruction.size < 2 ^ 64) ∧
    (∀ steps, ∃ items last,
      (Walker.start decoder script).run overflow steps = .ok (items, last) ∧
      items.map Item.exact = (decoder.walk script).value.items.take steps ∧
      last.position.toNat =
        Bytecode.Item.passedBy ((decoder.walk script).value.items.take steps)) ∧
    (∀ kind operand offset, operand.length < 2 ^ 64 →
      (read kind operand offset).mapError Fault.exact =
        Operand.read kind operand offset.toNat) ∧
    ∀ token ∈ Token.all, ∀ operand, operand.length < 2 ^ 64 →
      (read token.kind operand (.ofNat token.offset)).mapError Fault.exact =
        token.read operand := by
  refine ⟨exists_decode overflow decoder short, ?_, ?_, ?_, ?_⟩
  · intro position instruction decoded
    exact exists_size overflow short decoded
  · intro steps
    obtain ⟨items, last, runEq, same, positionEq⟩ :=
      (Walker.mirrors_start decoder short).exists_run (Cursor.standsAt_start decoder script)
        overflow steps
    rw [Nat.zero_add] at positionEq
    exact ⟨items, last, runEq, same, positionEq⟩
  · intro kind operand offset small
    exact mapError_read kind small offset
  · intro token member operand small
    have offsetExact : (UInt64.ofNat token.offset).toNat = token.offset := by
      revert token
      decide
    rw [mapError_read token.kind small, offsetExact, Token.read]

/-- The last of all positions and offsets, on a machine that stops where a number is no
word. -/
theorem computes_exactly_at_the_last_word :
    let decoder : Decoder := ⟨.ofFunction fun _ => .prefixed .one, .standard⟩
    let script : Bytes := [0x20, 1, 7]
    let last : Word := 0xFFFFFFFFFFFFFFFF
    script.length < 2 ^ 63 ∧
    (∃ outcome, decode .stops decoder script last = .ok outcome ∧
      outcome.mapError Fault.exact = .error (.outOfBounds last.toNat 1 0)) ∧
    (∃ bytes, size .stops ⟨⟨0x20⟩, [7], .prefixed .one⟩ = .ok bytes ∧ bytes.toNat = 3) ∧
    (read .i64 [7] last).mapError Fault.exact = .error (.outOfBounds last.toNat 8 0) := by
  intro decoder script last
  have short : script.length < 2 ^ 63 := by decide
  have prefixed : decoder.table.lookup ⟨0x20⟩ = .prefixed .one := by simp [decoder]
  have decoded : decoder.takeInstruction 0 (0x20 :: ([1] ++ [7])) =
      .ok ⟨⟨0x20⟩, [7], .prefixed .one⟩ := by
    rw [Decoder.takeInstruction_prefixed prefixed rfl]
    rfl
  obtain ⟨decodes, sizes, -, reads, -⟩ := computes_exactly .stops decoder short
  obtain ⟨outcome, decodeEq, refused⟩ := decodes last
  obtain ⟨bytes, sizeEq, sizeExact, -⟩ := sizes 0 _ decoded
  have beyond : ([7] : Bytes).length ≤ last.toNat := by decide
  have unread := reads .i64 [7] last (by decide)
  rw [Decoder.decode_of_length_le (by decide)] at refused
  rw [Operand.read, List.drop_eq_nil_of_le beyond, Nat.sub_eq_zero_of_le beyond] at unread
  exact ⟨short, ⟨outcome, decodeEq, refused⟩, ⟨bytes, sizeEq, sizeExact⟩, unread⟩

end Bytecode.Word
