import Bytecode.Proofs.Layout
import Bytecode.Proofs.Operand.Fields

/-! # Packed operands

An operand can pack several fields, each in the bytes of its type behind the ones before it.
What was packed is read back field by field (`Operand.read_pack`), also after the instruction
was written into a script and decoded there (`Operand.packed_fields_read_back`).
-/

namespace Bytecode.Operand

/-- A value of one of the types. -/
structure Field where
  kind : FieldKind
  value : Int
  holds : kind.Holds value

/-- The operand that fields make up one after another. -/
def pack (fields : List Field) : Bytes := fields.flatMap fun field => field.kind.write field.value

/-- The sum of the widths of fields. -/
def extent (fields : List Field) : Nat := (fields.map fun field => field.kind.width).sum

/-- The instruction whose operand packs fields. -/
def packed (table : Table) (opcode : Opcode) (fields : List Field) : Instruction :=
  ⟨opcode, pack fields, table.lookup opcode⟩

theorem length_pack (fields : List Field) : (pack fields).length = extent fields := by
  induction fields with
  | nil => rfl
  | cons field rest ih =>
      rw [pack, List.flatMap_cons, List.length_append, FieldKind.length_write, extent,
        List.map_cons, List.sum_cons]
      exact congrArg (field.kind.width + ·) ih

/-- **A field is read back where it was packed**, behind the widths of the fields before it. -/
theorem read_pack (before : List Field) (field : Field) (after : List Field) :
    read field.kind (pack (before ++ field :: after)) (extent before) = .ok field.value := by
  have split : pack (before ++ field :: after) =
      pack before ++ (field.kind.write field.value ++ pack after) := by
    rw [pack, List.flatMap_append, List.flatMap_cons]
    rfl
  have written := field.kind.length_write field.value
  refine read_eq_ok_iff.mpr ⟨?_, field.holds, ?_⟩
  · rw [split, List.length_append, List.length_append, length_pack, written]
    omega
  · rw [split, List.drop_left' (length_pack before), List.take_left' written]

/-- Nothing is read at the end of an operand. -/
theorem read_length (kind : FieldKind) (operand : Bytes) :
    read kind operand operand.length = .error (.outOfBounds operand.length kind.width 0) := by
  have positive := kind.width_pos
  rw [read_of_lt (by omega), Nat.sub_self]

/-- **What readers find in packed fields.** Every field is read at the sum of the widths before
it, and no type behind the last one. The named fields are those at the offsets zero, one and
four, so two packed bytes or two packed numbers of four bytes have names. -/
structure ReadsBack (fields : List Field) (operand : Bytes) : Prop where
  field : ∀ before field after, fields = before ++ field :: after →
    read field.kind operand (extent before) = .ok field.value
  ended : ∀ kind, read kind operand operand.length =
    .error (.outOfBounds operand.length kind.width 0)
  token : ∀ token ∈ Token.all, token.offset ∈ [0, 1, 4] ∧
    token.read operand = read token.kind operand token.offset
  pair : ∀ first second : Field, fields = [first, second] → first.kind = second.kind →
    first.kind ∈ [.u8, .i8, .i32] →
    (∃ token ∈ Token.all, token.kind = first.kind ∧ token.offset = 0 ∧
      token.read operand = .ok first.value) ∧
    ∃ token ∈ Token.all, token.kind = second.kind ∧ token.offset = second.kind.width ∧
      token.read operand = .ok second.value

/-- Two fields of a type that has a second named field are read by their names. -/
theorem exists_token_of_pair {first second : Field} (same : first.kind = second.kind)
    (named : first.kind ∈ [.u8, .i8, .i32]) :
    (∃ token ∈ Token.all, token.kind = first.kind ∧ token.offset = 0 ∧
      token.read (pack [first, second]) = .ok first.value) ∧
    ∃ token ∈ Token.all, token.kind = second.kind ∧ token.offset = second.kind.width ∧
      token.read (pack [first, second]) = .ok second.value := by
  have tokens : ∀ kind ∈ [FieldKind.u8, .i8, .i32],
      ⟨kind, 0⟩ ∈ Token.all ∧ ⟨kind, kind.width⟩ ∈ Token.all := by
    decide
  have firstRead : read first.kind (pack [first, second]) 0 = .ok first.value :=
    read_pack [] first [second]
  have secondRead : read second.kind (pack [first, second]) first.kind.width =
      .ok second.value :=
    read_pack [first] second []
  obtain ⟨firstNamed, -⟩ := tokens first.kind named
  rw [same] at named secondRead
  obtain ⟨-, secondNamed⟩ := tokens second.kind named
  exact ⟨⟨_, firstNamed, rfl, rfl, firstRead⟩, ⟨_, secondNamed, rfl, rfl, secondRead⟩⟩

theorem readsBack_pack (fields : List Field) : ReadsBack fields (pack fields) where
  field before field after split := by
    rw [split]
    exact read_pack before field after
  ended kind := read_length kind (pack fields)
  token token member := by
    have offset : ∀ token ∈ Token.all, token.offset ∈ [0, 1, 4] := by decide
    exact ⟨offset token member, rfl⟩
  pair first second two same named := by
    rw [two]
    exact exists_token_of_pair same named

/-- **Packed fields survive.** An instruction whose operand packs fields and is allowed by a
table and a limit may be written anywhere into a script. What is decoded there is the
instruction, and its operand has all the fields where they were packed. -/
theorem packed_fields_read_back (decoder : Decoder) (opcode : Opcode) (fields : List Field)
    (admissible : (packed decoder.table opcode fields).Admissible decoder.table
      decoder.limits.operandLength.toNat) (front back : Bytes) :
    ∃ decoded, decoder.decode (front ++ (packed decoder.table opcode fields).wire ++ back)
        front.length = .ok decoded ∧
      decoded = packed decoder.table opcode fields ∧ ReadsBack fields decoded.operand := by
  refine ⟨packed decoder.table opcode fields, ?_, rfl, readsBack_pack fields⟩
  rw [List.append_assoc, Decoder.decode, List.drop_left]
  exact Decoder.takeInstruction_wire_append admissible front.length back

/-- Two jump distances in eight bytes, the second one as far back as can be, behind another
instruction and before a third. -/
theorem packed_fields_read_back_two_distances :
    let decoder : Decoder := ⟨.ofFunction fun _ => .fixed 8, .standard⟩
    let fields : List Field := [⟨.i32, -7, by decide⟩, ⟨.i32, -2147483648, by decide⟩]
    (packed decoder.table ⟨0x3c⟩ fields).Admissible decoder.table
      decoder.limits.operandLength.toNat ∧
    ∃ decoded, decoder.decode [0x21, 0x3c, 0xf9, 0xff, 0xff, 0xff, 0, 0, 0, 0x80, 0x40] 1 =
        .ok decoded ∧
      Token.read ⟨.i32, 0⟩ decoded.operand = .ok (-7) ∧
      Token.read ⟨.i32, 4⟩ decoded.operand = .ok (-2147483648) ∧
      read .i8 decoded.operand 8 = .error (.outOfBounds 8 1 0) := by
  intro decoder fields
  have entry : decoder.table.lookup ⟨0x3c⟩ = .fixed 8 := by simp [decoder]
  have admissible : (packed decoder.table ⟨0x3c⟩ fields).Admissible decoder.table
      decoder.limits.operandLength.toNat := by
    refine ⟨rfl, ?_, by decide⟩
    rw [packed, entry]
    decide
  obtain ⟨decoded, found, rfl, reads⟩ :=
    packed_fields_read_back decoder ⟨0x3c⟩ fields admissible [0x21] [0x40]
  have written : (packed decoder.table ⟨0x3c⟩ fields).wire =
      [0x3c, 0xf9, 0xff, 0xff, 0xff, 0, 0, 0, 0x80] := by
    rw [packed, entry]
    decide
  rw [written] at found
  exact ⟨admissible, _, found, reads.field [] _ _ rfl, reads.field [_] _ _ rfl, reads.ended .i8⟩

end Bytecode.Operand
