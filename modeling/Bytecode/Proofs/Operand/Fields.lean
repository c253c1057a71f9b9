import Bytecode.Proofs.Word
import Mathlib.Data.Int.ModEq

/-! # Typed fields

A field of a type is the two's complement form of one value of the type, and every byte string
of the right length is that of one (`FieldKind.ofUnsigned_littleEndian_eq_iff`). So reading
succeeds exactly where the field lies inside the operand, and gives the value that is written
there (`Operand.read_eq_ok_iff`). Types of one width differ by multiples of their range only,
and a wide field consists of an unsigned lower part and an upper part of the same sign
(`Operand.read_join`).
-/

namespace Bytecode

namespace FieldKind

/-- The least value of the type. -/
def least (kind : FieldKind) : Int := if kind.signed then -(kind.range / 2 : Nat) else 0

/-- **The values of the type.** From the least one on there are as many as its range. -/
def Holds (kind : FieldKind) (value : Int) : Prop :=
  kind.least ≤ value ∧ value < kind.least + kind.range

instance (kind : FieldKind) : DecidablePred kind.Holds :=
  fun value => inferInstanceAs (Decidable (kind.least ≤ value ∧ value < kind.least + kind.range))

example : (∀ value, FieldKind.Holds .i8 value ↔ -128 ≤ value ∧ value < 128) ∧
    ∀ value, FieldKind.Holds .u16 value ↔ 0 ≤ value ∧ value < 65536 :=
  ⟨fun _ => Iff.rfl, fun _ => Iff.rfl⟩

variable {kind : FieldKind}

theorem range_pos (kind : FieldKind) : 0 < kind.range := Nat.pow_pos (by decide)

/-- Half of the values of a type with a sign are negative. -/
theorem two_dvd_range (kind : FieldKind) : 2 ∣ kind.range := by cases kind <;> decide

theorem range_eq_two_pow (kind : FieldKind) : (kind.range : Int) = 2 ^ (8 * kind.width) := by
  cases kind <;> rfl

theorem holds_ofUnsigned {number : Nat} (small : number < kind.range) :
    kind.Holds (kind.ofUnsigned number) := by
  unfold Holds least ofUnsigned
  split
  · have lower := Int.le_bmod (x := number) kind.range_pos
    have upper := Int.bmod_lt (x := number) kind.range_pos
    have even := kind.two_dvd_range
    omega
  · omega

theorem ofUnsigned_modEq (kind : FieldKind) (number : Nat) :
    kind.ofUnsigned number ≡ number [ZMOD kind.range] := by
  unfold ofUnsigned
  split
  · exact Int.bmod_emod
  · rfl

/-- Different values of a type differ modulo its range. -/
theorem Holds.eq_of_modEq {first second : Int} (firstHolds : kind.Holds first)
    (secondHolds : kind.Holds second) (congruent : first ≡ second [ZMOD kind.range]) :
    first = second := by
  have apart : (second - first).natAbs < kind.range := by
    obtain ⟨firstLower, firstUpper⟩ := firstHolds
    obtain ⟨secondLower, secondUpper⟩ := secondHolds
    omega
  have same := Int.eq_zero_of_dvd_of_natAbs_lt_natAbs congruent.dvd apart
  omega

theorem length_write (kind : FieldKind) (value : Int) : (kind.write value).length = kind.width :=
  Bytes.length_ofNat _ _

theorem littleEndian_write_modEq (kind : FieldKind) (value : Int) :
    (Bytes.littleEndian (kind.write value) : Int) ≡ value [ZMOD kind.range] := by
  have positive : (kind.range : Int) ≠ 0 := Int.natCast_ne_zero.mpr kind.range_pos.ne'
  have written : Bytes.littleEndian (kind.write value) =
      (value % kind.range).toNat % kind.range := Bytes.littleEndian_ofNat _ _
  rw [written, Int.natCast_mod, Int.toNat_of_nonneg (Int.emod_nonneg value positive)]
  exact (Int.mod_modEq _ _).trans (Int.mod_modEq _ _)

/-- Bytes of the width of a type are the written form of one value, the one that is read. -/
theorem ofUnsigned_littleEndian_eq_iff {bytes : Bytes} (stored : bytes.length = kind.width)
    {value : Int} : kind.ofUnsigned (Bytes.littleEndian bytes) = value ↔
      kind.Holds value ∧ kind.write value = bytes := by
  have small : Bytes.littleEndian bytes < kind.range := by
    have bounded := Bytes.littleEndian_lt bytes
    rwa [stored] at bounded
  constructor
  · rintro rfl
    refine ⟨holds_ofUnsigned small, ?_⟩
    have congruent : kind.ofUnsigned (Bytes.littleEndian bytes) % kind.range =
        (Bytes.littleEndian bytes : Int) := by
      rw [(kind.ofUnsigned_modEq _).eq]
      exact Int.emod_eq_of_lt (Int.natCast_nonneg _) (Int.ofNat_lt.mpr small)
    rw [write, congruent, Int.toNat_natCast, ← stored, Bytes.ofNat_littleEndian]
  · rintro ⟨holds, rfl⟩
    exact (holds_ofUnsigned small).eq_of_modEq holds
      ((kind.ofUnsigned_modEq _).trans (kind.littleEndian_write_modEq value))

/-! ## Parts of a field -/

/-- A type whose fields consist of a lower and an upper part. -/
structure Joins (low high wide : FieldKind) : Prop where
  unsigned : low.signed = false
  signed_eq : wide.signed = high.signed
  width_eq : wide.width = low.width + high.width

variable {low high wide : FieldKind}

theorem Joins.range_eq (joins : Joins low high wide) : wide.range = low.range * high.range := by
  have split : 256 ^ wide.width = 256 ^ low.width * 256 ^ high.width := by
    rw [joins.width_eq, Nat.pow_add]
  exact split

theorem Joins.least_eq (joins : Joins low high wide) :
    wide.least = low.range * high.least := by
  unfold least
  rw [joins.signed_eq, joins.range_eq]
  split
  · rw [Nat.mul_div_assoc _ high.two_dvd_range, Int.natCast_mul, Int.mul_neg]
  · rw [Int.mul_zero]

theorem Joins.holds (joins : Joins low high wide) {lower upper : Int} (lowerHolds : low.Holds lower)
    (upperHolds : high.Holds upper) : wide.Holds (lower + low.range * upper) := by
  have zero : low.least = 0 := if_neg (by rw [joins.unsigned]; exact Bool.false_ne_true)
  obtain ⟨lowerLeast, lowerLess⟩ := lowerHolds
  obtain ⟨upperLeast, upperLess⟩ := upperHolds
  rw [zero] at lowerLeast lowerLess
  have positive : (0 : Int) ≤ low.range := Int.natCast_nonneg _
  have least := Int.mul_le_mul_of_nonneg_left upperLeast positive
  have greatest := Int.mul_le_mul_of_nonneg_left (Int.le_sub_one_of_lt upperLess) positive
  rw [Int.mul_sub, Int.mul_add, Int.mul_one] at greatest
  rw [Holds, joins.least_eq, joins.range_eq, Int.natCast_mul]
  omega

/-- The value of a wide field, from the numbers in its two parts. -/
theorem Joins.ofUnsigned_eq (joins : Joins low high wide) {lower upper : Nat}
    (lowerSmall : lower < low.range) (upperSmall : upper < high.range) :
    wide.ofUnsigned (lower + low.range * upper) =
      low.ofUnsigned lower + low.range * high.ofUnsigned upper := by
  have small : lower + low.range * upper < wide.range := by
    have room := Nat.mul_le_mul_left low.range (Nat.succ_le_of_lt upperSmall)
    rw [Nat.mul_succ] at room
    rw [joins.range_eq]
    omega
  have exact : low.ofUnsigned lower = lower :=
    if_neg (by rw [joins.unsigned]; exact Bool.false_ne_true)
  refine (holds_ofUnsigned small).eq_of_modEq
    (joins.holds (holds_ofUnsigned lowerSmall) (holds_ofUnsigned upperSmall)) ?_
  refine (wide.ofUnsigned_modEq _).trans ?_
  rw [exact, joins.range_eq, Int.natCast_add, Int.natCast_mul, Int.natCast_mul]
  exact ((high.ofUnsigned_modEq upper).symm.mul_left').add_left _

end FieldKind

namespace Operand

variable {kind : FieldKind} {operand : Bytes} {offset : Nat}

theorem length_field (inside : offset + kind.width ≤ operand.length) :
    ((operand.drop offset).take kind.width).length = kind.width := by
  rw [List.length_take, List.length_drop]
  omega

/-- Inside the operand a field is read. -/
theorem read_of_le (inside : offset + kind.width ≤ operand.length) :
    read kind operand offset =
      .ok (kind.ofUnsigned (Bytes.littleEndian ((operand.drop offset).take kind.width))) := by
  have split := Bytes.split?_eq_some_iff.mpr
    ⟨(List.take_append_drop kind.width (operand.drop offset)).symm, length_field inside⟩
  rw [read, split]

/-- Beyond the operand no field is read. -/
theorem read_of_lt (short : operand.length < offset + kind.width) :
    read kind operand offset =
      .error (.outOfBounds offset kind.width (operand.length - offset)) := by
  have positive := kind.width_pos
  have lacking : (operand.drop offset).length < kind.width := by
    rw [List.length_drop]
    omega
  rw [read, Bytes.split?_eq_none_iff.mpr lacking]

/-- **A field is read as the value that is written there.** -/
theorem read_eq_ok_iff {value : Int} : read kind operand offset = .ok value ↔
    offset + kind.width ≤ operand.length ∧ kind.Holds value ∧
      kind.write value = (operand.drop offset).take kind.width := by
  rcases Nat.lt_or_ge operand.length (offset + kind.width) with short | inside
  · rw [read_of_lt short]
    exact ⟨nofun, fun there => absurd there.1 (Nat.not_le.mpr short)⟩
  · rw [read_of_le inside, Except.ok.injEq,
      FieldKind.ofUnsigned_littleEndian_eq_iff (length_field inside)]
    exact (and_iff_right inside).symm

theorem exists_read_eq_ok_iff :
    (∃ value, read kind operand offset = .ok value) ↔ offset + kind.width ≤ operand.length :=
  ⟨fun ⟨_, found⟩ => (read_eq_ok_iff.mp found).1, fun inside => ⟨_, read_of_le inside⟩⟩

/-- The value of a field is the number that its bytes hold, modulo the range. -/
theorem modEq_of_read {value : Int} (found : read kind operand offset = .ok value) :
    value ≡ Bytes.littleEndian ((operand.drop offset).take kind.width)
      [ZMOD 2 ^ (8 * kind.width)] := by
  obtain ⟨-, -, written⟩ := read_eq_ok_iff.mp found
  rw [← written, ← kind.range_eq_two_pow]
  exact (kind.littleEndian_write_modEq value).symm

/-- **A wide field consists of its parts.** It is read exactly where both of them are. -/
theorem read_join {low high wide : FieldKind} (joins : FieldKind.Joins low high wide)
    {value : Int} : read wide operand offset = .ok value ↔
      ∃ lower upper, read low operand offset = .ok lower ∧
        read high operand (offset + low.width) = .ok upper ∧
          value = lower + low.range * upper := by
  have widths := joins.width_eq
  rcases Nat.lt_or_ge operand.length (offset + wide.width) with short | inside
  · have upperShort : operand.length < offset + low.width + high.width := by omega
    rw [read_of_lt short, read_of_lt upperShort]
    exact ⟨nofun, fun ⟨_, _, _, missing, _⟩ => nomatch missing⟩
  · have lowerInside : offset + low.width ≤ operand.length := by omega
    have upperInside : offset + low.width + high.width ≤ operand.length := by omega
    have lowerLength := length_field lowerInside
    have upperLength := length_field upperInside
    have lowerSmall := Bytes.littleEndian_lt ((operand.drop offset).take low.width)
    have upperSmall := Bytes.littleEndian_lt ((operand.drop (offset + low.width)).take high.width)
    rw [lowerLength] at lowerSmall
    rw [upperLength] at upperSmall
    have parts : (operand.drop offset).take wide.width = (operand.drop offset).take low.width ++
        (operand.drop (offset + low.width)).take high.width := by
      rw [widths, List.take_add, List.drop_drop]
    have number := Bytes.littleEndian_append ((operand.drop offset).take low.width)
      ((operand.drop (offset + low.width)).take high.width)
    rw [← parts, lowerLength] at number
    have joined := joins.ofUnsigned_eq lowerSmall upperSmall
    rw [read_of_le inside, read_of_le lowerInside, read_of_le upperInside, number]
    simp only [Except.ok.injEq]
    constructor
    · rintro rfl
      exact ⟨_, _, rfl, rfl, joined⟩
    · rintro ⟨_, _, rfl, rfl, rfl⟩
      exact joined

/-- **What reading a field comes to.** Inside the operand it is the value of the type that is
written there, in two's complement and least significant byte first; elsewhere it is a fault
that counts the bytes left from the offset on. -/
structure ReadsAs (kind : FieldKind) (operand : Bytes) (offset : Nat)
    (outcome : Except Fault Int) : Prop where
  ok_iff : ∀ value, outcome = .ok value ↔
    offset + kind.width ≤ operand.length ∧ kind.Holds value ∧
      kind.write value = (operand.drop offset).take kind.width
  refused : operand.length < offset + kind.width →
    outcome = .error (.outOfBounds offset kind.width (operand.length - offset))

theorem readsAs_read (kind : FieldKind) (operand : Bytes) (offset : Nat) :
    ReadsAs kind operand offset (read kind operand offset) :=
  ⟨fun _ => read_eq_ok_iff, read_of_lt⟩

/-- **Fields are read exactly, and alike.** Every offset gives what is written there or a
fault, also on a machine that computes with words. Inside the operand one value of the type is
written. Types of one width are read at the same offsets, with values that are congruent. A
field of four bytes is read where its two halves are, and so is one of eight; its value is made
up of theirs. -/
theorem reads_exactly (operand : Bytes) :
    (∀ kind offset, ReadsAs kind operand offset (read kind operand offset)) ∧
    (operand.length < 2 ^ 64 → ∀ kind (offset : Word),
      ReadsAs kind operand offset.toNat
        ((Word.read kind operand offset).mapError Word.Fault.exact)) ∧
    (∀ (kind : FieldKind) (offset : Nat), offset + kind.width ≤ operand.length →
      ∃! value, kind.Holds value ∧ kind.write value = (operand.drop offset).take kind.width) ∧
    (∀ (kind other : FieldKind) (offset : Nat), kind.width = other.width →
      ((∃ value, read kind operand offset = .ok value) ↔
        ∃ value, read other operand offset = .ok value) ∧
      ∀ first second, read kind operand offset = .ok first →
        read other operand offset = .ok second → first ≡ second [ZMOD 2 ^ (8 * kind.width)]) ∧
    (∀ offset value, read .u32 operand offset = .ok value ↔
      ∃ lower upper, read .u16 operand offset = .ok lower ∧
        read .u16 operand (offset + 2) = .ok upper ∧ value = lower + 2 ^ 16 * upper) ∧
    ∀ offset value, read .i64 operand offset = .ok value ↔
      ∃ lower upper, read .u32 operand offset = .ok lower ∧
        read .i32 operand (offset + 4) = .ok upper ∧ value = lower + 2 ^ 32 * upper := by
  refine ⟨fun kind offset => readsAs_read kind operand offset, ?_, ?_, ?_, ?_, ?_⟩
  · intro small kind offset
    rw [Word.mapError_read kind small offset]
    exact readsAs_read kind operand offset.toNat
  · intro kind offset inside
    have found := read_eq_ok_iff.mp (read_of_le inside)
    refine ⟨_, found.2, ?_⟩
    intro other stated
    have again := read_eq_ok_iff.mpr ⟨inside, stated⟩
    rw [read_of_le inside] at again
    exact (Except.ok.inj again).symm
  · intro kind other offset widths
    refine ⟨by rw [exists_read_eq_ok_iff, exists_read_eq_ok_iff, widths], ?_⟩
    intro first second firstFound secondFound
    have secondNumber := modEq_of_read secondFound
    rw [← widths] at secondNumber
    exact (modEq_of_read firstFound).trans secondNumber.symm
  · intro offset value
    have joins : FieldKind.Joins .u16 .u16 .u32 := ⟨rfl, rfl, rfl⟩
    exact read_join joins
  · intro offset value
    have joins : FieldKind.Joins .u32 .i32 .i64 := ⟨rfl, rfl, rfl⟩
    exact read_join joins

/-- A field that ends with the operand, and one at the last word of all. -/
example : read .i16 [0x01, 0x00, 0x80] 1 = .ok (-32768) ∧
    (Word.read .i16 [0x01, 0x00, 0x80] 0xFFFFFFFFFFFFFFFF).mapError Word.Fault.exact =
      .error (.outOfBounds 18446744073709551615 2 0) := by
  decide

end Operand

end Bytecode
