import Bytecode.Proofs.Json.Spelling

/-! # Whole numbers of any size

A whole number is written in decimal digits, behind a minus sign if it is negative. The
numeral that a reader makes of them (`Numeral.exists_spells_decimal`) keeps the number if 64
bits hold it; for any other the reader never comes to a whole number, so that no number is
taken for another.
-/

namespace Bytecode.Json

/-- A whole number in decimal, without leading zeros and without a sign for zero. -/
def decimal : Int → List Char
  | .ofNat magnitude => Nat.toDigits 10 magnitude
  | .negSucc lower => '-' :: Nat.toDigits 10 (lower + 1)

namespace Numeral

/-- **What a reader knows of the digits so far.** They are kept as a number as long as that
fits 64 bits. -/
structure Holds (numeral : Numeral) (negative : Bool) (magnitude : Nat) : Prop where
  phase_eq : numeral.phase = if magnitude = 0 then .zero else .whole
  negative_eq : numeral.negative = negative
  full_eq : numeral.full = decide (Nat.pow 2 64 ≤ magnitude)
  significand_eq : magnitude < Nat.pow 2 64 → numeral.significand = magnitude

theorem holds_ofNat {value : Nat} (fits : value < Nat.pow 2 64) :
    (ofNat value).Holds false value :=
  ⟨rfl, rfl, (decide_eq_false (Nat.not_le.mpr fits)).symm, fun _ => rfl⟩

/-- A digit that makes a number too large for 64 bits, or follows one that did, is only
counted. -/
theorem Holds.addWhole_of_exceeds {numeral : Numeral} {negative : Bool} {magnitude digit : Nat}
    (holds : numeral.Holds negative magnitude) (exceeds : Nat.pow 2 64 ≤ magnitude * 10 + digit) :
    numeral.addWhole digit =
      { numeral with phase := .whole, full := true, scale := numeral.scale + 1 } := by
  by_cases fits : magnitude < Nat.pow 2 64
  · simp [addWhole, holds.significand_eq fits, Nat.not_lt.mpr exceeds]
  · have full : numeral.full = true := by rw [holds.full_eq, decide_eq_true (Nat.not_lt.mp fits)]
    simp [addWhole, full]

/-- A further digit, behind one that is no zero. -/
theorem Holds.exists_step {numeral : Numeral} {negative : Bool} {magnitude digit : Nat}
    (holds : numeral.Holds negative magnitude) (positive : magnitude ≠ 0) (small : digit < 10) :
    ∃ longer, numeral.step digit.digitChar = .ok (some longer) ∧
      longer.Holds negative (magnitude * 10 + digit) := by
  have whole : numeral.phase = .whole := by rw [holds.phase_eq, if_neg positive]
  have stepped : numeral.step digit.digitChar = .ok (some (numeral.addWhole digit)) := by
    simp only [step, whole, isDigit_digitChar small, if_true, Text.digitValue_digitChar small]
  refine ⟨_, stepped, ?_⟩
  have nonzero : magnitude * 10 + digit ≠ 0 := by omega
  by_cases exceeds : Nat.pow 2 64 ≤ magnitude * 10 + digit
  · rw [holds.addWhole_of_exceeds exceeds]
    exact ⟨(if_neg nonzero).symm, holds.negative_eq, (decide_eq_true exceeds).symm,
      fun fits => absurd exceeds (Nat.not_le.mpr fits)⟩
  · have fits : magnitude < Nat.pow 2 64 := by omega
    have unfull : numeral.full = false := by
      rw [holds.full_eq, decide_eq_false (Nat.not_le.mpr fits)]
    have added : numeral.addWhole digit =
        { numeral with phase := .whole, significand := magnitude * 10 + digit } := by
      simp [addWhole, unfull, holds.significand_eq fits, Nat.not_le.mp exceeds]
    rw [added]
    exact ⟨(if_neg nonzero).symm, holds.negative_eq,
      unfull.trans (decide_eq_false exceeds).symm, fun _ => rfl⟩

/-- The numeral of a minus sign alone. -/
def minus : Numeral := ⟨.sign, true, 0, 0, false, false, 0⟩

theorem exists_step_minus {digit : Nat} (small : digit < 10) :
    ∃ longer, minus.step digit.digitChar = .ok (some longer) ∧ longer.Holds true digit := by
  by_cases zero : digit = 0
  · subst zero
    exact ⟨_, rfl, rfl, rfl, rfl, fun _ => rfl⟩
  · have nonzero : digit.digitChar ≠ '0' := mt Nat.digitChar_eq_zero.mp zero
    have fits : digit < Nat.pow 2 64 := Nat.lt_of_lt_of_le small (by decide)
    have stepped : minus.step digit.digitChar =
        .ok (some { minus with phase := .whole, significand := digit }) := by
      simp [step, minus, nonzero, isDigit_digitChar small, Text.digitValue_digitChar small,
        addWhole, fits]
    exact ⟨_, stepped, (if_neg zero).symm, rfl, (decide_eq_false (Nat.not_le.mpr fits)).symm,
      fun _ => rfl⟩

/-- The digits of a number, perhaps behind a minus sign, spell what holds it. -/
theorem exists_spells_digits (negative : Bool) (magnitude : Nat) :
    ∃ numeral, Spells ((if negative then ['-'] else []) ++ Nat.toDigits 10 magnitude) numeral ∧
      numeral.Holds negative magnitude := by
  -- All digits but the last are those of the tenth part.
  induction magnitude using Nat.strongRecOn with
  | ind magnitude ih =>
      rcases Nat.lt_or_ge magnitude 10 with small | large
      · rw [Nat.toDigits_of_lt_base small]
        cases negative with
        | false =>
            have fits : magnitude < Nat.pow 2 64 := Nat.lt_of_lt_of_le small (by decide)
            exact ⟨_, .start (start?_digitChar small), holds_ofNat fits⟩
        | true =>
            have begun : Spells ['-'] minus := .start rfl
            obtain ⟨longer, stepped, holds⟩ := exists_step_minus small
            exact ⟨longer, begun.step stepped, holds⟩
      · obtain ⟨numeral, spells, holds⟩ := ih (magnitude / 10) (by omega)
        have last : magnitude % 10 < 10 := Nat.mod_lt _ (by decide)
        obtain ⟨longer, stepped, longerHolds⟩ := holds.exists_step (by omega) last
        have split : magnitude / 10 * 10 + magnitude % 10 = magnitude := by omega
        rw [split] at longerHolds
        rw [Nat.toDigits_of_base_le (by decide) large, ← List.append_assoc]
        exact ⟨longer, spells.step stepped, longerHolds⟩

/-- **The numeral of a whole number.** It may end where it is. If the number is a natural one
of 64 bits it is its value, and no other whole number is. -/
structure Reads (numeral : Numeral) (value : Int) : Prop where
  complete : numeral.complete = true
  value_eq : 0 ≤ value → value < Nat.pow 2 64 → numeral.value = .ok (.whole value)
  eq_of_value : ∀ other, numeral.value = .ok (.whole other) → other = value

theorem value_eq_whole_iff {numeral : Numeral} {value : Int} :
    numeral.value = .ok (.whole value) ↔ numeral.whole? = some value := by
  unfold Numeral.value
  cases numeral.whole? with
  | some found => simp
  | none =>
      cases Binary64.ofDecimal? numeral.significand numeral.power <;> simp

theorem Holds.phase_cases {numeral : Numeral} {negative : Bool} {magnitude : Nat}
    (holds : numeral.Holds negative magnitude) :
    numeral.phase = .zero ∨ numeral.phase = .whole := by
  rw [holds.phase_eq]
  by_cases zero : magnitude = 0
  · exact .inl (if_pos zero)
  · exact .inr (if_neg zero)

theorem Holds.complete {numeral : Numeral} {negative : Bool} {magnitude : Nat}
    (holds : numeral.Holds negative magnitude) : numeral.complete = true := by
  rcases holds.phase_cases with zero | whole
  · rw [Numeral.complete, zero]
  · rw [Numeral.complete, whole]

/-- Sixty-four bits hold the natural numbers below `2 ^ 64` and, with a sign, the negative
ones from `-2 ^ 63` on. -/
theorem Holds.whole?_eq {numeral : Numeral} {negative : Bool} {magnitude : Nat}
    (holds : numeral.Holds negative magnitude) :
    numeral.whole? =
      if Nat.pow 2 64 ≤ magnitude then none
      else if negative then
        if 0 < magnitude ∧ magnitude ≤ Nat.pow 2 63 then some (-magnitude : Int) else none
      else some (magnitude : Int) := by
  have opened : numeral.whole? =
      if numeral.full then none
      else if !numeral.negative then some (numeral.significand : Int)
      else if 0 < numeral.significand && numeral.significand ≤ Nat.pow 2 63 then
        some (-numeral.significand)
      else none := by
    unfold whole?
    rcases holds.phase_cases with zero | whole
    · rw [zero]
    · rw [whole]
  rw [opened, holds.full_eq, holds.negative_eq]
  by_cases exceeds : Nat.pow 2 64 ≤ magnitude
  · simp only [exceeds, decide_true, if_true]
  · rw [holds.significand_eq (Nat.not_le.mp exceeds)]
    cases negative <;> simp [exceeds]

theorem Holds.reads_ofNat {numeral : Numeral} {magnitude : Nat}
    (holds : numeral.Holds false magnitude) : numeral.Reads magnitude where
  complete := holds.complete
  value_eq _ fits := by
    have small : magnitude < Nat.pow 2 64 := Int.ofNat_lt.mp fits
    rw [value_eq_whole_iff, holds.whole?_eq, if_neg (Nat.not_le.mpr small)]
    rfl
  eq_of_value other valued := by
    rw [value_eq_whole_iff, holds.whole?_eq] at valued
    split at valued
    · cases valued
    · exact (Option.some.inj valued).symm

theorem Holds.reads_neg {numeral : Numeral} {magnitude : Nat}
    (holds : numeral.Holds true magnitude) (positive : 0 < magnitude) :
    numeral.Reads (-magnitude) where
  complete := holds.complete
  value_eq natural _ := by omega
  eq_of_value other valued := by
    rw [value_eq_whole_iff, holds.whole?_eq] at valued
    split at valued
    · cases valued
    · rw [if_pos rfl] at valued
      split at valued
      · exact (Option.some.inj valued).symm
      · cases valued

/-- **A whole number is spelled by its decimal form.** -/
theorem exists_spells_decimal (value : Int) :
    ∃ numeral, Spells (decimal value) numeral ∧ numeral.Reads value := by
  cases value with
  | ofNat magnitude =>
      obtain ⟨numeral, spells, holds⟩ := exists_spells_digits false magnitude
      exact ⟨numeral, spells, holds.reads_ofNat⟩
  | negSucc lower =>
      obtain ⟨numeral, spells, holds⟩ := exists_spells_digits true (lower + 1)
      exact ⟨numeral, spells, holds.reads_neg (Nat.succ_pos lower)⟩

end Numeral

end Bytecode.Json
