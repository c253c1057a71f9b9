import Bytecode.Json.Number
import Bytecode.Json.StringBody

/-! # How numbers and strings are spelled

The characters of a number take its reading from one numeral to the next
(`Numeral.Spells`). The decimal digits of a number of 64 bits take it to the numeral of that
number (`Numeral.spells_toDigits`). A numeral that may end does so at each character that
cannot go on with it (`Numeral.step_of_complete`).
The plain characters of a string stand for themselves.
-/

namespace Bytecode

theorem Text.digitValue_digitChar {digit : Nat} (small : digit < 10) :
    digitValue digit.digitChar = digit := by
  have every : ∀ digit : Fin 10, digitValue (Nat.digitChar digit) = digit := by decide
  exact every ⟨digit, small⟩

namespace Json

namespace Numeral

/-- The characters that a reader meets up to a numeral, from the first one on. -/
inductive Spells : List Char → Numeral → Prop where
  | start {char : Char} {numeral : Numeral} (started : start? char = some numeral) :
      Spells [char] numeral
  | step {text : List Char} {numeral longer : Numeral} {char : Char}
      (spells : Spells text numeral) (stepped : numeral.step char = .ok (some longer)) :
      Spells (text ++ [char]) longer

/-- The numeral of a number below `2 ^ 64`, as it is read without sign, point and exponent. -/
def ofNat (value : Nat) : Numeral :=
  ⟨if value = 0 then .zero else .whole, false, value, 0, false, false, 0⟩

theorem value_ofNat (value : Nat) : (ofNat value).value = .ok (.whole value) := by
  unfold ofNat
  split <;> rfl

theorem complete_ofNat (value : Nat) : (ofNat value).complete = true := by
  unfold ofNat
  split <;> rfl

theorem isDigit_digitChar {digit : Nat} (small : digit < 10) :
    digit.digitChar.isDigit = true := by
  simpa [Nat.isDigit_digitChar] using small

theorem start?_digitChar {digit : Nat} (small : digit < 10) :
    start? digit.digitChar = some (ofNat digit) := by
  have unsigned : digit.digitChar ≠ '-' := Nat.digitChar_ne '-' rfl
  rw [start?, if_neg unsigned]
  by_cases zero : digit = 0
  · rw [zero]
    rfl
  · have nonzero : digit.digitChar ≠ '0' := mt Nat.digitChar_eq_zero.mp zero
    rw [if_neg nonzero, if_pos (isDigit_digitChar small), Text.digitValue_digitChar small, ofNat,
      if_neg zero]

/-- A further digit, behind one that is no zero. -/
theorem step_digitChar {value digit : Nat} (positive : value ≠ 0) (small : digit < 10)
    (fits : value * 10 + digit < Nat.pow 2 64) :
    (ofNat value).step digit.digitChar = .ok (some (ofNat (value * 10 + digit))) := by
  have longer : value * 10 + digit ≠ 0 := by omega
  simp only [ofNat, if_neg positive, if_neg longer, step, isDigit_digitChar small, if_true,
    addWhole, Text.digitValue_digitChar small, Bool.not_false, Bool.true_and, decide_eq_true_eq,
    fits]

/-- **The digits of a number spell it.** -/
theorem spells_toDigits {value : Nat} (fits : value < Nat.pow 2 64) :
    Spells (Nat.toDigits 10 value) (ofNat value) := by
  -- All digits but the last are those of the tenth part.
  induction value using Nat.strongRecOn with
  | ind value ih =>
      rcases Nat.lt_or_ge value 10 with small | large
      · rw [Nat.toDigits_of_lt_base small]
        exact .start (start?_digitChar small)
      · have front := ih (value / 10) (by omega) (by omega)
        have split : value / 10 * 10 + value % 10 = value := by omega
        rw [Nat.toDigits_of_base_le (by decide) large]
        refine front.step ?_
        rw [step_digitChar (by omega) (by omega) (by omega), split]

/-- Whether a character cannot go on with a number that has neither point nor exponent. -/
def endsWhole (char : Char) : Bool :=
  !char.isDigit && char ≠ '.' && char ≠ 'e' && char ≠ 'E'

theorem endsWhole_of_isBlank {char : Char} (blank : isBlank char = true) :
    endsWhole char = true := by
  simp only [isBlank, Bool.or_eq_true, decide_eq_true_eq] at blank
  rcases blank with ((rfl | rfl) | rfl) | rfl <;> rfl

/-- A number that may end does so at a character that cannot go on with it. -/
theorem step_of_complete {numeral : Numeral} (complete : numeral.complete = true) {char : Char}
    (ends : endsWhole char = true) : numeral.step char = .ok none := by
  simp only [endsWhole, Bool.and_eq_true, Bool.not_eq_true', decide_eq_true_eq, ne_eq] at ends
  obtain ⟨⟨⟨digitless, point⟩, lower⟩, upper⟩ := ends
  unfold step
  cases phase : numeral.phase with
  | sign | point | mark | markSign =>
      rw [Numeral.complete, phase] at complete
      cases complete
  | zero | whole | fraction | exponent => simp [leaveWhole, digitless, point, lower, upper]

theorem isBlank_of_start? {char : Char} {numeral : Numeral}
    (started : start? char = some numeral) : isBlank char = false := by
  rw [Bool.eq_false_iff]
  intro blank
  simp only [isBlank, Bool.or_eq_true, decide_eq_true_eq] at blank
  rcases blank with ((rfl | rfl) | rfl) | rfl <;> cases started

end Numeral

/-- Whether a character of a string stands for itself. -/
def isPlain (char : Char) : Bool := char ≠ '"' && char ≠ '\\' && 0x20 ≤ char.toNat

namespace StringBody

theorem step_plain (pairing : Bool) {char : Char} (plain : isPlain char = true)
    (gathered : List Char) :
    step pairing ⟨.plain, gathered⟩ char = .ok (.more ⟨.plain, char :: gathered⟩) := by
  simp only [isPlain, Bool.and_eq_true, decide_eq_true_eq, ne_eq] at plain
  obtain ⟨⟨quoteless, slashless⟩, printable⟩ := plain
  simp only [step, if_neg quoteless, if_neg slashless, if_neg (Nat.not_lt.mpr printable)]
  rfl

theorem step_quote (pairing : Bool) (gathered : List Char) :
    step pairing ⟨.plain, gathered⟩ '"' = .ok (.last (String.ofList gathered.reverse)) := rfl

end StringBody

end Json

end Bytecode
