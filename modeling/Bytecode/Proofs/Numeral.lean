import Bytecode.Numeral
import Mathlib.Data.List.TakeWhile

/-! # What numerals denote

A numeral denotes the number that its digits make up, however many there are. The numbers of
32 bits that are denoted are those that are read (`Numeral.read_eq_ok_iff`). A text that is
refused is empty, or its leading digits already make up too large a number, whatever stands
behind them, or else a character is out of place (`Numeral.read_eq_error_iff`).
-/

namespace Bytecode.Numeral

/-- An optional plus sign and at least one digit denote the number that the digits make up. -/
inductive Denotes : List Char → Nat → Prop
  | intro {sign digits : List Char} (signed : sign ∈ [[], ['+']]) (present : digits ≠ [])
      (decimal : ∀ char ∈ digits, char.isDigit = true) :
      Denotes (sign ++ digits) (Nat.ofDigitChars 10 digits 0)

/-- The text behind an optional plus sign. -/
def unsigned : List Char → List Char
  | '+' :: rest => rest
  | text => text

/-- The number that the longest run of digits behind an optional plus sign makes up. -/
def leading (text : List Char) : Nat :=
  Nat.ofDigitChars 10 ((unsigned text).takeWhile Char.isDigit) 0

/-- The texts that are refused, each with the reason. -/
inductive Refused : List Char → Error → Prop
  | empty : Refused [] .empty
  | tooLarge {text : List Char} (large : Nat.pow 2 32 ≤ leading text) : Refused text .tooLarge
  | invalidDigit {text : List Char} (present : text ≠ []) (small : leading text < Nat.pow 2 32)
      (senseless : ∀ limit : UInt32, ¬ Denotes text limit.toNat) : Refused text .invalidDigit

theorem eq_nil_or_plus {sign : List Char} (signed : sign ∈ [[], ['+']]) :
    sign = [] ∨ sign = ['+'] := by
  rwa [List.mem_cons, List.mem_singleton] at signed

theorem exists_sign (text : List Char) :
    ∃ sign, sign ∈ [[], ['+']] ∧ text = sign ++ unsigned text := by
  unfold unsigned
  split
  · exact ⟨['+'], by decide, rfl⟩
  · exact ⟨[], by decide, rfl⟩

/-- Digits have no sign in front. -/
theorem unsigned_digits {digits : List Char} (decimal : ∀ char ∈ digits, char.isDigit = true) :
    unsigned digits = digits := by
  unfold unsigned
  split
  · exact absurd (decimal '+' List.mem_cons_self) (by decide)
  · rfl

theorem unsigned_append {sign digits : List Char} (signed : sign ∈ [[], ['+']])
    (decimal : ∀ char ∈ digits, char.isDigit = true) : unsigned (sign ++ digits) = digits := by
  rcases eq_nil_or_plus signed with rfl | rfl
  · exact unsigned_digits decimal
  · rfl

/-- A text denotes at most one number, which is that of its leading digits: there is nothing
behind them. -/
theorem denotes_iff {text : List Char} {number : Nat} :
    Denotes text number ↔ unsigned text ≠ [] ∧
      (∀ char ∈ unsigned text, char.isDigit = true) ∧ number = leading text := by
  constructor
  · rintro ⟨signed, present, decimal⟩
    rw [leading, unsigned_append signed decimal, List.takeWhile_eq_self_iff.mpr decimal]
    exact ⟨present, decimal, rfl⟩
  · rintro ⟨present, decimal, rfl⟩
    obtain ⟨sign, signed, split⟩ := exists_sign text
    have denotes := Denotes.intro signed present decimal
    rwa [← split, ← List.takeWhile_eq_self_iff.mpr decimal] at denotes

theorem Denotes.plus_or_digit {text : List Char} {number : Nat} (denotes : Denotes text number) :
    ∀ char ∈ text, char = '+' ∨ char.isDigit = true := by
  obtain ⟨signed, -, decimal⟩ := denotes
  intro char member
  rcases List.mem_append.mp member with sign | digit
  · rcases eq_nil_or_plus signed with rfl | rfl
    · exact absurd sign List.not_mem_nil
    · exact .inl (List.mem_singleton.mp sign)
  · exact .inr (decimal char digit)

/-- Decimal digits denote their number, with any zeros in front. -/
theorem denotes_toDigits {sign : List Char} (signed : sign ∈ [[], ['+']]) (zeros number : Nat) :
    Denotes (sign ++ (List.replicate zeros '0' ++ Nat.toDigits 10 number)) number := by
  have decimal : ∀ char ∈ List.replicate zeros '0' ++ Nat.toDigits 10 number,
      char.isDigit = true := by
    intro char member
    rcases List.mem_append.mp member with zero | digit
    · rw [List.eq_of_mem_replicate zero]
      rfl
    · exact Nat.isDigit_of_mem_toDigits (by decide) (by decide) digit
  have value : Nat.ofDigitChars 10 (List.replicate zeros '0' ++ Nat.toDigits 10 number) 0 =
      number := by
    rw [Nat.ofDigitChars_append, Nat.ofDigitChars_replicate_zero, Nat.mul_zero,
      Nat.ofDigitChars_ten_toDigits]
  have denotes := Denotes.intro signed
    (List.append_ne_nil_of_right_ne_nil _ Nat.toDigits_ne_nil) decimal
  rwa [value] at denotes

/-- More digits never make a number smaller. -/
theorem le_ofDigitChars (digits : List Char) (value : Nat) :
    value ≤ Nat.ofDigitChars 10 digits value := by
  rw [Nat.ofDigitChars_eq_ofDigitChars_zero]
  calc
    value ≤ 10 ^ digits.length * value := Nat.le_mul_of_pos_left value (Nat.pow_pos (by decide))
    _ ≤ _ := Nat.le_add_right _ _

/-- What the loop over the digits answers. It stops at the first character that is no digit,
but takes all digits in front of it before, so a number that is too large is found first. -/
theorem readDigits_eq {value : Nat} (small : value < Nat.pow 2 32) (text : List Char) :
    readDigits value text =
      if Nat.pow 2 32 ≤ Nat.ofDigitChars 10 (text.takeWhile Char.isDigit) value then
        .error .tooLarge
      else if text.all Char.isDigit then
        .ok (UInt32.ofNat (Nat.ofDigitChars 10 (text.takeWhile Char.isDigit) value))
      else .error .invalidDigit := by
  induction text generalizing value with
  | nil => exact (if_neg (Nat.not_le.mpr small)).symm
  | cons char rest ih =>
      by_cases digit : char.isDigit = true
      · rw [readDigits, if_pos digit, List.takeWhile_cons_of_pos digit, Nat.ofDigitChars_cons,
          List.all_cons, digit, Bool.true_and]
        by_cases fits : 10 * value + Text.digitValue char < Nat.pow 2 32
        · exact (if_pos fits).trans (ih fits)
        · have large := (Nat.not_lt.mp fits).trans
            (le_ofDigitChars (rest.takeWhile Char.isDigit) (10 * value + Text.digitValue char))
          exact (if_neg fits).trans (if_pos large).symm
      · rw [readDigits, if_neg digit, List.takeWhile_cons_of_neg digit, Nat.ofDigitChars_nil,
          if_neg (Nat.not_le.mpr small), List.all_cons, eq_false_of_ne_true digit,
          Bool.false_and]
        rfl

theorem read_of_unsigned_eq_nil {text : List Char} (present : text ≠ [])
    (bare : unsigned text = []) : read text = .error .invalidDigit := by
  obtain ⟨sign, signed, split⟩ := exists_sign text
  rcases eq_nil_or_plus signed with rfl | rfl
  · exact absurd (split.trans bare) present
  · rw [split, bare]
    rfl

theorem read_of_unsigned_ne_nil {text : List Char} (present : unsigned text ≠ []) :
    read text =
      if Nat.pow 2 32 ≤ leading text then .error .tooLarge
      else if (unsigned text).all Char.isDigit then .ok (UInt32.ofNat (leading text))
      else .error .invalidDigit := by
  have taken : read text = readDigits 0 (unsigned text) := by
    fun_cases read text with
    | case1 | case2 => exact absurd rfl present
    | case3 => rfl
    | case4 _ _ _ unmarked =>
        rw [unsigned]
        exact unmarked
  rw [taken, readDigits_eq (by decide)]
  rfl

/-- The reader keeps to the grammar: it gives the number denoted or a reason that holds. -/
theorem read_sound (text : List Char) :
    match read text with
    | .ok limit => Denotes text limit.toNat
    | .error reason => Refused text reason := by
  by_cases empty : text = []
  · subst empty
    exact .empty
  by_cases bare : unsigned text = []
  · rw [read_of_unsigned_eq_nil empty bare]
    have nothing : leading text = 0 := by rw [leading, bare]; rfl
    refine .invalidDigit empty (nothing ▸ by decide) ?_
    exact fun _ denotes => (denotes_iff.mp denotes).1 bare
  rw [read_of_unsigned_ne_nil bare]
  by_cases large : Nat.pow 2 32 ≤ leading text
  · rw [if_pos large]
    exact .tooLarge large
  rw [if_neg large]
  by_cases decimal : (unsigned text).all Char.isDigit = true
  · rw [if_pos decimal]
    refine denotes_iff.mpr ⟨bare, List.all_eq_true.mp decimal, ?_⟩
    exact UInt32.toNat_ofNat_of_lt' (Nat.not_le.mp large)
  · rw [if_neg decimal]
    refine .invalidDigit empty (Nat.not_le.mp large) fun _ denotes => decimal ?_
    exact List.all_eq_true.mpr (denotes_iff.mp denotes).2.1

/-- A text that is refused denotes nothing of 32 bits. -/
theorem Refused.not_denotes {text : List Char} {reason : Error} (refused : Refused text reason)
    (limit : UInt32) : ¬ Denotes text limit.toNat := by
  intro denotes
  obtain ⟨present, -, value⟩ := denotes_iff.mp denotes
  cases refused with
  | empty => exact present rfl
  | tooLarge large => exact absurd limit.toNat_lt (Nat.not_lt.mpr (value ▸ large))
  | invalidDigit _ _ senseless => exact senseless limit denotes

/-- There is one reason for a refusal. -/
theorem Refused.unique {text : List Char} {first second : Error} (left : Refused text first)
    (right : Refused text second) : first = second := by
  have none : ¬ Nat.pow 2 32 ≤ leading [] := by decide
  cases left with
  | empty =>
      cases right with
      | empty => rfl
      | tooLarge large => exact absurd large none
      | invalidDigit present => exact absurd rfl present
  | tooLarge large =>
      cases right with
      | empty => exact absurd large none
      | tooLarge => rfl
      | invalidDigit _ small => exact absurd large (Nat.not_le.mpr small)
  | invalidDigit present small =>
      cases right with
      | empty => exact absurd rfl present
      | tooLarge large => exact absurd large (Nat.not_le.mpr small)
      | invalidDigit => rfl

theorem Refused.eq_iff {text : List Char} {reason other : Error} (refused : Refused text reason) :
    reason = other ↔ Refused text other := by
  constructor
  · rintro rfl
    exact refused
  · exact refused.unique

theorem refused_empty_iff {text : List Char} : Refused text .empty ↔ text = [] := by
  constructor
  · rintro ⟨⟩
    rfl
  · rintro rfl
    exact .empty

theorem refused_tooLarge_iff {text : List Char} :
    Refused text .tooLarge ↔ Nat.pow 2 32 ≤ leading text := by
  constructor
  · intro refused
    cases refused with
    | tooLarge large => exact large
  · exact .tooLarge

theorem refused_invalidDigit_iff {text : List Char}
    (senseless : ∀ limit : UInt32, ¬ Denotes text limit.toNat) :
    Refused text .invalidDigit ↔ text ≠ [] ∧ leading text < Nat.pow 2 32 := by
  constructor
  · intro refused
    cases refused with
    | invalidDigit present small => exact ⟨present, small⟩
  · rintro ⟨present, small⟩
    exact .invalidDigit present small senseless

theorem Error.message_injective : Function.Injective Error.message := by
  intro first second same
  cases first <;> cases second <;> first | rfl | exact absurd same (by decide)

/-- **What is read is what is denoted**, if it has 32 bits. -/
theorem read_eq_ok_iff {text : List Char} {limit : UInt32} :
    read text = .ok limit ↔ Denotes text limit.toNat := by
  have sound := read_sound text
  cases found : read text with
  | error reason =>
      rw [found] at sound
      exact iff_of_false nofun (sound.not_denotes limit)
  | ok other =>
      rw [found] at sound
      rw [Except.ok.injEq]
      constructor
      · rintro rfl
        exact sound
      · intro denotes
        exact UInt32.toNat_inj.mp
          ((denotes_iff.mp sound).2.2.trans (denotes_iff.mp denotes).2.2.symm)

/-- **What is refused is refused for its reason.** -/
theorem read_eq_error_iff {text : List Char} {reason : Error} :
    read text = .error reason ↔ Refused text reason := by
  have sound := read_sound text
  cases found : read text with
  | error other =>
      rw [found] at sound
      rw [Except.error.injEq]
      constructor
      · rintro rfl
        exact sound
      · exact sound.unique
  | ok limit =>
      rw [found] at sound
      exact iff_of_false nofun fun refused => refused.not_denotes limit sound

end Bytecode.Numeral
