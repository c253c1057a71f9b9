import Bytecode.Limits
import Bytecode.Proofs.Numeral
import Mathlib.Data.List.DropRight

/-! # Settings of the limit

A setting asks for a limit if it is a numeral of 32 bits between blanks. Any other setting
leaves the standard limit in force and is reported, with the reason why it is no such numeral
(`Limits.ofSetting_takes`).
-/

namespace Bytecode

namespace Text

/-- A text and what is left of it without the blanks at its two ends. -/
inductive Trimmed : List Char → List Char → Prop
  | intro {front inner back : List Char} (before : ∀ char ∈ front, char ∈ blanks)
      (behind : ∀ char ∈ back, char ∈ blanks) (first : ∀ char ∈ inner.head?, char ∉ blanks)
      (last : ∀ char ∈ inner.getLast?, char ∉ blanks) :
      Trimmed (front ++ inner ++ back) inner

theorem dropWhile_blanks {front kept : List Char} (before : ∀ char ∈ front, char ∈ blanks)
    (first : ∀ char ∈ kept.head?, char ∉ blanks) : (front ++ kept).dropWhile isBlank = kept := by
  rw [List.dropWhile_append_of_pos fun char member => (isBlank_iff char).mpr (before char member)]
  cases kept with
  | nil => rfl
  | cons char rest =>
      exact List.dropWhile_cons_of_neg fun blank => first char rfl ((isBlank_iff char).mp blank)

theorem trim_blanks {text : List Char} (blank : ∀ char ∈ text, char ∈ blanks) : trim text = [] := by
  have dropped : (text ++ []).dropWhile isBlank = [] := dropWhile_blanks blank nofun
  rw [List.append_nil] at dropped
  rw [trim, dropped]
  rfl

theorem Trimmed.trim_eq {text inner : List Char} (trimmed : Trimmed text inner) :
    trim text = inner := by
  obtain @⟨front, inner, back, before, behind, first, last⟩ := trimmed
  cases inner with
  | nil =>
      refine trim_blanks fun char member => ?_
      rw [List.append_nil] at member
      exact (List.mem_append.mp member).elim (before char) (behind char)
  | cons char rest =>
      have left : (front ++ (char :: rest ++ back)).dropWhile isBlank = char :: rest ++ back :=
        dropWhile_blanks before first
      have right : (back.reverse ++ (char :: rest).reverse).dropWhile isBlank =
          (char :: rest).reverse := by
        refine dropWhile_blanks (fun char member => behind char (List.mem_reverse.mp member)) ?_
        rwa [List.head?_reverse]
      rw [trim, List.append_assoc, left, List.reverse_append, right, List.reverse_reverse]

theorem head?_dropWhile_blanks (text : List Char) :
    ∀ char ∈ (text.dropWhile isBlank).head?, char ∉ blanks := by
  intro char found blank
  have stop := List.head?_dropWhile_not isBlank text
  rw [found] at stop
  exact Bool.false_ne_true (stop.symm.trans ((isBlank_iff char).mpr blank))

/-- Every text has an inner text. -/
theorem trimmed_trim (text : List Char) : Trimmed text (trim text) := by
  let rest := text.dropWhile isBlank
  have cut : trim text ++ rest.rtakeWhile isBlank = rest := List.rdropWhile_append_rtakeWhile
  have split : text.takeWhile isBlank ++ trim text ++ rest.rtakeWhile isBlank = text := by
    rw [List.append_assoc, cut, List.takeWhile_append_dropWhile]
  have trimmed : Trimmed (text.takeWhile isBlank ++ trim text ++ rest.rtakeWhile isBlank)
      (trim text) := by
    refine .intro (fun char member => ?_) (fun char member => ?_) (fun char found => ?_)
      fun char found => ?_
    · exact (isBlank_iff char).mp (List.mem_takeWhile_imp member)
    · exact (isBlank_iff char).mp (List.mem_rtakeWhile_imp member)
    · refine head?_dropWhile_blanks text char ?_
      change rest.head? = some char
      rw [← cut, List.head?_append, found, Option.some_or]
    · refine head?_dropWhile_blanks rest.reverse char ?_
      rwa [trim, List.getLast?_reverse] at found
  rwa [split] at trimmed

/-- A text has one inner text. -/
theorem trimmed_iff {text inner : List Char} : Trimmed text inner ↔ inner = trim text := by
  constructor
  · intro trimmed
    exact trimmed.trim_eq.symm
  · rintro rfl
    exact trimmed_trim text

theorem not_blank_of_denotes {text : List Char} {number : Nat}
    (denotes : Numeral.Denotes text number) : ∀ char ∈ text, char ∉ blanks := by
  have apart : (blanks.any fun char => char = '+' || char.isDigit) = false := rfl
  intro char member blank
  refine List.any_eq_false.mp apart char blank ?_
  rw [Bool.or_eq_true, decide_eq_true_eq]
  exact denotes.plus_or_digit char member

/-- A numeral is the inner text of what has it between blanks. -/
theorem trimmed_numeral {front back text : List Char} {number : Nat}
    (before : ∀ char ∈ front, char ∈ blanks) (behind : ∀ char ∈ back, char ∈ blanks)
    (denotes : Numeral.Denotes text number) : Trimmed (front ++ text ++ back) text := by
  have visible : ∀ char ∈ text, char ∉ blanks := not_blank_of_denotes denotes
  exact .intro before behind (fun char found => visible char (List.mem_of_head? found))
    fun char found => visible char (List.mem_of_getLast? found)

end Text

namespace Limits

theorem ofSetting_eq_silent_iff {setting : String} {limit : UInt32} :
    ofSetting (some setting) = .silent ⟨limit⟩ ↔
      Numeral.Denotes (Text.trim setting.toList) limit.toNat := by
  rw [← Numeral.read_eq_ok_iff, ofSetting]
  cases Numeral.read (Text.trim setting.toList) with
  | ok other => simp [Logged.silent]
  | error reason => simp [Logged.silent]

theorem ofSetting_eq_of_not_denotes {setting : String}
    (senseless : ∀ limit : UInt32, ¬ Numeral.Denotes (Text.trim setting.toList) limit.toNat) :
    ∃ reason, Numeral.Refused (Text.trim setting.toList) reason ∧
      ofSetting (some setting) = ⟨standard, [.limitIgnored setting reason]⟩ := by
  cases found : Numeral.read (Text.trim setting.toList) with
  | ok limit => exact absurd (Numeral.read_eq_ok_iff.mp found) (senseless limit)
  | error reason =>
      refine ⟨reason, Numeral.read_eq_error_iff.mp found, ?_⟩
      rw [ofSetting, found]

/-- **How a setting is read.** Its text without the blanks around it decides: a limit is taken
from it exactly if the text is a numeral that denotes it. Any other text leaves the standard
limit and one warning, which has the whole setting and one of three messages. A number is too
large if the digits in front make it so, whatever stands behind them. -/
structure ReadThrough (setting : String) (text : List Char) : Prop where
  trimmed : ∀ inner, Text.Trimmed setting.toList inner ↔ inner = text
  accepted : ∀ limit : UInt32,
    ofSetting (some setting) = .silent ⟨limit⟩ ↔ Numeral.Denotes text limit.toNat
  ignored : (∀ limit : UInt32, ¬ Numeral.Denotes text limit.toNat) → ∃ event message,
    ofSetting (some setting) = ⟨standard, [event]⟩ ∧ event.level = .warn ∧
    event.details = [("var", .text "OPSTREAM_MAX_OPERAND_LEN"), ("value", .text setting),
      ("error", .text message)] ∧
    (message = "cannot parse integer from empty string" ↔ text = []) ∧
    (message = "number too large to fit in target type" ↔
      Nat.pow 2 32 ≤ Numeral.leading text) ∧
    (message = "invalid digit found in string" ↔
      text ≠ [] ∧ Numeral.leading text < Nat.pow 2 32)

theorem readThrough_trim (setting : String) :
    ReadThrough setting (Text.trim setting.toList) where
  trimmed _ := Text.trimmed_iff
  accepted _ := ofSetting_eq_silent_iff
  ignored senseless := by
    obtain ⟨reason, refused, ignored⟩ := ofSetting_eq_of_not_denotes senseless
    have named (other : Numeral.Error) : reason.message = other.message ↔
        Numeral.Refused (Text.trim setting.toList) other :=
      Numeral.Error.message_injective.eq_iff.trans refused.eq_iff
    refine ⟨.limitIgnored setting reason, reason.message, ignored, rfl, rfl, ?_, ?_, ?_⟩
    · exact (named .empty).trans Numeral.refused_empty_iff
    · exact (named .tooLarge).trans Numeral.refused_tooLarge_iff
    · exact (named .invalidDigit).trans (Numeral.refused_invalidDigit_iff senseless)

theorem ofSetting_numeral {front back text : List Char} {limit : UInt32}
    (before : ∀ char ∈ front, char ∈ Text.blanks) (behind : ∀ char ∈ back, char ∈ Text.blanks)
    (denotes : Numeral.Denotes text limit.toNat) :
    ofSetting (some (String.ofList (front ++ text ++ back))) = .silent ⟨limit⟩ := by
  rw [ofSetting_eq_silent_iff, String.toList_ofList,
    (Text.trimmed_numeral before behind denotes).trim_eq]
  exact denotes

/-- **Settings are read by their grammar.** Every setting has one inner text, through which it
is read. So a limit that is written in decimal digits is read back, with any blanks around it
and with any zeros and a plus sign in front. -/
theorem settings_read_by_grammar :
    (∀ setting : String, ∃ text, ReadThrough setting text) ∧
    ∀ (limit : UInt32) (zeros : Nat) (sign front back : List Char), sign ∈ [[], ['+']] →
      (∀ char ∈ front, char ∈ Text.blanks) → (∀ char ∈ back, char ∈ Text.blanks) →
      ofSetting (some (String.ofList (front ++
        (sign ++ (List.replicate zeros '0' ++ Nat.toDigits 10 limit.toNat)) ++ back))) =
          .silent ⟨limit⟩ := by
  constructor
  · intro setting
    exact ⟨_, readThrough_trim setting⟩
  · intro limit zeros sign front back signed before behind
    exact ofSetting_numeral before behind (Numeral.denotes_toDigits signed zeros limit.toNat)

/-- Too many digits count before the letter behind them does. -/
example : ofSetting (some " +4294967296x ") =
    ⟨standard, [.limitIgnored " +4294967296x " .tooLarge]⟩ := by
  rfl

end Limits

end Bytecode
