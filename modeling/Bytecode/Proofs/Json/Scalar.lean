import Bytecode.Json.Skipped
import Bytecode.Proofs.Json.Whole

/-! # Scalars

The texts of numbers, strings and words by the grammar of JSON (`IsScalar`). A reader that
passes over a value passes over each of them: over a string or a word up to its last
character, over a number up to the first character that cannot go on with it
(`IsScalar.passes`).
-/

namespace Bytecode.Json

/-! ## Grammar -/

/-- At least one decimal digit. -/
def IsDigits (text : List Char) : Prop := text ≠ [] ∧ ∀ char ∈ text, char.isDigit = true

/-- The whole part of a number: a zero alone, or digits without a zero in front. -/
inductive IsWhole : List Char → Prop where
  | zero : IsWhole ['0']
  | digits {first : Char} {rest : List Char} :
      first ≠ '0' → IsDigits (first :: rest) → IsWhole (first :: rest)

inductive IsFraction : List Char → Prop where
  | absent : IsFraction []
  | digits {digits : List Char} : IsDigits digits → IsFraction ('.' :: digits)

inductive IsExponent : List Char → Prop where
  | absent : IsExponent []
  | digits {mark : Char} {sign digits : List Char} :
      mark ∈ ['e', 'E'] → sign ∈ [[], ['+'], ['-']] → IsDigits digits →
      IsExponent (mark :: (sign ++ digits))

inductive IsNumber : List Char → Prop where
  | parts {sign whole fraction exponent : List Char} :
      sign ∈ [[], ['-']] → IsWhole whole → IsFraction fraction → IsExponent exponent →
      IsNumber (sign ++ whole ++ fraction ++ exponent)

/-- A string after its opening quote, up to its closing one. An escape by number may stand for
half of a pair without the other half. -/
inductive IsString : List Char → Prop where
  | closed : IsString ['"']
  | plain {char : Char} {rest : List Char} :
      isPlain char = true → IsString rest → IsString (char :: rest)
  | escape {letter : Char} {rest : List Char} :
      letter ∈ ['"', '\\', '/', 'b', 'f', 'n', 'r', 't'] → IsString rest →
      IsString ('\\' :: letter :: rest)
  | unit {first second third fourth : Char} {rest : List Char} :
      (∀ char ∈ [first, second, third, fourth], (Text.hexDigitValue? char).isSome) →
      IsString rest → IsString ('\\' :: 'u' :: first :: second :: third :: fourth :: rest)

/-- A value that is neither a list nor an object. -/
inductive IsScalar : List Char → Prop where
  | null : IsScalar "null".toList
  | true : IsScalar "true".toList
  | false : IsScalar "false".toList
  | number {text : List Char} : IsNumber text → IsScalar text
  | string {rest : List Char} : IsString rest → IsScalar ('"' :: rest)

/-! ## Numbers -/

namespace Numeral

/-- The part of a number that a digit belongs to, by what stands before the digit. -/
def Phase.afterDigit : Phase → Phase
  | .sign | .zero | .whole => .whole
  | .point | .fraction => .fraction
  | .mark | .markSign | .exponent => .exponent

theorem isDigit_ne {char other : Char} (digit : char.isDigit = true)
    (digitless : other.isDigit = false) : char ≠ other := by
  rintro rfl
  rw [digit] at digitless
  cases digitless

theorem phase_addWhole (numeral : Numeral) (digit : Nat) :
    (numeral.addWhole digit).phase = .whole := by
  simp only [addWhole]
  split <;> rfl

theorem phase_addFraction (numeral : Numeral) (digit : Nat) :
    (numeral.addFraction digit).phase = .fraction := by
  simp only [addFraction]
  split <;> rfl

/-- A digit goes on with every number but one that begins with a zero. -/
theorem exists_step_of_isDigit {numeral : Numeral} {char : Char} (digit : char.isDigit = true)
    (unended : numeral.phase ≠ .zero) (nonzero : numeral.phase = .sign → char ≠ '0') :
    ∃ longer, numeral.step char = .ok (some longer) ∧
      longer.phase = numeral.phase.afterDigit := by
  unfold step
  cases phase : numeral.phase with
  | sign =>
      refine ⟨_, ?_, phase_addWhole numeral (Text.digitValue char)⟩
      simp only [if_neg (nonzero phase), if_pos digit]
  | zero => exact absurd phase unended
  | whole => exact ⟨_, if_pos digit, phase_addWhole numeral (Text.digitValue char)⟩
  | point => exact ⟨_, if_pos digit, phase_addFraction numeral (Text.digitValue char)⟩
  | fraction => exact ⟨_, if_pos digit, phase_addFraction numeral (Text.digitValue char)⟩
  | mark =>
      refine ⟨numeral.addExponent (Text.digitValue char), ?_, rfl⟩
      have unsigned : char ≠ '+' ∧ char ≠ '-' := ⟨isDigit_ne digit rfl, isDigit_ne digit rfl⟩
      simp only [if_neg unsigned.1, if_neg unsigned.2, if_pos digit]
  | markSign => exact ⟨_, if_pos digit, rfl⟩
  | exponent => exact ⟨_, if_pos digit, rfl⟩

/-- Digits go on with every number whose next digit belongs to a part begun before. -/
theorem Spells.exists_digits {text digits : List Char} {numeral : Numeral}
    (spells : Spells text numeral) (all : ∀ char ∈ digits, char.isDigit = true)
    (begun : numeral.phase = numeral.phase.afterDigit) :
    ∃ longer, Spells (text ++ digits) longer ∧ longer.phase = numeral.phase := by
  induction digits generalizing text numeral with
  | nil => exact ⟨numeral, by rwa [List.append_nil], rfl⟩
  | cons char rest ih =>
      obtain ⟨digit, others⟩ := List.forall_mem_cons.mp all
      have unended : numeral.phase ≠ .zero := by
        intro zero
        rw [zero] at begun
        cases begun
      have unsigned : numeral.phase ≠ .sign := by
        intro sign
        rw [sign] at begun
        cases begun
      obtain ⟨next, stepped, phase⟩ := exists_step_of_isDigit digit unended (absurd · unsigned)
      have kept : next.phase = numeral.phase := phase.trans begun.symm
      obtain ⟨longer, spelled, same⟩ := ih (spells.step stepped) others (by rw [kept, ← begun])
      rw [List.append_assoc, List.singleton_append] at spelled
      exact ⟨longer, spelled, same.trans kept⟩

/-- Digits after a part of a number that needs one. -/
theorem Spells.exists_isDigits {text digits : List Char} {numeral : Numeral}
    (spells : Spells text numeral) (form : IsDigits digits)
    (unended : numeral.phase ≠ .zero) (unsigned : numeral.phase ≠ .sign) :
    ∃ longer, Spells (text ++ digits) longer ∧ longer.phase = numeral.phase.afterDigit := by
  obtain ⟨nonempty, all⟩ := form
  cases digits with
  | nil => exact absurd rfl nonempty
  | cons char rest =>
      obtain ⟨digit, others⟩ := List.forall_mem_cons.mp all
      obtain ⟨next, stepped, phase⟩ := exists_step_of_isDigit digit unended (absurd · unsigned)
      have begun : next.phase = next.phase.afterDigit := by
        rw [phase]
        cases numeral.phase <;> rfl
      obtain ⟨longer, spelled, same⟩ := (spells.step stepped).exists_digits others begun
      rw [List.append_assoc, List.singleton_append] at spelled
      exact ⟨longer, spelled, same.trans phase⟩

/-- The first digit of a whole part, with what is in front of it. -/
theorem exists_spells_first {sign : List Char} {first : Char} (signed : sign ∈ [[], ['-']])
    (digit : first.isDigit = true) (nonzero : first ≠ '0') :
    ∃ numeral, Spells (sign ++ [first]) numeral ∧ numeral.phase = .whole := by
  simp only [List.mem_cons, List.not_mem_nil, or_false] at signed
  rcases signed with rfl | rfl
  · have unsigned : first ≠ '-' := isDigit_ne digit rfl
    have started : start? first =
        some ⟨.whole, false, Text.digitValue first, 0, false, false, 0⟩ := by
      rw [start?, if_neg unsigned, if_neg nonzero, if_pos digit]
    exact ⟨_, .start started, rfl⟩
  · have begun : Spells ['-'] minus := .start rfl
    have unended : minus.phase ≠ .zero := by decide
    obtain ⟨numeral, stepped, phase⟩ := exists_step_of_isDigit digit unended fun _ => nonzero
    exact ⟨numeral, begun.step stepped, phase⟩

theorem exists_spells_whole {sign whole : List Char} (signed : sign ∈ [[], ['-']])
    (form : IsWhole whole) :
    ∃ numeral, Spells (sign ++ whole) numeral ∧ numeral.phase ∈ [.zero, .whole] := by
  cases form with
  | zero =>
      simp only [List.mem_cons, List.not_mem_nil, or_false] at signed
      rcases signed with rfl | rfl
      · exact ⟨_, .start rfl, List.mem_cons_self⟩
      · have begun : Spells ['-'] minus := .start rfl
        exact ⟨_, begun.step rfl, List.mem_cons_self⟩
  | @digits first rest nonzero digits =>
      obtain ⟨digit, others⟩ := List.forall_mem_cons.mp digits.2
      obtain ⟨numeral, spells, phase⟩ := exists_spells_first signed digit nonzero
      obtain ⟨longer, spelled, same⟩ := spells.exists_digits others (by rw [phase]; rfl)
      rw [List.append_assoc, List.singleton_append] at spelled
      exact ⟨longer, spelled, by simp [same, phase]⟩

theorem step_point {numeral : Numeral} (phase : numeral.phase = .zero ∨ numeral.phase = .whole) :
    numeral.step '.' = .ok (some { numeral with phase := .point, full := false }) := by
  rcases phase with zero | whole
  · simp [step, zero, leaveWhole]
  · simp [step, whole, leaveWhole]

theorem Spells.exists_fraction {text fraction : List Char} {numeral : Numeral}
    (spells : Spells text numeral) (phase : numeral.phase ∈ [.zero, .whole])
    (form : IsFraction fraction) :
    ∃ longer, Spells (text ++ fraction) longer ∧
      longer.phase ∈ [.zero, .whole, .fraction] := by
  simp only [List.mem_cons, List.not_mem_nil, or_false] at phase
  cases form with
  | absent =>
      rw [List.append_nil]
      rcases phase with zero | whole
      · exact ⟨numeral, spells, by simp [zero]⟩
      · exact ⟨numeral, spells, by simp [whole]⟩
  | @digits digits form =>
      have pointed := step_point phase
      obtain ⟨longer, spelled, same⟩ := (spells.step pointed).exists_isDigits form nofun nofun
      rw [List.append_assoc, List.singleton_append] at spelled
      exact ⟨longer, spelled, by simp [same, Phase.afterDigit]⟩

theorem step_mark {numeral : Numeral} (phase : numeral.phase ∈ [.zero, .whole, .fraction])
    {mark : Char} (marked : mark ∈ ['e', 'E']) :
    numeral.step mark = .ok (some { numeral with phase := .mark }) := by
  simp only [List.mem_cons, List.not_mem_nil, or_false] at phase marked
  have form : mark.isDigit = false ∧ mark ≠ '.' ∧ (mark = 'e' ∨ mark = 'E') := by
    rcases marked with rfl | rfl <;> decide
  obtain ⟨digitless, pointless, either⟩ := form
  rcases phase with zero | whole | fraction
  · simp [step, zero, leaveWhole, digitless, pointless, either]
  · simp [step, whole, leaveWhole, digitless, pointless, either]
  · simp [step, fraction, digitless, either]

/-- The mark of an exponent, with its sign if there is one. -/
theorem Spells.exists_mark {text sign : List Char} {numeral : Numeral} {mark : Char}
    (spells : Spells text numeral) (phase : numeral.phase ∈ [.zero, .whole, .fraction])
    (marked : mark ∈ ['e', 'E']) (signed : sign ∈ [[], ['+'], ['-']]) :
    ∃ longer, Spells (text ++ mark :: sign) longer ∧
      (longer.phase = .mark ∨ longer.phase = .markSign) := by
  have begun := spells.step (step_mark phase marked)
  simp only [List.mem_cons, List.not_mem_nil, or_false] at signed
  rcases signed with rfl | rfl | rfl
  · exact ⟨_, begun, .inl rfl⟩
  · have spelled : Spells (text ++ [mark] ++ ['+']) _ := begun.step rfl
    rw [List.append_assoc] at spelled
    exact ⟨_, spelled, .inr rfl⟩
  · have spelled : Spells (text ++ [mark] ++ ['-']) _ := begun.step rfl
    rw [List.append_assoc] at spelled
    exact ⟨_, spelled, .inr rfl⟩

theorem Spells.exists_exponent {text exponent : List Char} {numeral : Numeral}
    (spells : Spells text numeral) (phase : numeral.phase ∈ [.zero, .whole, .fraction])
    (form : IsExponent exponent) :
    ∃ longer, Spells (text ++ exponent) longer ∧ longer.complete = true := by
  cases form with
  | absent =>
      rw [List.append_nil]
      refine ⟨numeral, spells, ?_⟩
      simp only [List.mem_cons, List.not_mem_nil, or_false] at phase
      rcases phase with zero | whole | fraction
      · rw [Numeral.complete, zero]
      · rw [Numeral.complete, whole]
      · rw [Numeral.complete, fraction]
  | @digits mark sign digits marked signed form =>
      obtain ⟨front, begun, markPhase⟩ := spells.exists_mark phase marked signed
      obtain ⟨unended, unsigned, next⟩ : front.phase ≠ .zero ∧ front.phase ≠ .sign ∧
          front.phase.afterDigit = .exponent := by
        rcases markPhase with mark | sign
        · rw [mark]
          exact ⟨by decide, by decide, rfl⟩
        · rw [sign]
          exact ⟨by decide, by decide, rfl⟩
      obtain ⟨longer, spelled, same⟩ := begun.exists_isDigits form unended unsigned
      rw [List.append_assoc, List.cons_append] at spelled
      refine ⟨longer, spelled, ?_⟩
      rw [Numeral.complete, same, next]

/-- **The text of a number spells a numeral that may end.** -/
theorem exists_spells_of_isNumber {text : List Char} (form : IsNumber text) :
    ∃ numeral, Spells text numeral ∧ numeral.complete = true := by
  obtain ⟨signed, whole, fraction, exponent⟩ := form
  obtain ⟨front, spellsWhole, wholePhase⟩ := exists_spells_whole signed whole
  obtain ⟨middle, spellsFraction, fractionPhase⟩ := spellsWhole.exists_fraction wholePhase fraction
  exact spellsFraction.exists_exponent fractionPhase exponent

end Numeral

/-! ## Escapes -/

namespace StringBody

theorem exists_step_escape (pairing : Bool) {letter : Char}
    (known : letter ∈ ['"', '\\', '/', 'b', 'f', 'n', 'r', 't']) (gathered : List Char) :
    ∃ char, step pairing ⟨.escape, gathered⟩ letter = .ok (.more ⟨.plain, char :: gathered⟩) := by
  simp only [List.mem_cons, List.not_mem_nil, or_false] at known
  rcases known with rfl | rfl | rfl | rfl | rfl | rfl | rfl | rfl
  all_goals exact ⟨_, rfl⟩

theorem utf8Size_of_hexDigit {char : Char} (digit : (Text.hexDigitValue? char).isSome) :
    char.utf8Size = 1 := by
  have small : char.val ≤ 'f'.val := by
    unfold Text.hexDigitValue? at digit
    split at digit
    · next decimal =>
        simp only [Char.isDigit, Bool.and_eq_true, decide_eq_true_eq] at decimal
        exact UInt32.le_trans decimal.2 (by decide)
    · split at digit
      · next lower => exact lower.2
      · split at digit
        · next upper => exact UInt32.le_trans upper.2 (by decide)
        · cases digit
  have ascii : char.val ≤ 0x7f := UInt32.le_trans small (by decide)
  exact if_pos ascii

/-- One of the first three digits of an escape by number. -/
theorem exists_step_digits_more {char : Char} (digit : (Text.hexDigitValue? char).isSome)
    {bytes : Nat} (early : bytes < 3) (unit : Nat) (gathered : List Char) :
    ∃ longer, step false ⟨.digits bytes (some unit) none, gathered⟩ char =
      .ok (.more ⟨.digits (bytes + 1) (some longer) none, gathered⟩) := by
  obtain ⟨low, value⟩ := Option.isSome_iff_exists.mp digit
  refine ⟨unit * 16 + low, ?_⟩
  simp only [step, addDigit, utf8Size_of_hexDigit digit, value, Option.bind_some, Option.map_some,
    if_pos (show bytes + 1 < 4 by omega)]
  rfl

/-- The last digit of an escape by number, in a string that is passed over. -/
theorem step_digits_last {char : Char} (digit : (Text.hexDigitValue? char).isSome)
    (unit : Nat) (gathered : List Char) :
    step false ⟨.digits 3 (some unit) none, gathered⟩ char = .ok (.more ⟨.plain, gathered⟩) := by
  obtain ⟨low, value⟩ := Option.isSome_iff_exists.mp digit
  simp only [step, addDigit, utf8Size_of_hexDigit digit, value, Option.bind_some, Option.map_some]
  rfl

end StringBody

/-! ## Values passed over -/

namespace Skipped

/-- **A text that is passed over.** Its last character is the last of the value; or the value
ends behind it, at any character that cannot go on with a number. -/
inductive Passes : Skipped → List Char → Prop where
  | last {skipped : Skipped} {char : Char} :
      skipped.step char = .ok (.last ()) → Passes skipped [char]
  | past {skipped : Skipped} :
      (∀ char, Numeral.endsWhole char = true → skipped.step char = .ok (.past ())) →
      Passes skipped []
  | more {skipped later : Skipped} {char : Char} {rest : List Char} :
      skipped.step char = .ok (.more later) → Passes later rest → Passes skipped (char :: rest)

/-- A number may start where a value may. -/
theorem step_start_of_start? {char : Char} {numeral : Numeral}
    (started : Numeral.start? char = some numeral) :
    start.step char = .ok (.more ⟨[], .number numeral⟩) := by
  have wordless : word? char = none := by
    have letters : char ≠ 'n' ∧ char ≠ 't' ∧ char ≠ 'f' := by
      refine ⟨?_, ?_, ?_⟩ <;> rintro rfl <;> cases started
    simp only [word?, letters.1, letters.2.1, letters.2.2, if_false]
  simp only [step, start, Numeral.isBlank_of_start? started, enter, wordless, started]
  rfl

/-- What passes over the rest of a number passes over all of it. -/
theorem passes_of_spells {text : List Char} {numeral : Numeral}
    (spells : Numeral.Spells text numeral) {rest : List Char}
    (passes : Passes ⟨[], .number numeral⟩ rest) : Passes start (text ++ rest) := by
  induction spells generalizing rest with
  | start started => exact .more (step_start_of_start? started) passes
  | @step text numeral longer char _ stepped ih =>
      have next : step ⟨[], .number numeral⟩ char = .ok (.more ⟨[], .number longer⟩) := by
        simp only [step, stepped]
        rfl
      rw [List.append_assoc]
      exact ih (.more next passes)

theorem passes_number {text : List Char} (form : IsNumber text) : Passes start text := by
  obtain ⟨numeral, spells, complete⟩ := Numeral.exists_spells_of_isNumber form
  have ended : Passes ⟨[], .number numeral⟩ [] := by
    refine .past fun char ends => ?_
    simp only [step, Numeral.step_of_complete complete ends]
    rfl
  have passes := passes_of_spells spells ended
  rwa [List.append_nil] at passes

/-- What a character does to a string does to the reader that passes over it. -/
theorem step_text {body later : StringBody} {char : Char}
    (stepped : body.step false char = .ok (.more later)) :
    step ⟨[], .text body⟩ char = .ok (.more ⟨[], .text later⟩) := by
  simp only [step, stepped]
  rfl

/-- An escape by number is passed over whatever unit it stands for. -/
theorem passes_string {rest : List Char} (form : IsString rest) (gathered : List Char) :
    Passes ⟨[], .text ⟨.plain, gathered⟩⟩ rest := by
  induction form generalizing gathered with
  | closed => exact .last rfl
  | plain plain _ ih => exact .more (step_text (StringBody.step_plain false plain gathered)) (ih _)
  | @escape letter rest known _ ih =>
      obtain ⟨char, stepped⟩ := StringBody.exists_step_escape false known gathered
      exact .more (step_text rfl) (.more (step_text stepped) (ih _))
  | @unit first second third fourth rest digits _ ih =>
      simp only [List.forall_mem_cons] at digits
      obtain ⟨one, two, three, four, _⟩ := digits
      obtain ⟨high, firstStep⟩ :=
        StringBody.exists_step_digits_more one (by decide : 0 < 3) 0 gathered
      obtain ⟨higher, secondStep⟩ :=
        StringBody.exists_step_digits_more two (by decide : 1 < 3) high gathered
      obtain ⟨highest, thirdStep⟩ :=
        StringBody.exists_step_digits_more three (by decide : 2 < 3) higher gathered
      have fourthStep := StringBody.step_digits_last four highest gathered
      exact .more (step_text rfl) (.more (step_text rfl) (.more (step_text firstStep)
        (.more (step_text secondStep) (.more (step_text thirdStep)
          (.more (step_text fourthStep) (ih gathered))))))

end Skipped

/-- **A scalar is passed over.** -/
theorem IsScalar.passes {text : List Char} (scalar : IsScalar text) :
    Skipped.start.Passes text := by
  cases scalar with
  | null => exact .more rfl (.more rfl (.more rfl (.last rfl)))
  | true => exact .more rfl (.more rfl (.more rfl (.last rfl)))
  | false => exact .more rfl (.more rfl (.more rfl (.more rfl (.last rfl))))
  | number form => exact Skipped.passes_number form
  | @string rest form =>
      have opened : Skipped.start.step '"' = .ok (.more ⟨[], .text ⟨.plain, []⟩⟩) := rfl
      exact .more opened (Skipped.passes_string form [])

end Bytecode.Json
