import Bytecode.Proofs.Limits
import Bytecode.Proofs.Utf8

/-! # Settings of the environment

A setting of the environment is any byte string. One that is a text is read by its grammar: it
gives a limit, or the standard limit and a warning. One that is no text is read as if nothing
were set, without a word (`Limits.Reading`). So a setting is heeded exactly if it is a text
(`Limits.heeded_iff_text`).
-/

namespace Bytecode.Limits

/-- How the environment is read: the four things that a setting can be, each with the limits
and the events that come of it. -/
inductive Reading (setting : Option Bytes) : Logged Limits → Prop
  | unset (absent : setting = none) : Reading setting (.silent standard)
  | taken (text : String) (limit : UInt32) (stored : setting = some (Bytes.ofText text))
      (denotes : Numeral.Denotes (Text.trim text.toList) limit.toNat) :
      Reading setting (.silent ⟨limit⟩)
  | ignored (text : String) (reason : Numeral.Error) (stored : setting = some (Bytes.ofText text))
      (refused : Numeral.Refused (Text.trim text.toList) reason) :
      Reading setting ⟨standard, [.limitIgnored text reason]⟩
  | lost (bytes : Bytes) (stored : setting = some bytes)
      (textless : ∀ text, Bytes.ofText text ≠ bytes) : Reading setting (.silent standard)

theorem ofEnvironment_ofText (text : String) :
    ofEnvironment (some (Bytes.ofText text)) = ofSetting (some text) := by
  rw [ofEnvironment, Option.bind_some, Bytes.fromUTF8?_eq_some_iff.mpr rfl]

theorem ofEnvironment_of_textless {bytes : Bytes} (textless : ∀ text, Bytes.ofText text ≠ bytes) :
    ofEnvironment (some bytes) = .silent standard := by
  rw [ofEnvironment, Option.bind_some, Bytes.fromUTF8?_eq_none_iff.mpr textless]
  rfl

theorem reading_ofEnvironment (setting : Option Bytes) :
    Reading setting (ofEnvironment setting) := by
  cases setting with
  | none => exact .unset rfl
  | some bytes =>
      by_cases stored : ∃ text, Bytes.ofText text = bytes
      · obtain ⟨text, rfl⟩ := stored
        rw [ofEnvironment_ofText]
        by_cases numeral : ∃ limit : UInt32,
            Numeral.Denotes (Text.trim text.toList) limit.toNat
        · obtain ⟨limit, denotes⟩ := numeral
          rw [ofSetting_eq_silent_iff.mpr denotes]
          exact .taken text limit rfl denotes
        · obtain ⟨reason, refused, ignored⟩ :=
            ofSetting_eq_of_not_denotes (not_exists.mp numeral)
          rw [ignored]
          exact .ignored text reason rfl refused
      · have textless : ∀ text, Bytes.ofText text ≠ bytes := not_exists.mp stored
        rw [ofEnvironment_of_textless textless]
        exact .lost bytes rfl textless

/-- A setting that is not passed over in silence: the limit is taken from it, or the standard
limit stays in force and one warning says so. -/
def Heeded (setting : Bytes) : Prop :=
  (∃ text limit, Bytes.ofText text = setting ∧
    Numeral.Denotes (Text.trim text.toList) (UInt32.toNat limit) ∧
    ofEnvironment (some setting) = .silent ⟨limit⟩) ∨
  ∃ event, event.level = .warn ∧ ofEnvironment (some setting) = ⟨standard, [event]⟩

theorem heeded_ofText (text : String) : Heeded (Bytes.ofText text) := by
  generalize answered : ofEnvironment (some (Bytes.ofText text)) = logged
  have reading := answered ▸ reading_ofEnvironment (some (Bytes.ofText text))
  cases reading with
  | unset absent => cases absent
  | taken other limit stored denotes =>
      exact .inl ⟨other, limit, (Option.some.inj stored).symm, denotes, answered⟩
  | ignored other reason stored refused =>
      exact .inr ⟨.limitIgnored other reason, rfl, answered⟩
  | lost bytes stored textless => exact absurd (Option.some.inj stored) (textless text)

theorem not_heeded_of_textless {bytes : Bytes} (textless : ∀ text, Bytes.ofText text ≠ bytes) :
    ¬ Heeded bytes := by
  rintro (⟨text, limit, stored, -⟩ | ⟨event, -, warned⟩)
  · exact textless text stored
  · rw [ofEnvironment_of_textless textless] at warned
    cases congrArg Logged.events warned

/-- **A setting is heeded exactly if it is a text.** Any other bytes are taken as if nothing
were set: the standard limit stays in force and no event says that a setting was there. -/
theorem heeded_iff_text (setting : Bytes) :
    (Heeded setting ↔ ∃ text, Bytes.ofText text = setting) ∧
    ((∀ text, Bytes.ofText text ≠ setting) →
      ofEnvironment (some setting) = ofEnvironment none) := by
  refine ⟨⟨fun heeded => ?_, ?_⟩, ofEnvironment_of_textless⟩
  · by_contra textless
    exact not_heeded_of_textless (not_exists.mp textless) heeded
  · rintro ⟨text, rfl⟩
    exact heeded_ofText text

/-- The digits of a limit and one byte that no text has: the limit is lost in silence. -/
theorem digits_before_stray_byte_lost :
    ofEnvironment (some [0x31, 0x30, 0x32, 0x34, 0xff]) = .silent standard ∧
      ¬ Heeded [0x31, 0x30, 0x32, 0x34, 0xff] := by
  have textless : ∀ text, Bytes.ofText text ≠ [0x31, 0x30, 0x32, 0x34, 0xff] :=
    Bytes.fromUTF8?_eq_none_iff.mp (by decide +kernel)
  exact ⟨ofEnvironment_of_textless textless, not_heeded_of_textless textless⟩

end Bytecode.Limits
