import Bytecode.Operand
import Bytecode.Proofs.Utf8

/-! # Operands as text

The text of an operand has one character for each byte: a byte of ASCII as itself, any other
as a question mark (`Operand.Shows`). Whether the bytes happen to be UTF-8 does not matter for
the text, and it stands as it is exactly if all bytes are of ASCII
(`Operand.text_shows_every_byte`).
-/

namespace Bytecode.Operand

theorem toNat_showByte {byte : UInt8} (ascii : byte < 0x80) :
    (showByte byte).toNat = byte.toNat := by
  have small : byte.toNat < 0x80 := ascii
  have valid : byte.toNat.isValidChar := .inl (by omega)
  rw [showByte, if_pos ascii, Char.ofNat, dif_pos valid]
  rfl

theorem showByte_of_le {byte : UInt8} (beyond : 0x80 ≤ byte) : showByte byte = '?' :=
  if_neg (UInt8.not_lt.mpr beyond)

theorem toNat_showByte_lt (byte : UInt8) : (showByte byte).toNat < 0x80 := by
  by_cases ascii : byte < 0x80
  · rw [toNat_showByte ascii]
    exact ascii
  · rw [showByte_of_le (UInt8.not_lt.mp ascii)]
    decide

theorem toList_showBytes (operand : Bytes) : (showBytes operand).toList = operand.map showByte :=
  String.toList_ofList

theorem toNat_lt_of_mem_showBytes (operand : Bytes) :
    ∀ char ∈ (showBytes operand).toList, char.toNat < 0x80 := by
  intro char shown
  rw [toList_showBytes] at shown
  obtain ⟨byte, -, rfl⟩ := List.mem_map.mp shown
  exact toNat_showByte_lt byte

theorem showBytes_append (operand further : Bytes) :
    showBytes (operand ++ further) = showBytes operand ++ showBytes further := by
  rw [showBytes, List.map_append, String.ofList_append]
  rfl

theorem ofText_showBytes_of_ascii {operand : Bytes} (ascii : ∀ byte ∈ operand, byte < 0x80) :
    Bytes.ofText (showBytes operand) = operand := by
  have shown : ∀ char ∈ operand.map showByte, char.toNat < 0x80 := by
    rw [← toList_showBytes]
    exact toNat_lt_of_mem_showBytes operand
  calc
    Bytes.ofText (showBytes operand)
    _ = operand.map fun byte => UInt8.ofNat (showByte byte).toNat := by
      rw [showBytes, Bytes.ofText_ofList shown, List.map_map]
      rfl
    _ = operand.map id := by
      refine List.map_congr_left fun byte member => ?_
      rw [toNat_showByte (ascii byte member), UInt8.ofNat_toNat]
      rfl
    _ = operand := List.map_id operand

/-- A text whose characters are all of ASCII is stored in bytes of ASCII. -/
theorem lt_of_mem_ofText {text : String} (ascii : ∀ char ∈ text.toList, char.toNat < 0x80) :
    ∀ byte ∈ Bytes.ofText text, byte < 0x80 := by
  intro byte member
  rw [← String.ofList_toList (s := text), Bytes.ofText_ofList ascii] at member
  obtain ⟨char, inText, rfl⟩ := List.mem_map.mp member
  have small : char.toNat < 0x80 := ascii char inText
  rw [UInt8.lt_iff_toNat_lt, UInt8.toNat_ofNat']
  exact Nat.lt_of_le_of_lt (Nat.mod_le ..) small

/-- A text of ASCII is shown as it stands. -/
theorem text_ofText {shown : String} (ascii : ∀ char ∈ shown.toList, char.toNat < 0x80) :
    text (Bytes.ofText shown) = .verbatim shown := by
  rw [text, Bytes.fromUTF8?_eq_some_iff.mpr rfl]
  exact if_pos (List.all_eq_true.mpr fun char member => decide_eq_true (ascii char member))

theorem text_of_ascii {operand : Bytes} (ascii : ∀ byte ∈ operand, byte < 0x80) :
    text operand = .verbatim (showBytes operand) :=
  calc
    text operand = text (Bytes.ofText (showBytes operand)) := by
      rw [ofText_showBytes_of_ascii ascii]
    _ = .verbatim (showBytes operand) := text_ofText (toNat_lt_of_mem_showBytes operand)

/-- One byte beyond ASCII is enough for the other form, whether the operand is UTF-8 or not. -/
theorem text_of_not_ascii {operand : Bytes} (beyond : ¬ ∀ byte ∈ operand, byte < 0x80) :
    text operand = .replaced (showBytes operand) := by
  unfold text
  split
  · next found =>
      refine if_neg fun ascii => beyond ?_
      rw [← Bytes.fromUTF8?_eq_some_iff.mp found]
      exact lt_of_mem_ofText fun char member =>
        of_decide_eq_true (List.all_eq_true.mp ascii char member)
  · rfl

theorem toString_text (operand : Bytes) : (text operand).toString = showBytes operand := by
  by_cases ascii : ∀ byte ∈ operand, byte < 0x80
  · rw [text_of_ascii ascii]
    rfl
  · rw [text_of_not_ascii ascii]
    rfl

theorem isVerbatim_text_iff (operand : Bytes) :
    (text operand).isVerbatim = true ↔ ∀ byte ∈ operand, byte < 0x80 := by
  by_cases ascii : ∀ byte ∈ operand, byte < 0x80
  · rw [text_of_ascii ascii]
    exact iff_of_true rfl ascii
  · rw [text_of_not_ascii ascii]
    exact iff_of_false Bool.false_ne_true ascii

/-- **What a text shows of an operand.** It has one character for each byte: the character with
the number of the byte if that is one of ASCII, and a question mark if it is not. -/
structure Shows (shown : String) (operand : Bytes) : Prop where
  length_eq : shown.length = operand.length
  ascii : ∀ (index : Nat) (byte : UInt8), operand[index]? = some byte → byte < 0x80 →
    ∃ char : Char, shown.toList[index]? = some char ∧ char.toNat = byte.toNat
  beyond : ∀ (index : Nat) (byte : UInt8), operand[index]? = some byte → 0x80 ≤ byte →
    shown.toList[index]? = some '?'

theorem shows_showBytes (operand : Bytes) : Shows (showBytes operand) operand where
  length_eq := by rw [← String.length_toList, toList_showBytes, List.length_map]
  ascii index byte found small := by
    rw [toList_showBytes, List.getElem?_map, found]
    exact ⟨showByte byte, rfl, toNat_showByte small⟩
  beyond index byte found large := by
    rw [toList_showBytes, List.getElem?_map, found]
    exact congrArg some (showByte_of_le large)

/-- There is one text that shows an operand. -/
theorem shows_iff {shown : String} {operand : Bytes} :
    Shows shown operand ↔ shown = showBytes operand := by
  refine ⟨fun shows => ?_, fun same => same ▸ shows_showBytes operand⟩
  rw [← String.toList_inj, toList_showBytes]
  refine List.ext_getElem? fun index => ?_
  rw [List.getElem?_map]
  cases found : operand[index]? with
  | none =>
      rw [List.getElem?_eq_none_iff] at found
      rw [Option.map_none, List.getElem?_eq_none_iff, String.length_toList, shows.length_eq]
      exact found
  | some byte =>
      rw [Option.map_some]
      by_cases small : byte < 0x80
      · obtain ⟨char, shownAt, number⟩ := shows.ascii index byte found small
        rw [shownAt, Char.toNat_inj.mp (number.trans (toNat_showByte small).symm)]
      · have large : 0x80 ≤ byte := UInt8.not_lt.mp small
        rw [shows.beyond index byte found large, showByte_of_le large]

/-- **Every byte is shown on its own.** The text of an operand is the one that shows it byte by
byte, and it stands as it is exactly if all bytes are of ASCII. So an operand may be cut
anywhere, inside a character of several bytes as well, and the texts of the parts make up the
text of the whole. The text as an operand of its own is shown as it stands. -/
theorem text_shows_every_byte (operand : Bytes) :
    (∀ shown, Shows shown operand ↔ shown = (text operand).toString) ∧
    ((text operand).isVerbatim = true ↔ ∀ byte ∈ operand, byte < 0x80) ∧
    (∀ further, (text (operand ++ further)).toString =
      (text operand).toString ++ (text further).toString) ∧
    text (Bytes.ofText (text operand).toString) = .verbatim (text operand).toString := by
  refine ⟨fun shown => ?_, isVerbatim_text_iff operand, fun further => ?_, ?_⟩
  · rw [toString_text]
    exact shows_iff
  · rw [toString_text, toString_text, toString_text, showBytes_append]
  · rw [toString_text]
    exact text_ofText (toNat_lt_of_mem_showBytes operand)

/-- The two bytes of one accented letter are shown as two question marks. -/
example : text [0x6f, 0xc3, 0xa9] = .replaced "o??" := by decide +kernel

end Bytecode.Operand
