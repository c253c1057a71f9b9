import Bytecode.Bytes

/-! # Texts as bytes

A text is stored as the bytes of its characters in UTF-8, one character after the other
(`Bytes.ofText`). Bytes are read as the text that is stored so, if there is one
(`Bytes.fromUTF8?_eq_some_iff`). A character of ASCII takes one byte, its own number, so bytes
below 128 are always a text (`Bytes.ofText_ofList`).
-/

namespace Bytecode.Bytes

/-- The bytes of a text in UTF-8. -/
def ofText (text : String) : Bytes := text.toList.flatMap String.utf8EncodeChar

theorem toByteArray_eq (text : String) : text.toByteArray = ⟨(ofText text).toArray⟩ := by
  rw [← String.utf8Encode_toList, List.utf8Encode]
  exact ByteArray.ext (List.data_toByteArray ..)

/-- **Bytes are read as the text that is stored so.** -/
theorem fromUTF8?_eq_some_iff {bytes : Bytes} {text : String} :
    String.fromUTF8? ⟨bytes.toArray⟩ = some text ↔ ofText text = bytes := by
  constructor
  · intro found
    unfold String.fromUTF8? at found
    split at found
    · next valid =>
        have stored : text.toByteArray = ⟨bytes.toArray⟩ :=
          congrArg String.toByteArray (Option.some.inj found).symm
        rw [toByteArray_eq, ByteArray.mk.injEq] at stored
        exact congrArg Array.toList stored
    · cases found
  · rintro rfl
    rw [← toByteArray_eq, String.fromUTF8?, dif_pos text.isValidUTF8]
    rfl

theorem fromUTF8?_eq_none_iff {bytes : Bytes} :
    String.fromUTF8? ⟨bytes.toArray⟩ = none ↔ ∀ text, ofText text ≠ bytes := by
  rw [Option.eq_none_iff_forall_ne_some]
  exact forall_congr' fun text => not_congr fromUTF8?_eq_some_iff

/-- A character of ASCII is stored as its number. -/
theorem ofText_ofList {chars : List Char} (ascii : ∀ char ∈ chars, char.toNat < 0x80) :
    ofText (String.ofList chars) = chars.map fun char => UInt8.ofNat char.toNat := by
  rw [ofText, String.toList_ofList]
  induction chars with
  | nil => rfl
  | cons char rest ih =>
      obtain ⟨first, others⟩ := List.forall_mem_cons.mp ascii
      have single : String.utf8EncodeChar char = [UInt8.ofNat char.toNat] :=
        if_pos (Nat.le_of_lt_succ first)
      rw [List.flatMap_cons, single, ih others]
      rfl

end Bytecode.Bytes
