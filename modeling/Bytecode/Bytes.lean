/-! # Byte strings and little-endian numbers

Scripts, operands and length fields are byte strings. A number is stored least
significant byte first; reading a byte string and writing the number back in as
many bytes gives the byte string again.
-/

namespace Bytecode

abbrev Bytes := List UInt8

namespace Bytes

/-- The number whose base-256 digits are the bytes, least significant first. -/
def littleEndian : Bytes → Nat
  | [] => 0
  | byte :: rest => byte.toNat + 256 * littleEndian rest

/-- The lowest `width` base-256 digits of a number, least significant first. -/
def ofNat : (width : Nat) → Nat → Bytes
  | 0, _ => []
  | width + 1, number => UInt8.ofNat number :: ofNat width (number / 256)

@[simp] theorem littleEndian_nil : littleEndian [] = 0 := rfl

@[simp] theorem littleEndian_cons (byte : UInt8) (rest : Bytes) :
    littleEndian (byte :: rest) = byte.toNat + 256 * littleEndian rest := rfl

@[simp] theorem length_ofNat (width number : Nat) : (ofNat width number).length = width := by
  induction width generalizing number with
  | zero => rfl
  | succ width ih => simp [ofNat, ih]

/-- Every byte string is the written form of the number it holds. -/
theorem ofNat_littleEndian (bytes : Bytes) : ofNat bytes.length (littleEndian bytes) = bytes := by
  induction bytes with
  | nil => rfl
  | cons byte rest ih =>
      have small := byte.toNat_lt
      have high : (byte.toNat + 256 * littleEndian rest) / 256 = littleEndian rest := by omega
      have low : UInt8.ofNat (byte.toNat + 256 * littleEndian rest) = byte := by
        apply UInt8.toNat_inj.mp
        simp only [UInt8.toNat_ofNat']
        omega
      simp only [List.length_cons, littleEndian_cons, ofNat, high, low, ih]

/-- The first `count` bytes and the bytes after them, if there are that many. -/
def split? (count : Nat) (bytes : Bytes) : Option (Bytes × Bytes) :=
  let front := bytes.take count
  if front.length = count then some (front, bytes.drop count) else none

/-- Splitting succeeds exactly at the cut that leaves `count` bytes in front. -/
theorem split?_eq_some_iff {count : Nat} {bytes front back : Bytes} :
    bytes.split? count = some (front, back) ↔ bytes = front ++ back ∧ front.length = count := by
  unfold split?
  constructor
  · intro found
    simp only at found
    split at found
    · next exact =>
        obtain ⟨rfl, rfl⟩ := by simpa using found
        exact ⟨(List.take_append_drop count bytes).symm, exact⟩
    · simp at found
  · rintro ⟨rfl, rfl⟩
    simp

/-- Splitting fails exactly when too few bytes are there. -/
theorem split?_eq_none_iff {count : Nat} {bytes : Bytes} :
    bytes.split? count = none ↔ bytes.length < count := by
  unfold split?
  simp only
  split
  · next exact => simp at exact ⊢; omega
  · next short => simp at short ⊢; omega

end Bytes

end Bytecode
