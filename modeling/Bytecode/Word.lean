import Bytecode.Bytes

/-! # Words

A machine computes with words, the numbers below `2 ^ 64`. Where a sum or a difference is no
word, one machine goes on with it modulo `2 ^ 64`, and another stops. Every machine stops
where it takes bytes for granted that are not there.
-/

namespace Bytecode

/-- A number that a machine computes with. -/
abbrev Word := UInt64

/-- What a machine does with a sum or a difference that is no word. -/
inductive Overflow where
  /-- Go on with the number modulo `2 ^ 64`. -/
  | wraps
  | stops
  deriving DecidableEq

/-- Why a machine stopped. -/
inductive Trap where
  /-- A sum or a difference was no word. -/
  | overflow
  /-- Bytes were taken for granted that were not there. -/
  | outOfRange
  deriving DecidableEq

/-- What comes of a number that is no word, given modulo `2 ^ 64`. -/
def Overflow.result : Overflow → Word → Except Trap Word
  | .wraps, wrapped => .ok wrapped
  | .stops, _ => .error .overflow

namespace Word

def add (overflow : Overflow) (first second : Word) : Except Trap Word :=
  if first.toNat + second.toNat < UInt64.size then .ok (first + second)
  else overflow.result (first + second)

def sub (overflow : Overflow) (first second : Word) : Except Trap Word :=
  if second ≤ first then .ok (first - second) else overflow.result (first - second)

/-- The sum, unless it is no word. -/
def add? (first second : Word) : Option Word :=
  if first.toNat + second.toNat < UInt64.size then some (first + second) else none

/-- The difference, or zero where it would be negative. -/
def subOrZero (first second : Word) : Word := if second ≤ first then first - second else 0

/-- A sum that is a word is the exact one, on every machine. -/
theorem exists_add (overflow : Overflow) (first second : Word)
    (fits : first.toNat + second.toNat < UInt64.size) :
    ∃ sum, add overflow first second = .ok sum ∧ sum.toNat = first.toNat + second.toNat := by
  refine ⟨first + second, if_pos fits, ?_⟩
  rw [UInt64.toNat_add]
  exact Nat.mod_eq_of_lt fits

/-- A difference that is not negative is the exact one, on every machine. -/
theorem exists_sub (overflow : Overflow) (first second : Word)
    (ordered : second.toNat ≤ first.toNat) :
    ∃ difference, sub overflow first second = .ok difference ∧
      difference.toNat = first.toNat - second.toNat := by
  have ordered := UInt64.le_iff_toNat_le.mpr ordered
  exact ⟨first - second, if_pos ordered, UInt64.toNat_sub_of_le _ _ ordered⟩

theorem toNat_subOrZero (first second : Word) :
    (subOrZero first second).toNat = first.toNat - second.toNat := by
  unfold subOrZero
  split
  · next ordered => exact UInt64.toNat_sub_of_le _ _ ordered
  · next larger =>
      have smaller := Nat.lt_of_not_le (mt UInt64.le_iff_toNat_le.mpr larger)
      rw [Nat.sub_eq_zero_of_le (Nat.le_of_lt smaller)]
      rfl

/-- The number of bytes, as long as it is a word. -/
def count (bytes : Bytes) : Word := .ofNat bytes.length

theorem toNat_count {bytes : Bytes} (short : bytes.length < UInt64.size) :
    (count bytes).toNat = bytes.length :=
  UInt64.toNat_ofNat_of_lt' short

/-- The bytes from `start` up to `finish`, if they are there. -/
def slice? (bytes : Bytes) (start finish : Word) : Option Bytes :=
  if start ≤ finish ∧ finish.toNat ≤ bytes.length then
    some ((bytes.drop start.toNat).take (finish.toNat - start.toNat))
  else none

/-- The bytes from `start` up to `finish`, taken for granted. -/
def slice (bytes : Bytes) (start finish : Word) : Except Trap Bytes :=
  match slice? bytes start finish with
  | some part => .ok part
  | none => .error .outOfRange

/-- The byte at an index, taken for granted. -/
def byte (bytes : Bytes) (index : Nat) : Except Trap UInt8 :=
  match bytes[index]? with
  | some byte => .ok byte
  | none => .error .outOfRange

theorem slice?_of_le {bytes : Bytes} {start finish : Word}
    (ordered : start.toNat ≤ finish.toNat) (inside : finish.toNat ≤ bytes.length) :
    slice? bytes start finish =
      some ((bytes.drop start.toNat).take (finish.toNat - start.toNat)) :=
  if_pos ⟨UInt64.le_iff_toNat_le.mpr ordered, inside⟩

theorem slice?_of_lt {bytes : Bytes} {start finish : Word}
    (beyond : bytes.length < finish.toNat) : slice? bytes start finish = none :=
  if_neg fun there => Nat.not_lt.mpr there.2 beyond

/-- So many bytes from an index on, taken for granted one by one. -/
def bytesAt (bytes : Bytes) (index : Nat) : Nat → Except Trap Bytes
  | 0 => return []
  | count + 1 => do
      let first ← byte bytes index
      let rest ← bytesAt bytes (index + 1) count
      return first :: rest

theorem bytesAt_of_le {bytes : Bytes} {index count : Nat} (inside : index + count ≤ bytes.length) :
    bytesAt bytes index count = .ok ((bytes.drop index).take count) := by
  induction count generalizing index with
  | zero => rfl
  | succ count ih =>
      have here : index < bytes.length := by omega
      have first : byte bytes index = .ok bytes[index] := by simp [byte, here]
      have rest : bytesAt bytes (index + 1) count = .ok ((bytes.drop (index + 1)).take count) :=
        ih (by omega)
      rw [bytesAt, first, rest, List.drop_eq_getElem_cons here, List.take_succ_cons]
      rfl

end Word

end Bytecode
