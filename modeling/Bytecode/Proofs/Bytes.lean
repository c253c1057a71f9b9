import Bytecode.Bytes
import Mathlib.Algebra.Group.Nat.Defs

/-! # The range of a width

Numbers stored in a width are those below a power of 256; writing a number in a
width and reading the bytes back gives the number modulo that power.
-/

namespace Bytecode.Bytes

theorem littleEndian_append (front back : Bytes) :
    littleEndian (front ++ back) = littleEndian front + 256 ^ front.length * littleEndian back := by
  induction front with
  | nil => simp
  | cons byte rest ih =>
      simp only [List.cons_append, littleEndian_cons, ih, List.length_cons, Nat.pow_succ,
        Nat.mul_add, Nat.add_assoc]
      congr 2
      rw [Nat.mul_comm (256 ^ rest.length) 256, Nat.mul_assoc]

/-- A field of some width holds a number below the range of that width. -/
theorem littleEndian_lt (bytes : Bytes) : littleEndian bytes < 256 ^ bytes.length := by
  induction bytes with
  | nil => simp
  | cons byte rest ih =>
      have small := byte.toNat_lt
      simp only [littleEndian_cons, List.length_cons, Nat.pow_succ]
      omega

/-- Writing a number and reading it back keeps it modulo the range of the width. -/
theorem littleEndian_ofNat (width number : Nat) :
    littleEndian (ofNat width number) = number % 256 ^ width := by
  induction width generalizing number with
  | zero => simp [ofNat, Nat.mod_one]
  | succ width ih =>
      rw [ofNat, littleEndian_cons, ih, Nat.pow_succ, Nat.mul_comm (256 ^ width) 256,
        Nat.mod_mul]
      simp

end Bytecode.Bytes
