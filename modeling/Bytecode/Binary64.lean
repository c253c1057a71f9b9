/-! # Double precision numbers

The non-negative finite numbers of double precision, held exactly: a mantissa
of at most 53 bits times a power of two. Products and quotients are computed on
fractions of naturals and rounded once, to the nearest number and from the middle
to the even mantissa.
-/

namespace Bytecode

/-- A non-negative number `mantissa * 2 ^ exponent`. In the form made here the
mantissa is below `2 ^ 53`, the exponent lies between -1074 and 971, and the
mantissa is at least `2 ^ 52` unless the exponent is the least. -/
structure Binary64 where
  mantissa : Nat
  exponent : Int
  deriving DecidableEq

namespace Binary64

def leastExponent : Int := -1074

/-- The greatest exponent of a finite number. -/
def greatestExponent : Int := 971

def zero : Binary64 := ⟨0, leastExponent⟩

/-- The quotient of two naturals rounded to the nearest natural, from the middle
to the even one. -/
def roundDiv (numerator denominator : Nat) : Nat :=
  let quotient := numerator / denominator
  let remainder := numerator % denominator
  if 2 * remainder < denominator then quotient
  else if denominator < 2 * remainder then quotient + 1
  else quotient + quotient % 2

/-- The fraction of two naturals times a power of a base. -/
def scaleFraction (base : Nat) (power : Int) (numerator denominator : Nat) : Nat × Nat :=
  if 0 ≤ power then (numerator * base.pow power.toNat, denominator)
  else (numerator, denominator * base.pow (-power).toNat)

/-- The exponent of the greatest power of two that a positive fraction reaches. -/
def leadingBit (numerator denominator : Nat) : Int :=
  let guess : Int := (Nat.log2 numerator : Int) - (Nat.log2 denominator : Int)
  let (scaled, unit) := scaleFraction 2 (-guess) numerator denominator
  if unit ≤ scaled then guess else guess - 1

/-- The number nearest to a fraction, unless that is beyond the finite numbers. -/
def ofFraction? (numerator denominator : Nat) : Option Binary64 :=
  if numerator = 0 then some zero
  else
    let exponent := max leastExponent (leadingBit numerator denominator - 52)
    let (scaled, unit) := scaleFraction 2 (-exponent) numerator denominator
    let mantissa := roundDiv scaled unit
    let rounded : Binary64 :=
      if mantissa = Nat.pow 2 53 then ⟨Nat.pow 2 52, exponent + 1⟩ else ⟨mantissa, exponent⟩
    if rounded.exponent ≤ greatestExponent then some rounded else none

/-- The product, rounded. -/
def mul? (first second : Binary64) : Option Binary64 :=
  let (numerator, denominator) :=
    scaleFraction 2 (first.exponent + second.exponent) (first.mantissa * second.mantissa) 1
  ofFraction? numerator denominator

/-- The quotient, rounded. -/
def div? (first second : Binary64) : Option Binary64 :=
  let (numerator, denominator) :=
    scaleFraction 2 (first.exponent - second.exponent) first.mantissa second.mantissa
  ofFraction? numerator denominator

/-- The greatest power of ten among the numbers. -/
def greatestPlace : Nat := 308

/-- The number nearest to a power of ten up to the greatest. -/
def tenTo (power : Nat) : Binary64 := (ofFraction? (Nat.pow 10 power) 1).getD zero

/-- Divide by a power of ten, by the greatest power at a time while that is too
small a step. -/
def shiftRight (number : Binary64) (places : Nat) : Binary64 :=
  if places ≤ greatestPlace then (number.div? (tenTo places)).getD zero
  else if number = zero then zero
  else shiftRight ((number.div? (tenTo greatestPlace)).getD zero) (places - greatestPlace)
termination_by places
decreasing_by simp only [greatestPlace] at *; omega

/-- The number that a decimal `digits * 10 ^ power` is read as: the digits are
rounded to a number first, which is then multiplied or divided by a power of ten
and rounded once more. Only a product can be beyond the finite numbers. -/
def ofDecimal? (digits : Nat) (power : Int) : Option Binary64 :=
  (ofFraction? digits 1).bind fun number =>
    if power < 0 then some (number.shiftRight (-power).toNat)
    else if power ≤ greatestPlace then number.mul? (tenTo power.toNat)
    else if number = zero then some zero
    else none

end Binary64

end Bytecode
