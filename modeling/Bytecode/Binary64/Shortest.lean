import Bytecode.Binary64

/-! # Shortest decimals

A number is written with the fewest digits that are nearer to it than to any
other number, and of the decimals with so few digits the nearest one. Where the
point stands and when an exponent is written is a matter of layout.
-/

namespace Bytecode

/-- The number `digits * 10 ^ power`. -/
structure Decimal where
  digits : Nat
  power : Int
  deriving DecidableEq

/-- Where a decimal is written without an exponent. -/
structure Decimal.Layout where
  /-- The least place of the leading digit that is written without an exponent. -/
  leastPlain : Int
  /-- The greatest place of the leading digit that is written without an exponent. -/
  greatestPlain : Int

namespace Binary64

/-- Whether a decimal is nearer to the number than to its neighbours. Quarters
of the mantissa's unit are counted: the neighbour above is two quarters from the
middle, the one below only one where the mantissa is the least of its exponent.
The middles belong to even mantissas. -/
def isNearest (number : Binary64) (decimal : Decimal) : Bool :=
  let (tens, unit) := scaleFraction 10 decimal.power decimal.digits 1
  let (scaled, quarter) := scaleFraction 2 (2 - number.exponent) tens unit
  let narrow := number.mantissa = Nat.pow 2 52 && leastExponent < number.exponent
  let low := (4 * number.mantissa - (if narrow then 1 else 2)) * quarter
  let high := (4 * number.mantissa + 2) * quarter
  if number.mantissa % 2 = 0 then low ≤ scaled && scaled ≤ high else low < scaled && scaled < high

/-- The multiple of a power of ten that is nearer to the number than to its
neighbours, if there is one; of two the nearer, and of equally near ones the even. -/
def onGrid? (number : Binary64) (power : Int) : Option Decimal :=
  let (scaled, unit) := scaleFraction 2 number.exponent number.mantissa 1
  let (numerator, denominator) := scaleFraction 10 (-power) scaled unit
  let nearest : Decimal := ⟨roundDiv numerator denominator, power⟩
  let below : Decimal := ⟨numerator / denominator, power⟩
  let above : Decimal := ⟨numerator / denominator + 1, power⟩
  [nearest, below, above].find? number.isNearest

/-- The powers of ten that can be the last place of a shortest decimal, greatest first. -/
def lastPlaces : List Int := (List.range 633).map fun (step : Nat) => (308 : Int) - step

def shortest (number : Binary64) : Decimal :=
  if number.mantissa = 0 then ⟨0, 0⟩ else (lastPlaces.findSome? number.onGrid?).getD ⟨0, 0⟩

end Binary64

namespace Decimal

def zeros (count : Nat) : List Char := List.replicate count '0'

/-- The decimal written out. A whole number keeps a zero after the point unless
an exponent follows; an exponent has a sign and no leading zeros. -/
def write (layout : Layout) (decimal : Decimal) : List Char :=
  let digits := Nat.toDigits 10 decimal.digits
  let place := decimal.power + digits.length - 1
  if layout.leastPlain ≤ place ∧ place ≤ layout.greatestPlain then
    if 0 ≤ decimal.power then digits ++ zeros decimal.power.toNat ++ ".0".toList
    else if 0 ≤ place then
      digits.take (place.toNat + 1) ++ '.' :: digits.drop (place.toNat + 1)
    else "0.".toList ++ zeros (-place - 1).toNat ++ digits
  else
    let fraction := if digits.length ≤ 1 then [] else '.' :: digits.drop 1
    let sign := if place < 0 then '-' else '+'
    digits.take 1 ++ fraction ++ 'e' :: sign :: Nat.toDigits 10 place.natAbs

end Decimal

end Bytecode
