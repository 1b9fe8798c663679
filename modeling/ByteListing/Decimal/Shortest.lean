/-! # The shortest decimal that reads back

A positive binary number is `significand * 2 ^ exponent`.  The reals that round to it form an
interval around it: half a step wide on either side, or a quarter on the lower side where the
step below is half as wide, and with its ends exactly if the significand is even.

On the grid of multiples of a power of ten, the number has a neighbour at or below it and one
above.  `Binary.shortest` takes the coarsest grid on which one of the two lies in the interval,
and there the nearer of those that do; the upper one where both are equally near. -/
set_option autoImplicit false
namespace ByteListing.Decimal

/-- A positive binary number.  `narrowBelow` says that the numbers below it are half as far
apart as those above. -/
structure Binary where
  significand : Nat
  exponent : Int
  narrowBelow : Bool

/-- A decimal number, `digits * 10 ^ exponent`. -/
structure Number where
  digits : Nat
  exponent : Int
deriving Repr, DecidableEq

def digitCount (value : Nat) : Nat := (Nat.toDigits 10 value).length

namespace Number

/-- Compares a decimal number with `scale * 2 ^ exponent / 4`. -/
def compareQuarters (number : Number) (scale : Nat) (exponent : Int) : Ordering :=
  compare (4 * number.digits * Nat.pow 10 number.exponent.toNat * Nat.pow 2 (-exponent).toNat)
    (scale * Nat.pow 2 exponent.toNat * Nat.pow 10 (-number.exponent).toNat)

def trimZeros : (fuel : Nat) → Number → Number
  | 0, number => number
  | fuel + 1, number =>
    if number.digits ≠ 0 ∧ number.digits % 10 = 0 then
      trimZeros fuel ⟨number.digits / 10, number.exponent + 1⟩
    else
      number

end Number

namespace Binary

def numerator (binary : Binary) : Nat := binary.significand * Nat.pow 2 binary.exponent.toNat

def denominator (binary : Binary) : Nat := Nat.pow 2 (-binary.exponent).toNat

def readsBack (binary : Binary) (number : Number) : Bool :=
  let below := 4 * binary.significand - (if binary.narrowBelow then 1 else 2)
  let above := 4 * binary.significand + 2
  let low := number.compareQuarters below binary.exponent
  let high := number.compareQuarters above binary.exponent
  (low == .gt && high == .lt) ||
    (binary.significand % 2 == 0 && (low == .eq || high == .eq))

/-- The power of ten just above the number: `10 ^ (magnitude - 1) ≤ number < 10 ^ magnitude`. -/
def magnitude (binary : Binary) : Int :=
  if binary.denominator ≤ binary.numerator then
    digitCount (binary.numerator / binary.denominator)
  else
    1 - (digitCount ((binary.denominator - 1) / binary.numerator) : Int)

def floorAt (binary : Binary) (exponent : Int) : Number :=
  ⟨binary.numerator * Nat.pow 10 (-exponent).toNat /
      (binary.denominator * Nat.pow 10 exponent.toNat),
    exponent⟩

def nearest? (binary : Binary) (exponent : Int) : Option Number :=
  let lower := binary.floorAt exponent
  let upper : Number := ⟨lower.digits + 1, exponent⟩
  let middle : Number := ⟨10 * lower.digits + 5, exponent - 1⟩
  match binary.readsBack lower, binary.readsBack upper with
  | true, true =>
    if middle.compareQuarters (4 * binary.significand) binary.exponent == .gt then some lower
    else some upper
  | true, false => some lower
  | false, true => some upper
  | false, false => none

def search (binary : Binary) (magnitude : Int) : (fuel count : Nat) → Number
  | 0, count => binary.floorAt (magnitude - count)
  | fuel + 1, count =>
    match binary.nearest? (magnitude - count) with
    | some number => number
    | none => search binary magnitude fuel (count + 1)

/-- The shortest decimal number that reads back; seventeen digits always suffice for a
significand of at most fifty-three bits. -/
def shortest (binary : Binary) : Number :=
  (binary.search binary.magnitude 17 1).trimZeros 2

end Binary

end ByteListing.Decimal
