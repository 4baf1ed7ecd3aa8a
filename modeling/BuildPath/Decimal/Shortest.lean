/-!
# Shortest decimals

The decimal with the fewest digits that reads back as a given binary number, and of those the
nearest to it. A binary number stands for all reals that round to it; the search tries one digit,
two digits and so on, and looks at the two neighbours of the number on each decimal grid. All
arithmetic is exact.
-/

namespace BuildPath.Decimal

/-- A positive number `mantissa * 2 ^ exponent` with the numbers that round to it. `narrow` says
that the next smaller number is only half as far away as the next larger one. -/
structure Binary where
  mantissa : Nat
  exponent : Int
  narrow : Bool
  deriving DecidableEq, Repr

/-- A decimal `digits * 10 ^ exponent`. -/
structure Digits where
  digits : Nat
  exponent : Int
  deriving DecidableEq, Repr

namespace Binary

/-- A power with an integer exponent as numerator and denominator. -/
def ratio (base : Nat) (exponent : Int) : Nat × Nat :=
  if exponent < 0 then (1, base.pow (-exponent).toNat) else (base.pow exponent.toNat, 1)

/-- The number, the least real that rounds to it, the greatest one, and their denominator. -/
def interval (binary : Binary) : Nat × Nat × Nat × Nat :=
  let (numerator, denominator) := ratio 2 binary.exponent
  let below := if binary.narrow then 1 else 2
  (4 * binary.mantissa * numerator, (4 * binary.mantissa - below) * numerator,
    (4 * binary.mantissa + 2) * numerator, 4 * denominator)

/-- Whether a decimal lies among the reals that round to the number. The ends of the interval do so
if the mantissa is even. -/
def contains (binary : Binary) (decimal : Digits) : Bool :=
  let (_, low, high, denominator) := binary.interval
  let (tens, parts) := ratio 10 decimal.exponent
  let scaled := decimal.digits * tens * denominator
  if binary.mantissa % 2 == 0 then low * parts ≤ scaled && scaled ≤ high * parts
  else low * parts < scaled && scaled < high * parts

/-- The distance of a decimal from the number, in units that depend on the grid alone. -/
def distance (binary : Binary) (decimal : Digits) : Nat :=
  let (middle, _, _, denominator) := binary.interval
  let (tens, parts) := ratio 10 decimal.exponent
  let scaled := decimal.digits * tens * denominator
  if scaled ≤ middle * parts then middle * parts - scaled else scaled - middle * parts

/-- The decimal just below the number on the grid of a power of ten, or the number itself. -/
def floorOn (binary : Binary) (exponent : Int) : Digits :=
  let (middle, _, _, denominator) := binary.interval
  let (tens, parts) := ratio 10 exponent
  ⟨middle * parts / (denominator * tens), exponent⟩

/-- The nearer of the two neighbours on a grid that round to the number. -/
def onGrid? (binary : Binary) (exponent : Int) : Option Digits :=
  let lower := binary.floorOn exponent
  let upper : Digits := ⟨lower.digits + 1, exponent⟩
  match binary.contains lower, binary.contains upper with
  | true, true =>
    let far := binary.distance upper
    let near := binary.distance lower
    some (if near < far || (near == far && lower.digits % 2 == 0) then lower else upper)
  | true, false => some lower
  | false, true => some upper
  | false, false => none

/-- The greatest power of ten that the number reaches, estimated from its binary size and then
corrected. -/
def magnitude (binary : Binary) : Int :=
  let estimate := (binary.exponent + binary.mantissa.log2) * 30103 / 100000
  let reached := fun (candidate : Int) => 0 < (binary.floorOn candidate).digits
  if reached (estimate + 1) then estimate + 1
  else if reached estimate then estimate
  else estimate - 1

/-- The shortest decimal. Seventeen digits always suffice for a double. -/
def shortest (binary : Binary) : Digits :=
  let grids := (List.range 17).map fun (count : Nat) => binary.magnitude - (count : Int)
  (grids.findSome? binary.onGrid?).getD (binary.floorOn (binary.magnitude - 16))

end Binary

/-- The same decimal without zeros at its end. -/
def Digits.trim (decimal : Digits) : Digits :=
  let digits := (Nat.toDigits 10 decimal.digits)
  let kept := (digits.reverse.dropWhile (· == '0')).reverse
  ⟨decimal.digits / Nat.pow 10 (digits.length - kept.length),
    decimal.exponent + (digits.length - kept.length : Nat)⟩

end BuildPath.Decimal
