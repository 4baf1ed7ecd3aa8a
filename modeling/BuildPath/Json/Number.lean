import BuildPath.Decimal.Double

/-!
# JSON numbers

A number without fraction and exponent is an integer as long as it fits 64 bits, signed or unsigned;
every other one is a double. A double is scaled from its leading digits: as many as fit 64 bits are
taken as they are, further ones only count for the exponent, and a power of ten is multiplied in or
divided out. A number beyond the doubles is out of range.
-/

namespace BuildPath.Json

/-- A number as JSON distinguishes them. -/
inductive Number
  | integer (value : Int)
  | double (value : Float)

/-- The text of a number. -/
def Number.text : Number → String
  | .integer value => toString value
  | .double value => Decimal.doubleText value

/-- The parts of a number as written, in digits. -/
structure Numeral where
  negative : Bool
  whole : List Nat
  fraction : Option (List Nat)
  /-- The sign of the exponent, set if negative, and its digits. -/
  exponent : Option (Bool × List Nat)

namespace Numeral

/-- Leading digits that were taken, and how many digits after them were not. -/
structure Leading where
  significand : Nat
  left : Nat

/-- Takes digits after those of a significand, as long as it fits 64 bits. -/
def leading (significand : Nat) : List Nat → Leading
  | [] => ⟨significand, 0⟩
  | digit :: digits =>
    let longer := significand * 10 + digit
    if longer < Nat.pow 2 64 then leading longer digits else ⟨significand, digits.length + 1⟩

/-- The value of digits. -/
def natural (digits : List Nat) : Nat :=
  digits.foldl (fun value digit => value * 10 + digit) 0

/-- A power of ten as a double. -/
def powerOfTen (exponent : Nat) : Float :=
  Float.ofScientific 1 false exponent

/-- The magnitude of `significand * 10 ^ exponent`, or nothing if it is beyond the doubles. What is
too small is zero. -/
def scaled (significand : Nat) (exponent : Int) : Option Float :=
  let value := significand.toUInt64.toFloat
  if 308 < exponent then
    if significand == 0 then some 0 else none
  else if 0 ≤ exponent then
    let product := value * powerOfTen exponent.toNat
    if product.isInf then none else some product
  else if -308 ≤ exponent then some (value / powerOfTen (-exponent).toNat)
  else if -616 ≤ exponent then
    some (value / powerOfTen 308 / powerOfTen (-exponent - 308).toNat)
  else some 0

/-- The double of a significand and an exponent, with a written exponent added to it. An exponent
that does not fit 31 bits is out of range unless it makes the number zero. -/
def double? (negative : Bool) (significand : Nat) (exponent : Int)
    (written : Option (Bool × List Nat)) : Option Number := do
  let (down, digits) := written.getD (false, [])
  let shift := natural digits
  let magnitude ←
    if shift < Nat.pow 2 31 then
      scaled significand (if down then exponent - shift else exponent + shift)
    else if significand == 0 || down then some 0
    else none
  return .double (if negative then -magnitude else magnitude)

/-- The number of a numeral, or nothing if it is out of range. A zero with a minus is a double. -/
def number? (numeral : Numeral) : Option Number :=
  let whole := leading 0 numeral.whole
  match numeral.fraction with
  | some fraction =>
    let both := leading whole.significand fraction
    let taken := fraction.length - both.left
    double? numeral.negative both.significand ((whole.left : Int) - taken) numeral.exponent
  | none =>
    if 0 < whole.left || numeral.exponent.isSome then
      double? numeral.negative whole.significand whole.left numeral.exponent
    else if !numeral.negative then some (.integer whole.significand)
    else if whole.significand == 0 || Nat.pow 2 63 < whole.significand then
      double? true whole.significand 0 none
    else some (.integer (-(whole.significand : Int)))

end Numeral

end BuildPath.Json
