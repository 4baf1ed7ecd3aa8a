import BuildPath.Decimal.Shortest

/-!
# Doubles as text

A double is written with the fewest digits that read back, positionally while its decimal exponent
lies between -5 and 15, and otherwise with a signed exponent. A number without a fraction keeps a
zero after the point.
-/

namespace BuildPath.Decimal

/-- The magnitude of a finite double that is not zero. -/
def Binary.ofDouble (value : Float) : Binary :=
  let bits := value.toBits.toNat % Nat.pow 2 63
  let fraction := bits % Nat.pow 2 52
  let exponent : Nat := bits / Nat.pow 2 52
  if exponent == 0 then ⟨fraction, -1074, false⟩
  else ⟨fraction + Nat.pow 2 52, (exponent : Int) - 1075, fraction == 0 && 1 < exponent⟩

/-- Whether the sign bit of a double is set. -/
def isNegative (value : Float) : Bool :=
  Nat.pow 2 63 ≤ value.toBits.toNat

/-- Digits with the decimal point after as many of them as the exponent says. -/
def positional (digits : List Char) (exponent : Int) : List Char :=
  if exponent < 0 then '0' :: '.' :: List.replicate (-exponent - 1).toNat '0' ++ digits
  else
    let whole := exponent.toNat + 1
    let fraction := digits.drop whole
    digits.take whole ++ List.replicate (whole - digits.length) '0' ++
      '.' :: (if fraction.isEmpty then ['0'] else fraction)

/-- Digits with the decimal point after the first, and the exponent. -/
def scientific (digits : List Char) (exponent : Int) : List Char :=
  let fraction := digits.tail
  digits.take 1 ++ (if fraction.isEmpty then [] else '.' :: fraction) ++
    'e' :: (if exponent < 0 then '-' else '+') :: Nat.toDigits 10 exponent.natAbs

/-- The text of a finite double. -/
def doubleText (value : Float) : String :=
  let sign := if isNegative value then ['-'] else []
  if value == 0 then String.ofList (sign ++ ['0', '.', '0'])
  else
    let decimal := (Binary.ofDouble value).shortest.trim
    let digits := Nat.toDigits 10 decimal.digits
    let exponent := decimal.exponent + (digits.length : Int) - 1
    let shown := if -5 ≤ exponent && exponent ≤ 15 then positional digits exponent
      else scientific digits exponent
    String.ofList (sign ++ shown)

end BuildPath.Decimal
