/-!
# Floating point numbers of 64 bits

A finite number of the format is a sign and `mantissa * 2 ^ exponent`, with a mantissa below
`2 ^ 53` and an exponent between `-1074` and `971`. Every operation takes the exact rational result
and rounds it once, to the nearest number of the format and to the even mantissa of two equally near
ones.

* `nearest` : rounding a quotient of natural numbers;
* `Binary64.ofDecimal` : the number nearest to a decimal;
* `Binary64.mul`, `Binary64.div` : the rounded product and quotient, `none` when out of range.
-/

namespace DagScaffold.Decimal

/-! ## Rounding a quotient -/

/-- The quotient `num / den` divided by `2 ^ e`, as a fraction. -/
def scaleBy (num den : Nat) : Int → Nat × Nat
  | .ofNat k => (num, den * Nat.pow 2 k)
  | .negSucc k => (num * Nat.pow 2 (k + 1), den)

/-- The exponent of the greatest power of two that is at most `num / den`, both being positive. -/
def binaryOrder (num den : Nat) : Int :=
  let guess : Int := (Nat.log2 num : Int) - (Nat.log2 den : Int)
  let scaled := scaleBy num den guess
  if scaled.2 ≤ scaled.1 then guess else guess - 1

/-- The whole number nearest to `num / den`, and the even one of two equally near ones. -/
def roundToEven (num den : Nat) : Nat :=
  let q := num / den
  let r := num % den
  if den < 2 * r || (2 * r == den && q % 2 == 1) then q + 1 else q

/-- The least mantissa of 53 binary digits, which all but the smallest numbers have. -/
def leastNormal : Nat := 4503599627370496

/-- The mantissa and exponent nearest to `num / den`, whose exponent may exceed that of the
format. -/
def nearest (num den : Nat) : Nat × Int :=
  if num = 0 then (0, -1074)
  else
    let e := max (binaryOrder num den - 52) (-1074)
    let scaled := scaleBy num den e
    let m := roundToEven scaled.1 scaled.2
    if m = 2 * leastNormal then (leastNormal, e + 1) else (m, e)

/-! ## The numbers -/

/-- A finite floating point number. -/
structure Binary64 where
  negative : Bool
  mantissa : Nat
  exponent : Int
  deriving DecidableEq, Repr

namespace Binary64

/-- The number nearest to `num / den` with the given sign; `none` when it exceeds the format. -/
def ofQuotient (negative : Bool) (num den : Nat) : Option Binary64 :=
  let r := nearest num den
  if 971 < r.2 then none else some ⟨negative, r.1, r.2⟩

/-- The number zero with a sign. -/
def zero (negative : Bool) : Binary64 :=
  ⟨negative, 0, -1074⟩

/-- Whether the number is a zero of either sign. -/
def isZero (x : Binary64) : Bool :=
  x.mantissa == 0

/-- The numerator and denominator of the magnitude. -/
def fraction (x : Binary64) : Nat × Nat :=
  scaleBy x.mantissa 1 (-x.exponent)

/-- The number nearest to `digits * 10 ^ exponent`. The magnitude alone settles decimals far outside
the format. -/
def ofDecimal (negative : Bool) (digits : Nat) (exponent : Int) : Option Binary64 :=
  let order := exponent + (Nat.toDigits 10 digits).length
  if digits = 0 || order < -330 then some (zero negative)
  else if 310 < order then none
  else
    match exponent with
    | .ofNat k => ofQuotient negative (digits * Nat.pow 10 k) 1
    | .negSucc k => ofQuotient negative digits (Nat.pow 10 (k + 1))

/-- The number nearest to the product. -/
def mul (x y : Binary64) : Option Binary64 :=
  let a := x.fraction
  let b := y.fraction
  ofQuotient (x.negative != y.negative) (a.1 * b.1) (a.2 * b.2)

/-- The number nearest to the quotient by a number other than zero. -/
def div (x y : Binary64) : Option Binary64 :=
  let a := x.fraction
  let b := y.fraction
  ofQuotient (x.negative != y.negative) (a.1 * b.2) (a.2 * b.1)

end Binary64

end DagScaffold.Decimal
