import DagScaffold.Decimal.Binary64

/-!
# The shortest decimal of a floating point number

The shortest decimal of a number is the one with the fewest digits among those that round to it, and
the nearest to it among these. For each count of digits the two neighbours of the number on the grid
of decimals with that many digits are tried.

* `shortest` : the digits and the power of ten;
* `FloatStyle`, `render` : the written form, positional between `10 ^ (-5)` and `10 ^ 16`.
-/

namespace DagScaffold.Decimal

/-! ## Digits -/

/-- The exponent of the greatest power of ten that is at most `num / den`, both being positive. -/
def decimalOrder (num den : Nat) : Int :=
  let guess : Int := ((Nat.toDigits 10 num).length : Int) - (Nat.toDigits 10 den).length
  let reaches : Bool :=
    match guess with
    | .ofNat k => decide (den * Nat.pow 10 k ≤ num)
    | .negSucc k => decide (den ≤ num * Nat.pow 10 (k + 1))
  if reaches then guess else guess - 1

/-- The quotient `num / den` divided by `10 ^ k`, as a fraction. -/
def scaleByTen (num den : Nat) : Int → Nat × Nat
  | .ofNat k => (num, den * Nat.pow 10 k)
  | .negSucc k => (num * Nat.pow 10 (k + 1), den)

/-- The interval of the reals that round to a number, over a common denominator: its ends, the
number itself and whether the ends belong to it. -/
structure Interval where
  low : Nat
  value : Nat
  high : Nat
  den : Nat
  closed : Bool

/-- The reals that round to `m * 2 ^ e`, in quarters of a unit of the last place. -/
def Interval.ofNumber (m : Nat) (e : Int) : Interval :=
  let quarter := scaleBy 1 1 (-(e - 2))
  let below := if m = leastNormal && decide (-1074 < e) then 1 else 2
  ⟨(4 * m - below) * quarter.1, 4 * m * quarter.1, (4 * m + 2) * quarter.1, quarter.2, m % 2 == 0⟩

/-- Whether `c * 10 ^ k` lies in the interval. -/
def Interval.holds (i : Interval) (c : Nat) (k : Int) : Bool :=
  let f : Nat × Nat :=
    match k with
    | .ofNat n => (c * Nat.pow 10 n, 1)
    | .negSucc n => (c, Nat.pow 10 (n + 1))
  let x := f.1 * i.den
  if i.closed then decide (i.low * f.2 ≤ x) && decide (x ≤ i.high * f.2)
  else decide (i.low * f.2 < x) && decide (x < i.high * f.2)

/-- The better of the two neighbours of the number on the grid of `10 ^ k`, if one lies in the
interval: the nearer one, and the even one of two equally near ones. -/
def Interval.neighbour (i : Interval) (k : Int) : Option Nat :=
  let f := scaleByTen i.value i.den k
  let below := f.1 / f.2
  match i.holds below k, i.holds (below + 1) k with
  | true, true => some (roundToEven f.1 f.2)
  | true, false => some below
  | false, true => some (below + 1)
  | false, false => none

/-- The first grid with a hit, trying `count` grids from that of `10 ^ k` downwards. -/
def Interval.search (i : Interval) : Nat → Int → Nat × Int
  | 0, k => (i.value / i.den, k)
  | count + 1, k =>
    match i.neighbour k with
    | some c => (c, k)
    | none => i.search count (k - 1)

/-- The number without its trailing zeros, each of which moves the power of ten. -/
def dropZeros : Nat → Nat → Int → Nat × Int
  | 0, c, k => (c, k)
  | fuel + 1, c, k => if c ≠ 0 ∧ c % 10 = 0 then dropZeros fuel (c / 10) (k + 1) else (c, k)

/-- The digits and the power of ten of the shortest decimal of a positive magnitude. -/
def shortest (x : Binary64) : Nat × Int :=
  let i := Interval.ofNumber x.mantissa x.exponent
  let found := i.search 17 (decimalOrder i.value i.den)
  dropZeros 20 found.1 found.2

/-! ## The written form -/

/-- How a floating point number is written: whether a positive exponent has a sign. -/
structure FloatStyle where
  plusInExponent : Bool

/-- The exponent part of a number in scientific form. -/
def FloatStyle.exponent (style : FloatStyle) (e : Int) : List Char :=
  'e' :: (if style.plusInExponent && decide (0 ≤ e) then ['+'] else []) ++ (toString e).toList

/-- The digits `ds`, of which `place` stand before the point, in the form that the place calls
for. -/
def FloatStyle.layout (style : FloatStyle) (ds : List Char) (place : Int) : List Char :=
  if (ds.length : Int) ≤ place ∧ place ≤ 16 then
    ds ++ List.replicate (place.toNat - ds.length) '0' ++ ['.', '0']
  else if 0 < place ∧ place ≤ 16 then ds.take place.toNat ++ '.' :: ds.drop place.toNat
  else if -5 < place ∧ place ≤ 0 then '0' :: '.' :: List.replicate (-place).toNat '0' ++ ds
  else
    match ds with
    | [] => []
    | [d] => d :: style.exponent (place - 1)
    | d :: rest => d :: '.' :: rest ++ style.exponent (place - 1)

/-- The shortest written form of a number. -/
def FloatStyle.render (style : FloatStyle) (x : Binary64) : String :=
  let sign := if x.negative then ['-'] else []
  if x.isZero then .ofList (sign ++ ['0', '.', '0'])
  else
    let d := shortest x
    let ds := Nat.toDigits 10 d.1
    .ofList (sign ++ style.layout ds (d.2 + ds.length))

end DagScaffold.Decimal
