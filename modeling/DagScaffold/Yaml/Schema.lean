import DagScaffold.Decimal.Shortest
import DagScaffold.Text.Hexadecimal

/-!
# What a plain text means

A text without quotes may stand for nothing, for a flag or for a number. The rules are those of the
core schema, but that a row of digits with a zero before it is a text.

* `Meaning`, `meaning` : what a text stands for;
* `integer?`, `number?`, `flag?`, `isNullWord` : the rules one by one.
-/

namespace DagScaffold.Yaml

open DagScaffold.Decimal

/-! ## Numbers -/

/-- A number of a document. -/
inductive Number where
  | integer (value : Int)
  | fraction (value : Binary64)
  | infinity (negative : Bool)
  | notANumber
  deriving DecidableEq, Repr

/-- Floating point numbers of a document have no sign before a positive exponent. -/
def numberStyle : FloatStyle :=
  ⟨false⟩

namespace Number

/-- The text of a number. -/
def text : Number → String
  | integer n => toString n
  | fraction x => numberStyle.render x
  | infinity negative => if negative then "-.inf" else ".inf"
  | notANumber => ".nan"

/-- Whether two numbers are the same. The two zeros among the fractions are. -/
def same : Number → Number → Bool
  | fraction x, fraction y => x = y || (x.isZero && y.isZero)
  | x, y => x = y

end Number

/-- The value of a digit to a base of at most sixteen. -/
def digit? (base : Nat) (c : Char) : Option Nat :=
  (Text.hexValue c).filter (· < base)

/-- The number that a row of digits writes, of which there must be one. -/
def digits? (base : Nat) (cs : List Char) : Option Nat :=
  if cs.isEmpty then none
  else cs.foldlM (fun n c => (digit? base c).map (base * n + ·)) 0

/-- The number that digits without a sign write, to the base that their front tells. -/
def magnitude? : List Char → Option Nat
  | '0' :: 'x' :: cs => digits? 16 cs
  | '0' :: 'o' :: cs => digits? 8 cs
  | '0' :: 'b' :: cs => digits? 2 cs
  | cs => digits? 10 cs

/-- The text without a sign at its front. -/
def unsigned : List Char → List Char
  | '+' :: cs => cs
  | '-' :: cs => cs
  | cs => cs

/-- Whether a text is a row of digits with a needless zero before it, up to a sign. -/
def hasNeedlessZero (cs : List Char) : Bool :=
  match unsigned cs with
  | '0' :: c :: rest => (c :: rest).all Char.isDigit
  | _ => false

/-- The integer that a text writes. -/
def integer? (cs : List Char) : Option Int :=
  if hasNeedlessZero cs then none
  else
    match cs with
    | '-' :: rest => (magnitude? rest).map fun n => -(n : Int)
    | '+' :: rest => (magnitude? rest).map fun n => (n : Int)
    | rest => (magnitude? rest).map fun n => (n : Int)

/-- The power of ten that an exponent writes; `none` for a text that is no exponent. -/
def exponent? : List Char → Option Int
  | [] => some 0
  | e :: cs =>
    if e = 'e' ∨ e = 'E' then
      match cs with
      | '-' :: ds => (digits? 10 ds).map fun n => -(n : Int)
      | '+' :: ds => (digits? 10 ds).map fun n => (n : Int)
      | ds => (digits? 10 ds).map fun n => (n : Int)
    else none

/-- The number that digits with a point or an exponent write; `none` when it is beyond the
format. -/
def decimal? (negative : Bool) (cs : List Char) : Option Binary64 :=
  let whole := cs.takeWhile Char.isDigit
  let rest := cs.dropWhile Char.isDigit
  let places := if rest.head? = some '.' then rest.tail.takeWhile Char.isDigit else []
  let rest := if rest.head? = some '.' then rest.tail.dropWhile Char.isDigit else rest
  match digits? 10 (whole ++ places), exponent? rest with
  | some n, some e => Binary64.ofDecimal negative n (e - places.length)
  | _, _ => none

/-- The floating point number that a text writes. -/
def fraction? (cs : List Char) : Option Number :=
  if cs ∈ [['.', 'n', 'a', 'n'], ['.', 'N', 'a', 'N'], ['.', 'N', 'A', 'N']] then some .notANumber
  else
    let negative := cs.head? = some '-'
    let rest := unsigned cs
    if rest ∈ [['.', 'i', 'n', 'f'], ['.', 'I', 'n', 'f'], ['.', 'I', 'N', 'F']] then
      some (.infinity negative)
    else (decimal? negative rest).map .fraction

/-! ## Words -/

/-- Whether a text is a word for nothing. -/
def isNullWord (s : String) : Bool :=
  s ∈ ["null", "Null", "NULL", "~"]

/-- The flag that a text is a word for. -/
def flag? (s : String) : Option Bool :=
  if s ∈ ["true", "True", "TRUE"] then some true
  else if s ∈ ["false", "False", "FALSE"] then some false
  else none

/-! ## Meanings -/

/-- What a text stands for. -/
inductive Meaning where
  | null
  | flag (value : Bool)
  | number (value : Number)
  /-- An integer of more than 64 and at most 128 bits, which nothing can hold. -/
  | oversized
  | text
  deriving DecidableEq, Repr

/-- Whether an integer has at most `bits` bits, or at most that many with its sign. -/
def fits (bits : Nat) (n : Int) : Bool :=
  -(Nat.pow 2 (bits - 1) : Int) ≤ n && n < (Nat.pow 2 bits : Int)

/-- What a text stands for as an integer, if it writes one that is not too large to be called so. -/
def integerMeaning? (cs : List Char) : Option Meaning :=
  match integer? cs with
  | none => none
  | some n =>
    if fits 64 n then some (.number (.integer n))
    else if fits 128 n then some .oversized
    else none

/-- What a plain text stands for. -/
def meaning (s : String) : Meaning :=
  if s = "" || isNullWord s then .null
  else
    match flag? s with
    | some b => .flag b
    | none =>
      match integerMeaning? s.toList with
      | some m => m
      | none =>
        if hasNeedlessZero s.toList then .text
        else
          match fraction? s.toList with
          | some x => .number x
          | none => .text

end DagScaffold.Yaml
