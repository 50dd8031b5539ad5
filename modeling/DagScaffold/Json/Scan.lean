import DagScaffold.Json.Failure
import DagScaffold.Text.Hexadecimal

/-!
# The parts of a JSON text

Blanks, words, texts between quotes and numbers, each read from the front of a text, and the passing
over of a whole value that nobody asks for.

* `skipBlanks`, `word` : blanks and the words `null`, `true` and `false`;
* `quoted`, `skipQuoted` : the rest of a text after its opening quote;
* `number` : a number, as an integer of 64 bits where it is one and else as a floating point number;
* `skipValue` : any value.

Passing over a value is more lenient than reading one: it takes numbers of any size and lone halves
of a surrogate pair, and it reports a comma before a closing bracket as a missing value.
-/

namespace DagScaffold.Json

open DagScaffold.Decimal DagScaffold.Record

/-- The outcome of reading something from the front of a text. -/
abbrev Outcome (α : Type) := Except Failure (α × List Char)

/-! ## Blanks and words -/

/-- Whether a character may stand between the parts of a text. -/
def isSeparator (c : Char) : Bool :=
  c = ' ' || c = '\n' || c = '\t' || c = '\r'

/-- The text after the blanks at its front. -/
def skipBlanks (cs : List Char) : List Char :=
  cs.dropWhile isSeparator

/-- The text after the given letters. -/
def word : List Char → List Char → Except Failure (List Char)
  | [], cs => .ok cs
  | _ :: _, [] => .error (.before .eofInValue [])
  | e :: es, c :: cs => if c = e then word es cs else .error (.on .expectedIdent (c :: cs))

/-! ## Texts between quotes -/

/-- The character that a one letter escape stands for. -/
def simpleEscape (c : Char) : Option Char :=
  match c with
  | '"' => some '"'
  | '\\' => some '\\'
  | '/' => some '/'
  | 'b' => some '\x08'
  | 'f' => some '\x0c'
  | 'n' => some '\n'
  | 'r' => some '\r'
  | 't' => some '\t'
  | _ => none

/-- Whether `n` is the first half of a surrogate pair. -/
def isHighSurrogate (n : Nat) : Bool :=
  0xd800 ≤ n && n ≤ 0xdbff

/-- Whether `n` is the second half of a surrogate pair. -/
def isLowSurrogate (n : Nat) : Bool :=
  0xdc00 ≤ n && n ≤ 0xdfff

/-- The character of a surrogate pair. -/
def pairValue (high low : Nat) : Char :=
  Char.ofNat ((high - 0xd800) * 0x400 + (low - 0xdc00) + 0x10000)

/-- Where the reading of a text between quotes stands: between characters, after a backslash, within
the four digits of an escape (`count` of them read, with the first half of a pair if one came
before), or before the backslash or the letter `u` of the second half of a pair. -/
inductive QuotedState where
  | plain
  | escape
  | digits (count value : Nat) (high : Option Nat)
  | secondBackslash (high : Nat)
  | secondLetter (high : Nat)
  deriving DecidableEq, Repr

/-- The failure of an escape whose next digit, after `count` others, is missing from `rest`. -/
def brokenDigits (count : Nat) (rest : List Char) : Failure :=
  if byteCount rest < 4 - count then .before .eofInString []
  else .past .invalidEscape (4 - count) rest

/-- The rest of a text between quotes, and what follows the closing quote. -/
def quotedFrom : QuotedState → List Char → Outcome (List Char)
  | _, [] => .error (.before .eofInString [])
  | .plain, c :: cs =>
    if c = '"' then .ok ([], cs)
    else if c = '\\' then quotedFrom .escape cs
    else if c.toNat < 0x20 then .error (.before .controlCharacter cs)
    else (quotedFrom .plain cs).map fun r => (c :: r.1, r.2)
  | .escape, c :: cs =>
    if c = 'u' then quotedFrom (.digits 0 0 none) cs
    else
      match simpleEscape c with
      | some d => (quotedFrom .plain cs).map fun r => (d :: r.1, r.2)
      | none => .error (.on .invalidEscape (c :: cs))
  | .digits count value high, c :: cs =>
    match Text.hexValue c with
    | none => .error (brokenDigits count (c :: cs))
    | some d =>
      let n := 16 * value + d
      if count < 3 then quotedFrom (.digits (count + 1) n high) cs
      else
        match high with
        | none =>
          if isLowSurrogate n then .error (.before .loneSurrogate cs)
          else if isHighSurrogate n then quotedFrom (.secondBackslash n) cs
          else (quotedFrom .plain cs).map fun r => (Char.ofNat n :: r.1, r.2)
        | some h =>
          if isLowSurrogate n then
            (quotedFrom .plain cs).map fun r => (pairValue h n :: r.1, r.2)
          else .error (.before .loneSurrogate cs)
  | .secondBackslash high, c :: cs =>
    if c = '\\' then quotedFrom (.secondLetter high) cs
    else .error (.on .unexpectedEndOfHexEscape (c :: cs))
  | .secondLetter high, c :: cs =>
    if c = 'u' then quotedFrom (.digits 0 0 (some high)) cs
    else .error (.on .unexpectedEndOfHexEscape (c :: cs))

/-- The text whose opening quote has been read, and what follows its closing quote. -/
def quoted (cs : List Char) : Outcome String :=
  (quotedFrom .plain cs).map fun r => (String.ofList r.1, r.2)

/-- What follows the closing quote of a text that nobody asks for. -/
def skipQuotedFrom : QuotedState → List Char → Except Failure (List Char)
  | _, [] => .error (.before .eofInString [])
  | .escape, c :: cs =>
    if c = 'u' then skipQuotedFrom (.digits 0 0 none) cs
    else
      match simpleEscape c with
      | some _ => skipQuotedFrom .plain cs
      | none => .error (.on .invalidEscape (c :: cs))
  | .digits count _ _, c :: cs =>
    match Text.hexValue c with
    | none => .error (brokenDigits count (c :: cs))
    | some _ =>
      if count < 3 then skipQuotedFrom (.digits (count + 1) 0 none) cs else skipQuotedFrom .plain cs
  | _, c :: cs =>
    if c = '"' then .ok cs
    else if c = '\\' then skipQuotedFrom .escape cs
    else if c.toNat < 0x20 then .error (.before .controlCharacter (c :: cs))
    else skipQuotedFrom .plain cs

/-- What follows the closing quote of a text whose opening quote has been read. -/
def skipQuoted (cs : List Char) : Except Failure (List Char) :=
  skipQuotedFrom .plain cs

/-! ## Numbers -/

/-- A number of a JSON text. -/
inductive Number where
  | integer (value : Int)
  | fraction (value : Binary64)
  deriving DecidableEq, Repr

namespace Number

/-- The description of a number in a report. -/
def found : Number → Found
  | integer n => .integer n
  | fraction x => .fraction x

end Number

/-- The greatest number of 64 bits. -/
def maxWord : Nat :=
  18446744073709551615

/-- The digits at the front of a text, and what follows them. -/
def digitRun (cs : List Char) : List Char × List Char :=
  cs.span Char.isDigit

/-- The value of a digit. -/
def digitValue (c : Char) : Nat :=
  c.toNat - '0'.toNat

/-- Appends digits to a number as long as it stays within 64 bits; the digits that are left. -/
def absorb : Nat → List Char → Nat × List Char
  | n, [] => (n, [])
  | n, c :: cs =>
    let m := 10 * n + digitValue c
    if maxWord < m then (n, c :: cs) else absorb m cs

/-- The powers of ten as floating point numbers; `none` beyond the format. -/
def powerOfTen (k : Nat) : Option Binary64 :=
  Binary64.ofDecimal false 1 k

/-- Multiplies by `10 ^ exponent` in at most `fuel + 1` steps, each of which rounds: one step
settles an exponent of at most 308, a longer way down goes by steps of 308. `none` beyond the
format. -/
def scaleInSteps : Nat → Binary64 → Int → Option Binary64
  | fuel, x, exponent =>
    match powerOfTen exponent.natAbs with
    | some p => if 0 ≤ exponent then x.mul p else x.div p
    | none =>
      if x.isZero then some x
      else if 0 ≤ exponent then none
      else
        match fuel, powerOfTen 308 with
        | fuel + 1, some p => (x.div p).bind fun y => scaleInSteps fuel y (exponent + 308)
        | _, _ => some (.zero false)

/-- The floating point number of the digits `significand` and a power of ten. -/
def floatOf (negative : Bool) (significand : Nat) (exponent : Int) : Option Binary64 :=
  (Binary64.ofQuotient false significand 1).bind fun x =>
    (scaleInSteps 4 x exponent).map fun y => { y with negative }

/-- The greatest exponent that is taken digit by digit. -/
def maxExponent : Nat :=
  2147483647

/-- The number that the digits of an exponent write, or what follows the digit that takes it beyond
`maxExponent`. -/
def exponentValue : Nat → List Char → Except (List Char) Nat
  | n, [] => .ok n
  | n, c :: cs =>
    let m := 10 * n + digitValue c
    if maxExponent < m then .error cs else exponentValue m cs

/-- Reads the exponent after its letter, for the digits `significand` and the power of ten that the
places before it give. -/
def exponentPart (negative : Bool) (significand : Nat) (exponent : Int) (cs : List Char) :
    Outcome Number :=
  let (down, cs) :=
    match cs with
    | '+' :: r => (false, r)
    | '-' :: r => (true, r)
    | r => (false, r)
  match cs with
  | [] => .error (.before .eofInValue [])
  | c :: r =>
    if c.isDigit then
      let (ds, rest) := digitRun (c :: r)
      match exponentValue 0 ds with
      | .ok n =>
        match floatOf negative significand (if down then exponent - n else exponent + n) with
        | some x => .ok (.fraction x, rest)
        | none => .error (.before .numberOutOfRange rest)
      | .error left =>
        if significand ≠ 0 ∧ !down then .error (.before .numberOutOfRange (left ++ rest))
        else .ok (.fraction (.zero negative), rest)
    else .error (.on .invalidNumber (c :: r))

/-- Reads what follows the digits before the point. -/
def fractionPart (negative : Bool) (significand : Nat) (exponent : Int) (cs : List Char) :
    Outcome Number :=
  match cs with
  | '.' :: r =>
    match digitRun r with
    | ([], []) => .error (.before .eofInValue [])
    | ([], c :: rest) => .error (.on .invalidNumber (c :: rest))
    | (ds, rest) =>
      let (significand, left) := absorb significand ds
      let exponent := exponent - ((ds.length : Int) - left.length)
      match rest with
      | 'e' :: rest => exponentPart negative significand exponent rest
      | 'E' :: rest => exponentPart negative significand exponent rest
      | rest =>
        match floatOf negative significand exponent with
        | some x => .ok (.fraction x, rest)
        | none => .error (.before .numberOutOfRange rest)
  | 'e' :: r => exponentPart negative significand exponent r
  | 'E' :: r => exponentPart negative significand exponent r
  | r =>
    match floatOf negative significand exponent with
    | some x => .ok (.fraction x, r)
    | none => .error (.before .numberOutOfRange r)

/-- Whether a number goes on after its leading digits with a point or an exponent. -/
def continues : List Char → Bool
  | c :: _ => c = '.' || c = 'e' || c = 'E'
  | [] => false

/-- Reads a number after its sign. -/
def number (negative : Bool) (cs : List Char) : Outcome Number :=
  match cs with
  | [] => .error (.before .eofInValue [])
  | c :: r =>
    if c = '0' then
      match r with
      | d :: _ =>
        if d.isDigit then .error (.on .invalidNumber r)
        else if continues r then fractionPart negative 0 0 r
        else if negative then .ok (.fraction (.zero true), r)
        else .ok (.integer 0, r)
      | [] => .ok (if negative then .fraction (.zero true) else .integer 0, [])
    else if c.isDigit then
      let (ds, rest) := digitRun (c :: r)
      let (n, left) := absorb 0 ds
      if left.isEmpty && !continues rest then
        if !negative then .ok (.integer n, rest)
        else if n ≤ 9223372036854775808 then .ok (.integer (-n), rest)
        else
          match floatOf true n 0 with
          | some x => .ok (.fraction x, rest)
          | none => .error (.before .numberOutOfRange rest)
      else fractionPart negative n left.length rest
    else .error (.on .invalidNumber (c :: r))

/-! ## Passing over a value -/

/-- What follows the exponent of a number, whose letter has been read. -/
def skipExponent (cs : List Char) : Except Failure (List Char) :=
  let cs :=
    match cs with
    | '+' :: r => r
    | '-' :: r => r
    | r => r
  match cs with
  | c :: r => if c.isDigit then .ok (digitRun r).2 else .error (.on .invalidNumber (c :: r))
  | [] => .error (.before .invalidNumber [])

/-- What follows the part of a number after its leading digits. -/
def skipFraction (cs : List Char) : Except Failure (List Char) :=
  match cs with
  | '.' :: r =>
    match digitRun r with
    | ([], rest) => .error (.on .invalidNumber rest)
    | (_, 'e' :: rest) => skipExponent rest
    | (_, 'E' :: rest) => skipExponent rest
    | (_, rest) => .ok rest
  | 'e' :: r => skipExponent r
  | 'E' :: r => skipExponent r
  | r => .ok r

/-- What follows a number, whose sign has been read. -/
def skipNumber (cs : List Char) : Except Failure (List Char) :=
  match cs with
  | [] => .error (.before .invalidNumber [])
  | c :: r =>
    if c = '0' then
      match r with
      | d :: _ => if d.isDigit then .error (.on .invalidNumber r) else skipFraction r
      | [] => .ok []
    else if c.isDigit then skipFraction (digitRun r).2
    else .error (.on .invalidNumber (c :: r))

/-- An open bracket of a value that is passed over. -/
inductive Bracket where
  | list
  | map
  deriving DecidableEq, Repr

namespace Bracket

/-- The character that closes the bracket. -/
def close : Bracket → Char
  | list => ']'
  | map => '\x7d'

/-- The text that ends within the bracket. -/
def ended : Bracket → Cause
  | list => .eofInList
  | map => .eofInObject

/-- The text that goes on within the bracket without a comma. -/
def missingComma : Bracket → Cause
  | list => .expectedListCommaOrEnd
  | map => .expectedObjectCommaOrEnd

end Bracket

/-- What follows a key and its colon, at the place of a key. -/
def skipKey (cs : List Char) : Except Failure (List Char) :=
  match skipBlanks cs with
  | '"' :: r =>
    (skipQuoted r).bind fun rest =>
      match skipBlanks rest with
      | ':' :: after => .ok after
      | [] => .error (.on .eofInObject [])
      | other => .error (.on .expectedColon other)
  | [] => .error (.on .eofInObject [])
  | other => .error (.on .keyMustBeText other)

/-- Where the passing over of a value stands: before a value, after one, or after an open
bracket. -/
inductive SkipState where
  | value
  | after
  | opened
  deriving DecidableEq, Repr

/-- Passes over a value and all that the open brackets, innermost first, still enclose. -/
def skipFrom : Nat → SkipState → List Bracket → List Char → Except Failure (List Char)
  | 0, _, _, cs => .ok cs
  | fuel + 1, .value, outer, cs =>
    match skipBlanks cs with
    | [] => .error (.on .eofInValue [])
    | c :: r =>
      if c = 'n' then (word ['u', 'l', 'l'] r).bind (skipFrom fuel .after outer)
      else if c = 't' then (word ['r', 'u', 'e'] r).bind (skipFrom fuel .after outer)
      else if c = 'f' then (word ['a', 'l', 's', 'e'] r).bind (skipFrom fuel .after outer)
      else if c = '-' then (skipNumber r).bind (skipFrom fuel .after outer)
      else if c.isDigit then (skipNumber (c :: r)).bind (skipFrom fuel .after outer)
      else if c = '"' then (skipQuoted r).bind (skipFrom fuel .after outer)
      else if c = '[' then skipFrom fuel .opened (.list :: outer) r
      else if c = '\x7b' then skipFrom fuel .opened (.map :: outer) r
      else .error (.on .expectedValue (c :: r))
  | _ + 1, _, [], cs => .ok cs
  | fuel + 1, state, b :: outer, cs =>
    match skipBlanks cs with
    | [] => .error (.on b.ended [])
    | c :: r =>
      if state = .after && c = ',' then
        match b with
        | .list => skipFrom fuel .value (b :: outer) r
        | .map => (skipKey r).bind (skipFrom fuel .value (b :: outer))
      else if c = b.close then skipFrom fuel .after outer r
      else if state = .after then .error (.on b.missingComma (c :: r))
      else
        match b with
        | .list => skipFrom fuel .value (b :: outer) (c :: r)
        | .map => (skipKey (c :: r)).bind (skipFrom fuel .value (b :: outer))

/-- What follows a value of any kind. Every other step reads a character of the text. -/
def skipValue (cs : List Char) : Except Failure (List Char) :=
  skipFrom (2 * cs.length + 2) .value [] cs

end DagScaffold.Json
