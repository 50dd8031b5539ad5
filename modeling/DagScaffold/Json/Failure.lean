import DagScaffold.Record.Mismatch

/-!
# Failures of reading a JSON text

A reader works on the rest of the text alone. Where it fails it notes how many bytes were left, and
the place in the text is computed from that number once the failure reaches the caller.

* `Cause`, `Cause.message`, `Cause.category` : what went wrong;
* `Failure` : a cause and the bytes left when it was noticed;
* `Position.at`, `Failure.message` : the place of a failure in the text.
-/

namespace DagScaffold.Json

open DagScaffold.Record

/-! ## Causes -/

/-- What is wrong with a JSON text. -/
inductive Cause where
  | eofInValue
  | eofInList
  | eofInObject
  | eofInString
  | expectedColon
  | expectedListCommaOrEnd
  | expectedObjectCommaOrEnd
  | expectedIdent
  | expectedValue
  | invalidEscape
  | invalidNumber
  | numberOutOfRange
  | loneSurrogate
  | unexpectedEndOfHexEscape
  | controlCharacter
  | keyMustBeText
  | trailingComma
  | trailingCharacters
  | mismatch (reason : Mismatch)
  deriving DecidableEq, Repr

/-- The three ways in which a text can fail: it breaks the grammar, its values do not fit the
record, or it ends too early. -/
inductive Category where
  | grammar
  | data
  | ended
  deriving DecidableEq, Repr

namespace Cause

/-- The category of a cause. -/
def category : Cause → Category
  | eofInValue | eofInList | eofInObject | eofInString => .ended
  | mismatch _ => .data
  | _ => .grammar

/-- The wording of a cause. -/
def message : Cause → String
  | eofInValue => "EOF while parsing a value"
  | eofInList => "EOF while parsing a list"
  | eofInObject => "EOF while parsing an object"
  | eofInString => "EOF while parsing a string"
  | expectedColon => "expected `:`"
  | expectedListCommaOrEnd => "expected `,` or `]`"
  | expectedObjectCommaOrEnd => "expected `,` or `\x7d`"
  | expectedIdent => "expected ident"
  | expectedValue => "expected value"
  | invalidEscape => "invalid escape"
  | invalidNumber => "invalid number"
  | numberOutOfRange => "number out of range"
  | loneSurrogate => "lone leading surrogate in hex escape"
  | unexpectedEndOfHexEscape => "unexpected end of hex escape"
  | controlCharacter => "control character (\\u0000-\\u001F) found while parsing a string"
  | keyMustBeText => "key must be a string"
  | trailingComma => "trailing comma"
  | trailingCharacters => "trailing characters"
  | mismatch reason => reason.message

end Cause

/-! ## Places -/

/-- The number of bytes of the UTF-8 form of a text. -/
def byteCount (cs : List Char) : Nat :=
  cs.foldr (fun c n => c.utf8Size + n) 0

/-- A line, counted from one, and the number of bytes before the place in that line. -/
structure Position where
  line : Nat
  column : Nat
  deriving DecidableEq, Repr

/-- The position `n` bytes after the position `p` at which the text `cs` starts. -/
def Position.advance (p : Position) : Nat → List Char → Position
  | _, [] => p
  | n, c :: cs =>
    if n < c.utf8Size then ⟨p.line, p.column + n⟩
    else if c = '\n' then Position.advance ⟨p.line + 1, 0⟩ (n - c.utf8Size) cs
    else Position.advance ⟨p.line, p.column + c.utf8Size⟩ (n - c.utf8Size) cs

/-- A cause and the number of bytes that were left unread when it was noticed. -/
structure Failure where
  cause : Cause
  left : Nat
  deriving DecidableEq, Repr

namespace Failure

/-- A failure noticed before the rest of the text. -/
def before (cause : Cause) (rest : List Char) : Failure :=
  ⟨cause, byteCount rest⟩

/-- A failure noticed on the first byte of the rest of the text. -/
def on (cause : Cause) (rest : List Char) : Failure :=
  ⟨cause, byteCount rest - 1⟩

/-- A failure noticed `n` bytes into the rest of the text. -/
def past (cause : Cause) (n : Nat) (rest : List Char) : Failure :=
  ⟨cause, byteCount rest - n⟩

/-- Where the failure lies in the text that was read. -/
def position (f : Failure) (text : String) : Position :=
  Position.advance ⟨1, 0⟩ (byteCount text.toList - f.left) text.toList

/-- The wording of a failure of reading `text`. -/
def message (f : Failure) (text : String) : String :=
  let p := f.position text
  f.cause.message ++ " at line " ++ toString p.line ++ " column " ++ toString p.column

end Failure

end DagScaffold.Json
