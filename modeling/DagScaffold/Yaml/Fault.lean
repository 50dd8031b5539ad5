/-!
# Faults of YAML texts

Why a text is no YAML document, or a document not the value that is asked for.
-/

namespace DagScaffold.Yaml

/-- Why a text or its document is refused. -/
inductive Fault where
  /-- A character that no text may hold. -/
  | character
  /-- A character that starts nothing in its place. -/
  | unexpectedStart
  /-- A key that its line ends before the colon. -/
  | missingColon
  /-- An indicator where its line cannot have one. -/
  | misplacedIndicator
  /-- A tab where only spaces can make the indentation. -/
  | tabInIndentation
  | directive
  | anchor
  | tag
  /-- A text between quotes that does not end, or a wrong escape in it. -/
  | quoted
  /-- A text over indented lines that are to be no deeper than what is around them. -/
  | blockHeader
  /-- More than blanks and a comment at the end of a line. -/
  | lineEnd
  /-- A colon within a plain text between brackets. -/
  | colonInBrackets
  /-- Parts that do not make up a document. -/
  | grammar
  | undefinedHandle
  | unknownAlias
  /-- More than one document in a text that must hold one. -/
  | furtherDocument
  /-- A value of another kind than the one that is asked for. -/
  | wrongKind
  | duplicateKey
  /-- Collections nested too deeply. -/
  | depth
  /-- Aliases that are followed too often. -/
  | repetition
  deriving DecidableEq, Repr

/-- The wording of a fault. -/
def Fault.message : Fault → String
  | character => "a character that no document may hold"
  | unexpectedStart => "a character that starts nothing"
  | missingColon => "a key without a colon"
  | misplacedIndicator => "an item, a key or a value where none can be"
  | tabInIndentation => "a tab in the indentation"
  | directive => "a directive that cannot be understood"
  | anchor => "an anchor or an alias without a name"
  | tag => "a tag that cannot be understood"
  | quoted => "a text between quotes that does not end or holds a wrong escape"
  | blockHeader => "a text over lines without indentation"
  | lineEnd => "more than a comment at the end of a line"
  | colonInBrackets => "a colon within a text between brackets"
  | grammar => "parts that make up no document"
  | undefinedHandle => "a tag with a handle that is not declared"
  | unknownAlias => "an alias of nothing"
  | furtherDocument => "more than one document"
  | wrongKind => "a value of another kind than expected"
  | duplicateKey => "a key that is given twice"
  | depth => "collections nested too deeply"
  | repetition => "aliases that are followed too often"

end DagScaffold.Yaml
