import DagScaffold.Text.CaseTable

/-!
# Upper and lower case

The full case mappings of a text. All letters map on their own but the capital sigma, whose lower
case form depends on whether it ends a word.

* `toLower`, `toUpper` : the mappings;
* `endsWord` : when a capital sigma becomes the final small sigma.
-/

namespace DagScaffold.Text

/-! ## Lower case -/

/-- The lower case form of one character, taken on its own. -/
def lowerChar (c : Char) : List Char :=
  if c = 'İ' then ['i', Char.ofNat 0x307] else [Char.ofNat (moveBy lowerRuns c.toNat)]

/-- Whether the first character that is not ignorable is cased. -/
def meetsCased : List Char → Bool
  | [] => false
  | c :: cs =>
    if inRanges caseIgnorableRanges c.toNat then meetsCased cs else inRanges casedRanges c.toNat

/-- Whether a sigma between the characters `before`, nearest first, and `after` ends a word: a cased
character comes before it and none comes after it. -/
def endsWord (before after : List Char) : Bool :=
  meetsCased before && !meetsCased after

/-- The lower case form of the characters that follow `before`, which is given nearest first. -/
def lowerFrom (before : List Char) : List Char → List Char
  | [] => []
  | c :: cs =>
    (if c = 'Σ' then [if endsWord before cs then 'ς' else 'σ'] else lowerChar c) ++
      lowerFrom (c :: before) cs

/-- The lower case form of a text. -/
def toLower (s : String) : String :=
  .ofList (lowerFrom [] s.toList)

/-! ## Upper case -/

/-- The upper case form of one character. -/
def upperChar (c : Char) : List Char :=
  match upperSequences.find? (·.1 == c.toNat) with
  | some entry => entry.2.map Char.ofNat
  | none => [Char.ofNat (moveBy upperRuns c.toNat)]

/-- The upper case form of a text. -/
def toUpper (s : String) : String :=
  .ofList (s.toList.flatMap upperChar)

end DagScaffold.Text
