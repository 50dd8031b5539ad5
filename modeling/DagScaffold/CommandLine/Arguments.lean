/-!
# The command line

A command line names a command, its operands and its options. Words are read from front to back;
what a word means depends on the words before it. An option or operand is taken into account only
when the next one is met or the words end, so a wrong value may be noticed after a wrong word that
follows it.

* `Command`, `Invocation` : what can be asked for;
* `Refusal` : why a command line asks for nothing;
* `parse` : reading one.
-/

namespace DagScaffold.CommandLine

/-! ## Commands -/

/-- A generated text that can be printed. -/
inductive Artifact where
  | manifest
  | dag
  | taskModule
  deriving DecidableEq, Repr

namespace Artifact

/-- The spelling of an artifact. -/
def name : Artifact → String
  | manifest => "meta"
  | dag => "dag"
  | taskModule => "treatment"

/-- The artifact that is spelled so. -/
def ofName? (s : String) : Option Artifact :=
  [manifest, dag, taskModule].find? fun a => a.name = s

end Artifact

/-- What a program is asked to do. -/
inductive Command where
  | validate (payload : String)
  | render (payload : String) (artifact : Artifact)
  | save (payload : String) (root : Option String)
  | load (name : String) (root : Option String)
  deriving DecidableEq, Repr

/-- A command and how much the program is to tell about its work. -/
structure Invocation where
  logLevel : String
  command : Command
  deriving DecidableEq, Repr

/-- Why a command line names no command to carry out. -/
inductive Refusal where
  /-- Help is asked for. -/
  | help
  /-- The version is asked for. -/
  | version
  /-- Nothing is asked for, so help is shown. -/
  | nothingAsked
  | missingCommand
  | unknownCommand
  | unknownArgument
  /-- A value that is missing or cannot be used. -/
  | invalidValue
  /-- A value for an option that takes none. -/
  | surplusValue
  | missingOperand
  /-- An option that is given twice. -/
  | repeatedOption
  deriving DecidableEq, Repr

/-! ## What can be given -/

/-- An option with a value, or an operand. -/
inductive Slot where
  | logLevel
  | artifact
  | root
  | payload
  | name
  deriving DecidableEq, Repr

/-- Whether a value can be used; a path must not be empty. -/
def Slot.accepts : Slot → String → Bool
  | logLevel, _ => true
  | artifact, v => (Artifact.ofName? v).isSome
  | root, v => v ≠ ""
  | payload, v => v ≠ ""
  | name, _ => true

/-- The long name of an option. -/
def Slot.long : Slot → String
  | logLevel => "log-level"
  | artifact => "artifact"
  | root => "root"
  | payload => "payload"
  | name => "name"

/-- The letter of an option. -/
def Slot.letter : Slot → Char
  | logLevel => 'l'
  | artifact => 'a'
  | root => 'r'
  | payload => 'p'
  | name => 'n'

/-- The names of the commands. -/
inductive Verb where
  | validate
  | render
  | save
  | load
  deriving DecidableEq, Repr

/-- The spelling of a command. -/
def Verb.name : Verb → String
  | validate => "validate"
  | render => "render"
  | save => "save"
  | load => "load"

/-- The command that is spelled so. -/
def Verb.ofName? (s : String) : Option Verb :=
  [.validate, .render, .save, .load].find? fun v : Verb => v.name = s

/-- The word that asks for help. -/
def helpWord : String := "help"

/-- Whether a word stands in the place of a command. -/
def isCommandWord (s : String) : Bool :=
  s = helpWord || (Verb.ofName? s).isSome

/-- The options before a command or after it. -/
def optionsOf : Option Verb → List Slot
  | none => [.logLevel]
  | some .validate => [.logLevel]
  | some .render => [.artifact, .logLevel]
  | some .save => [.root, .logLevel]
  | some .load => [.root, .logLevel]

/-- The operand of a command. -/
def operandOf : Verb → Slot
  | .load => .name
  | _ => .payload

/-! ## Words -/

/-- A word of a command line by its form. -/
inductive Word where
  /-- The two hyphens after which every word is an operand. -/
  | separator
  /-- Two hyphens, the name of an option and the value after an equals sign. -/
  | long (name : String) (value : Option String)
  /-- A hyphen, a letter and what follows it. -/
  | short (letter : Char) (rest : List Char)
  | other
  deriving DecidableEq, Repr

/-- A name and the text after the first equals sign. -/
def splitAtEquals (cs : List Char) : String × Option String :=
  let name := String.ofList (cs.takeWhile (· ≠ '='))
  match cs.dropWhile (· ≠ '=') with
  | [] => (name, none)
  | _ :: value => (name, some (.ofList value))

/-- The form of a word. -/
def Word.of (s : String) : Word :=
  match s.toList with
  | ['-', '-'] => .separator
  | '-' :: '-' :: cs => let parts := splitAtEquals cs; .long parts.1 parts.2
  | '-' :: c :: cs => .short c cs
  | _ => .other

/-- The value behind the letter of an option, with or without an equals sign. -/
def attachedValue : List Char → Option String
  | [] => none
  | '=' :: cs => some (.ofList cs)
  | cs => some (.ofList cs)

/-! ## Reading words -/

/-- What the words so far give. -/
structure Reading where
  /-- What was given and taken into account. -/
  given : List (Slot × String) := []
  /-- What was given last and is not yet taken into account, with its value if there is one. -/
  pending : Option (Slot × Option String) := none
  /-- The next word is the value of the pending option. -/
  awaitsValue : Bool := false
  /-- Every further word is an operand. -/
  operandsOnly : Bool := false
  /-- The operands that can still be given. -/
  operands : List Slot := []
  deriving DecidableEq, Repr

namespace Reading

/-- Takes a value into account. -/
def take (r : Reading) (slot : Slot) (value : String) : Except Refusal Reading :=
  if (r.given.lookup slot).isSome then .error .repeatedOption
  else if slot.accepts value then .ok { r with given := (slot, value) :: r.given }
  else .error .invalidValue

/-- Takes what is pending into account. -/
def settle (r : Reading) : Except Refusal Reading :=
  match r.pending with
  | none => .ok r
  | some (_, none) => .error .invalidValue
  | some (slot, some value) => { r with pending := none }.take slot value

/-- Begins an option whose value may be attached to it. -/
def option (r : Reading) (slot : Slot) (attached : Option String) : Except Refusal Reading :=
  r.settle.bind fun r =>
    match attached with
    | some value => { r with awaitsValue := false }.take slot value
    | none => .ok { r with pending := some (slot, none), awaitsValue := true }

/-- Refuses with `refusal` once what is pending has been taken into account. -/
def refuse (r : Reading) (refusal : Refusal) : Except Refusal Reading :=
  r.settle.bind fun _ => .error refusal

/-- Reads an option by its long name. -/
def long (verb : Option Verb) (r : Reading) (name : String) (value : Option String) :
    Except Refusal Reading :=
  match (optionsOf verb).find? fun slot => slot.long = name with
  | some slot => r.option slot value
  | none =>
    if name = "help" ∨ (name = "version" ∧ verb = none) then
      if value.isSome then .error .surplusValue
      else r.refuse (if name = "help" then .help else .version)
    else .error .unknownArgument

/-- Reads an option by its letter. -/
def short (verb : Option Verb) (r : Reading) (letter : Char) (rest : List Char) :
    Except Refusal Reading :=
  match (optionsOf verb).find? fun slot => slot.letter = letter with
  | some slot => r.option slot (attachedValue rest)
  | none =>
    if letter = 'h' then r.refuse .help
    else if letter = 'V' ∧ verb = none then r.refuse .version
    else .error .unknownArgument

/-- The refusal of a word that no operand is left for. -/
def surplusWord (verb : Option Verb) (r : Reading) (word : String) : Refusal :=
  if verb = none && !(r.operandsOnly && isCommandWord word) then .unknownCommand
  else .unknownArgument

/-- Reads an operand. -/
def operand (verb : Option Verb) (r : Reading) (word : String) : Except Refusal Reading :=
  match r.operands with
  | [] => .error (r.surplusWord verb word)
  | slot :: slots =>
    r.settle.map fun r =>
      { r with pending := some (slot, some word), operands := slots, awaitsValue := false }

/-- Reads a word that is no command. -/
def word (verb : Option Verb) (r : Reading) (s : String) : Except Refusal Reading :=
  if r.operandsOnly then r.operand verb s
  else
    match Word.of s with
    | .separator => .ok { r with operandsOnly := true }
    | .long name value => r.long verb name value
    | .short letter rest => r.short verb letter rest
    | .other =>
      match r.awaitsValue, r.pending with
      | true, some (slot, _) =>
        .ok { r with pending := some (slot, some s), awaitsValue := false }
      | _, _ => r.operand verb s

/-- Whether a word that stands for a command would be one here. -/
def expectsCommand (r : Reading) : Bool :=
  !r.operandsOnly && !r.awaitsValue

end Reading

/-! ## Whole command lines -/

/-- Reads the words after a command. -/
def readOperands (verb : Verb) (words : List String) : Except Refusal (List (Slot × String)) :=
  (words.foldlM (Reading.word (some verb)) { operands := [operandOf verb] }).bind fun r =>
    r.settle.bind fun r =>
      if (r.given.lookup (operandOf verb)).isSome then .ok r.given else .error .missingOperand

/-- The refusal of words after the word for help. -/
def helpRefusal : List String → Refusal
  | [] => .help
  | [w] => if isCommandWord w then .help else .unknownCommand
  | _ => .unknownCommand

/-- What is said before the command, the command and what is said after it. -/
structure Sentence where
  before : List (Slot × String)
  verb : Verb
  after : List (Slot × String)
  deriving DecidableEq, Repr

/-- Reads a command line up to its command and from there on. -/
def readCommand (r : Reading) : List String → Except Refusal Sentence
  | [] =>
    r.settle.bind fun r => .error (if r.given.isEmpty then .nothingAsked else .missingCommand)
  | w :: ws =>
    if r.expectsCommand && w = helpWord then .error (helpRefusal ws)
    else
      match r.expectsCommand, Verb.ofName? w with
      | true, some verb =>
        (readOperands verb ws).bind fun after =>
          r.settle.map fun r => ⟨r.given, verb, after⟩
      | _, _ => (r.word none w).bind fun r => readCommand r ws

/-- The value of an option after the command, else before it. -/
def Sentence.option (s : Sentence) (slot : Slot) : Option String :=
  s.after.lookup slot <|> s.before.lookup slot

/-- The command that a sentence names. -/
def Sentence.command (s : Sentence) : Command :=
  let operand := (s.after.lookup (operandOf s.verb)).getD ""
  let root := s.after.lookup .root
  match s.verb with
  | .validate => .validate operand
  | .render =>
    .render operand (((s.after.lookup .artifact).bind Artifact.ofName?).getD .dag)
  | .save => .save operand root
  | .load => .load operand root

/-- What a command line asks for. -/
def parse (words : List String) : Except Refusal Invocation :=
  (readCommand {} words).map fun s => ⟨(s.option .logLevel).getD "info", s.command⟩

end DagScaffold.CommandLine
