import DagScaffold.CommandLine.Run
import Std.Time

/-!
# The program

Carries out the command of the command line on the files of the system, prints what it gives and
tells by the exit code whether it was carried out.
-/

namespace DagScaffold

open DagScaffold.Files

/-! ## The files of the system -/

/-- The failure that an error of the system stands for. -/
def fileErrorOf : IO.Error → Files.Error
  | .noFileOrDirectory _ _ _ => .notFound
  | .alreadyExists _ _ _ => .alreadyExists
  | .inappropriateType _ code details =>
    if code = 20 then .notADirectory else if code = 21 then .isADirectory else .system details
  | e => .system (toString e)

/-- Carries out an operation and gives its failure as a value. -/
def attempt {α : Type} (operation : IO α) : IO (Except Files.Error α) := do
  try return .ok (← operation)
  catch e => return .error (fileErrorOf e)

/-- Opens a file or a directory for reading. -/
def openForReading (path : String) : IO IO.FS.Handle :=
  IO.FS.Handle.mk path .read

/-- Whether there is something at a path. -/
def isThere (p : Path) : IO (Except Files.Error Bool) := do
  match ← attempt (openForReading p.text) with
  | .ok _ => return .ok true
  | .error .notFound => return .ok false
  | .error e => return .error e

/-- Whether there is a directory at a path. -/
def isDirectoryThere (p : Path) : IO Bool := do
  match ← attempt (openForReading (p.text ++ "/.")) with
  | .ok _ => return true
  | .error _ => return false

/-- The text of a file. -/
def readText (p : Path) : IO (Except Files.Error String) := do
  match ← attempt (IO.FS.readBinFile (p.text ++ if p.directoryOnly then "/" else "")) with
  | .error e => return .error e
  | .ok octets =>
    match String.fromUTF8? octets with
    | some s => return .ok s
    | none => return .error .notAText

/-- The time of the system. -/
def currentInstant : IO Instant := do
  let elapsed := (← Std.Time.Timestamp.now).toNanosecondsSinceUnixEpoch.toInt.toNat
  return ⟨elapsed / 1000000000, elapsed % 1000000000⟩

instance : FileSystem IO where
  exists? := isThere
  isDirectory := isDirectoryThere
  makeDirectory p := attempt (IO.FS.createDir p.text)
  read := readText
  write p s := attempt (IO.FS.writeFile p.text s)
  rename source target := attempt (IO.FS.rename source.text target.text)
  remove p := attempt (IO.FS.removeFile p.text)
  freshTag := do return toString (← IO.monoNanosNow) ++ "." ++ toString (← IO.rand 0 999999)
  now := currentInstant

/-! ## The program -/

/-- The forms of a command line. -/
def usage : String :=
  "Usage: dag-forge [-l LEVEL] COMMAND\n\nCommands:\n" ++
    "  validate PAYLOAD\n  render PAYLOAD [-a meta|dag|treatment]\n" ++
    "  save PAYLOAD [-r ROOT]\n  load NAME [-r ROOT]\n"

/-- Tells why a command line names no command, and gives the exit code. -/
def tellRefusal : CommandLine.Refusal → IO UInt32
  | .help => do
    IO.print usage
    return 0
  | .version => do
    IO.println "dag-forge"
    return 0
  | _ => do
    IO.eprint usage
    return 2

end DagScaffold

open DagScaffold in
/-- Carries out a command line. -/
def main (words : List String) : IO UInt32 := do
  match CommandLine.parse words with
  | .error refusal => tellRefusal refusal
  | .ok invocation => do
    let names := Settings.allVariables.map Settings.Variable.key
    let environment ← names.mapM fun name => do return (name, ← IO.getEnv name)
    let lookup := fun name => (environment.lookup name).join
    match ← (CommandLine.run lookup invocation.command).run with
    | .ok text => do
      IO.print text
      return 0
    | .error failure => do
      IO.eprintln ("Error: " ++ failure.message)
      return 1
