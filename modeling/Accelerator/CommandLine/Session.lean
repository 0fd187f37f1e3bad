import Accelerator.CommandLine.Arguments
import Accelerator.CommandLine.Files
import Accelerator.Pass.Basic
import Accelerator.Program.Layout
import Accelerator.Program.Printer

/-!
# A run of the command line

Reads a program, takes over the summaries of earlier runs, runs the pass unless that is turned off, and prints the
program and its summaries.  Summaries that are only malformed are passed over; summaries that do not fit the
program end the run.
-/

namespace Accelerator.CommandLine

/-- The options of the pass. -/
def Arguments.options (a : Arguments) : Options where
  offload := !a.noOffload
  parallel := a.parallel
  verbose := a.verbose
  warn := !a.noWarn

/-- Takes over the summaries in object files, unless there are no files. -/
def takeOver (lib : ObjectFile.Library) (pass : Pass) (p : Program) (objects : List (List UInt8)) :
    Except Error (Pass × Program) :=
  if objects.isEmpty then .ok (pass, p)
  else
    match pass.readObjects lib p (Roster.ofProgram p) objects with
    | (state, .ok _) => .ok state
    | (state, .error e) => if e.isFatal then .error e else .ok state

/-- Runs the pass on a program if it is to be run at all. -/
def finish (pass : Pass) (p : Program) : Pass × Program × Journal :=
  if pass.isRequested then (pass.execute p {}).1 else (pass, p, {})

/-- What a run shows: the program, its summaries, notices, and how often each thing was done. -/
structure Shown where
  graph : String
  dump : String
  notices : String
  tally : Tally
deriving Repr, DecidableEq

/-- What is shown at the end of a run. -/
def Shown.of : Pass × Program × Journal → Shown
  | (pass, p, journal) =>
    ⟨p.render, pass.dump p, String.join (journal.notices.map fun n => n.render ++ "\n"), journal.tally⟩

/-- What is printed: the program and its summaries, and how often each thing was done if that is asked for. -/
def Shown.output (s : Shown) (stats : Bool) : String :=
  s.graph ++ s.dump ++ (if stats then s.tally.render ++ "\n" else "")

/-- The end of a run on a program with the summaries of earlier runs. -/
def Arguments.conclude (a : Arguments) (lib : ObjectFile.Library) (p : Program) (objects : List (List UInt8)) :
    Except Error (Pass × Program × Journal) :=
  (takeOver lib { options := a.options } p objects).map fun (pass, p) => finish pass p

/-- What a run shows. -/
def Arguments.present (a : Arguments) (lib : ObjectFile.Library) (p : Program) (objects : List (List UInt8)) :
    Except Error Shown :=
  (a.conclude lib p objects).map .of

/-- What a run produces: what it shows, and the object file with its summaries if that is asked for. -/
structure Product where
  shown : Shown
  object : Option (List UInt8)
deriving Repr, DecidableEq

/-- Runs the pass on a program with the summaries of earlier runs. -/
def Arguments.produce (a : Arguments) (lib : ObjectFile.Library) (p : Program) (objects : List (List UInt8)) :
    Except Error Product := do
  let (pass, p, journal) ← a.conclude lib p objects
  let object ← if a.emit.isSome then pass.object? lib p (Roster.ofProgram p) else pure none
  return { shown := .of (pass, p, journal), object }

/-- Why a run fails. -/
inductive Failure
  | file (error : FileError)
  | input (error : Error)
deriving Repr, DecidableEq

/-- The wording of a failure. -/
def Failure.message : Failure → String
  | file error => error.message
  | input error => error.message

/-- What a run leaves: its exit code, what it printed, and what it said on the side. -/
structure Outcome where
  exitCode : Nat
  output : String := ""
  notices : String := ""
deriving Repr, DecidableEq

/-- Lifts the result of a step that touches files. -/
def fileStep {m : Type → Type} [Monad m] {α : Type} (step : m (Except FileError α)) : ExceptT Failure m α :=
  ExceptT.mk do
    match ← step with
    | .ok a => return .ok a
    | .error e => return .error (.file e)

/-- Lifts the result of a step that can find an input wrong. -/
def inputStep {m : Type → Type} [Monad m] {α : Type} (step : Except Error α) : ExceptT Failure m α :=
  ExceptT.mk (pure (step.mapError .input))

/-- The text of the program. -/
def Arguments.readText {m : Type → Type} [Monad m] (a : Arguments) (w : World m) : ExceptT Failure m String := do
  let bytes ← fileStep (match a.input with
    | none => w.standardInput
    | some path => w.readFile path)
  match Stream.ofUtf8? bytes with
  | some text => return text
  | none => throw (.file .notText)

/-- Does what the arguments ask for. -/
def Arguments.perform {m : Type → Type} [Monad m] (a : Arguments) (lib : ObjectFile.Library) (w : World m) :
    ExceptT Failure m Product := do
  let text ← a.readText w
  let p ← inputStep ((Program.parse text).mapError .text)
  let objects ← a.summaries.mapM fun path => fileStep (w.readFile path)
  let product ← inputStep (a.produce lib p objects)
  match a.emit, product.object with
  | some path, some object => fileStep (w.writeFile path object)
  | _, _ => pure ()
  return product

/-- The name and the version of the program. -/
def versionText : String := "offload-ipa 0.1.0\n"

/-- How the program is used. -/
def usageText : String := "Usage: offload-ipa [OPTIONS] [INPUT]\n"

/-- What the program offers. -/
def helpText : String :=
  "Interprocedural accelerator offload pass\n\n" ++ usageText ++
    "\nArguments:\n" ++
    "  [INPUT]  Text IR input. Reads stdin when omitted\n" ++
    "\nOptions:\n" ++
    "      --no-offload           Do not run the pass (accelerator code generation not requested)\n" ++
    "      --par-offload          Scan every definition for offload candidates\n" ++
    "  -v, --verbose              Report functions rejected by the candidate scan\n" ++
    "      --no-warn              Suppress warnings about functions that cannot be cloned\n" ++
    "      --summary <OBJECT>     Read summary sections from these object files before running\n" ++
    "      --emit-summary <PATH>  Write the summary section object after running\n" ++
    "      --stats                Print pass statistics\n" ++
    "  -h, --help                 Print help\n" ++
    "  -V, --version              Print version\n"

/-- Runs the command line. -/
def run {m : Type → Type} [Monad m] (lib : ObjectFile.Library) (w : World m) (args : List String) :
    m Outcome := do
  match Request.parse args with
  | .misuse => return { exitCode := 2, notices := "error: invalid arguments\n\n" ++ usageText }
  | .version => return { exitCode := 0, output := versionText }
  | .help => return { exitCode := 0, output := helpText }
  | .run a =>
    match ← (a.perform lib w).run with
    | .error failure => return { exitCode := 1, notices := "Error: " ++ failure.message ++ "\n" }
    | .ok product =>
      return { exitCode := 0, output := product.shown.output a.stats, notices := product.shown.notices }

end Accelerator.CommandLine
