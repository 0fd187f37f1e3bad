import Accelerator.Check.Matcher
import Accelerator.Pass.Basic
import Accelerator.Program.Layout
import Accelerator.Program.Printer

/-!
# Running check scripts

Each command of a script is run on the program of the script, and its output is matched against all directives.
-/

namespace Accelerator.Check

/-- Why a command gives no output. -/
inductive RunFailure
  | noSummaries
  | object (error : Error)
deriving Repr, DecidableEq

/-- The wording of a failure. -/
def RunFailure.message : RunFailure → String
  | noSummaries => "No summaries to write"
  | object error => error.message

/-- The options of a command. -/
def Run.options (r : Run) : Options where
  offload := r.has "--offload"
  parallel := r.has "--par-offload"
  verbose := r.has "--verbose"
  warn := !r.has "--no-warn"

/-- The summaries as a second pass has them that reads what the first one wrote. -/
def dumpReread (lib : ObjectFile.Library) (pass : Pass) (p : Program) : Except RunFailure String :=
  let roster := Roster.ofProgram p
  match pass.object? lib p roster with
  | .error e => .error (.object e)
  | .ok none => .error .noSummaries
  | .ok (some object) =>
    let reader : Pass := { options := pass.options }
    match reader.readObjects lib p roster [object] with
    | (_, .error e) => .error (.object e)
    | ((reader, p), .ok _) => .ok (reader.dump p)

/-- The output of a command: the program after the pass, the summaries, the notices and the tally, if
asked for. -/
def Run.output (lib : ObjectFile.Library) (r : Run) (p : Program) : Except RunFailure String := do
  let idle : Pass := { options := r.options }
  let (pass, p, journal) := if idle.isRequested then (idle.execute p {}).1 else (idle, p, {})
  let dump ← if r.has "--roundtrip" then dumpReread lib pass p else pure (pass.dump p)
  let parts :=
    (if idle.isRequested then [] else ["Offload pass skipped"])
      ++ [Text.trimRight p.render]
      ++ (if dump.isEmpty then [] else [Text.trimRight dump])
      ++ journal.notices.map Notice.render
      ++ (if r.has "--print-stats" then [Text.trimRight journal.tally.render] else [])
  return "\n".intercalate parts

/-- Why a script fails. -/
inductive Failure
  | text (fault : Source.Fault)
  | run (failure : RunFailure)
  | mismatch (m : Mismatch)
deriving Repr, DecidableEq

/-- The wording of a failure. -/
def Failure.message : Failure → String
  | text fault => (Error.text fault).message
  | run failure => failure.message
  | mismatch m => m.message

/-- What is logged about the output of a command. -/
def outputLog (r : Run) (output : String) : String :=
  "Output of '" ++ r.command ++ " " ++ " ".intercalate r.args ++ "':\n" ++ output ++ "\n"

/-- What is logged about a pattern that was found. -/
def Hit.log (h : Hit) : String := "CHECK: '" ++ h.pattern ++ "' found at line " ++ toString h.place ++ "\n"

/-- Runs commands one after the other, up to the first failure; gives the log and the failure. -/
def runAll (lib : ObjectFile.Library) (p : Program) (ds : List Directive) : List Run → String × Option Failure
  | [] => ("", none)
  | r :: rs =>
    match r.output lib p with
    | .error failure => ("", some (.run failure))
    | .ok output =>
      let outcome := matchOutput output ds
      let log := outputLog r output ++ String.join (outcome.hits.map Hit.log)
      match outcome.mismatch with
      | some m => (log, some (.mismatch m))
      | none =>
        let (later, failure) := runAll lib p ds rs
        (log ++ later, failure)

/-- Runs a script; gives the log and the failure, if there is one. -/
def Script.run (lib : ObjectFile.Library) (s : Script) : String × Option Failure :=
  match Program.parse s.text with
  | .error fault => ("", some (.text fault))
  | .ok p => runAll lib p s.directives s.runs

end Accelerator.Check
