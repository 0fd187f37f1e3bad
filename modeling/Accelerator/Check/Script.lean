import Accelerator.Text.Lines

/-!
# Check scripts

A check script is a program text with directives in comments: how to run the pass on the program, and what its
output has to look like.  The lines of the directives are left out of the program text.
-/

namespace Accelerator.Check

/-- What is asked of the output. -/
inductive Directive
  /-- The pattern is on a later line. -/
  | present (pattern : String)
  /-- The pattern, which begins a part of the output, is on a later line. -/
  | label (pattern : String)
  /-- The pattern is on the next line. -/
  | next (pattern : String)
  /-- The pattern is not on the lines up to the one that is asked for after it. -/
  | absent (pattern : String)
  /-- The next line is blank. -/
  | blank
  /-- Nothing is asked. -/
  | remark (comment : String)
deriving Repr, DecidableEq

/-- A command line to run on the program. -/
structure Run where
  command : String
  args : List String
deriving Repr, DecidableEq

/-- Whether an option is given. -/
def Run.has (r : Run) (option : String) : Bool := r.args.contains option

/-- A program text with commands to run and what is asked of their output. -/
structure Script where
  runs : List Run
  directives : List Directive
  text : String
deriving Repr, DecidableEq

/-- What a line of a script is. -/
inductive Line
  | run (words : List String)
  | directive (d : Directive)
  | text (line : String)
deriving Repr, DecidableEq

/-- The directives that carry a pattern, with the words that they begin with. -/
def patternDirectives : List (String × (String → Directive)) :=
  [("; CHECK-LABEL:", .label), ("; CHECK-NEXT:", .next), ("; CHECK-NOT:", .absent), ("; CHECK:", .present),
    ("; COM:", .remark)]

/-- Tells what a line of a script is. -/
def Line.of (line : String) : Line :=
  let trimmed := Text.trim line
  let pattern? := patternDirectives.findSome? fun (start, make) =>
    (Text.afterStart? start trimmed).map fun pattern => make (Text.trim pattern)
  match Text.afterStart? "; RUN:" trimmed, pattern? with
  | some command, _ => .run (Text.words command)
  | none, some d => .directive d
  | none, none => if (Text.afterStart? "; CHECK-EMPTY" trimmed).isSome then .directive .blank else .text line

/-- The command of a line that has one. -/
def Line.run? : Line → Option Run
  | .run (command :: args) => some ⟨command, args⟩
  | _ => none

/-- The directive of a line that is one. -/
def Line.directive? : Line → Option Directive
  | .directive d => some d
  | _ => none

/-- The line itself, if it belongs to the program text. -/
def Line.text? : Line → Option String
  | .text line => some line
  | _ => none

/-- Reads a script; one without a command is refused. -/
def Script.parse? (content : String) : Option Script :=
  let ls := (Text.lines content).map Line.of
  let runs := ls.filterMap Line.run?
  if runs.isEmpty then none
  else some ⟨runs, ls.filterMap Line.directive?, "\n".intercalate (ls.filterMap Line.text?)⟩

/-- The wording for a script that is refused. -/
def noRunMessage : String := "Test file has no RUN directive"

end Accelerator.Check
