import Accelerator.Check.Script

/-!
# Matching output against directives

The directives are taken in order and move forward through the lines of the output.  Patterns that must be absent
are kept until the next directive that is met on a later line, and are then looked for on the lines that were
passed over; what is left at the end is looked for on the lines that remain.
-/

namespace Accelerator.Check

/-- Why output does not match. -/
inductive Mismatch
  | missing (pattern : String)
  | missingLabel (pattern : String)
  | unwanted (pattern line : String)
  | noNextLine (pattern : String)
  | otherNextLine (pattern line : String)
  | notBlank (line : String)
deriving Repr, DecidableEq

/-- The wording of a mismatch. -/
def Mismatch.message : Mismatch → String
  | missing pattern => "CHECK: pattern '" ++ pattern ++ "' not found in output"
  | missingLabel pattern => "CHECK-LABEL: pattern '" ++ pattern ++ "' not found in output"
  | unwanted pattern line => "CHECK-NOT: pattern '" ++ pattern ++ "' found in '" ++ line ++ "'"
  | noNextLine pattern => "CHECK-NEXT: no more lines, expected '" ++ pattern ++ "'"
  | otherNextLine pattern line => "CHECK-NEXT: expected '" ++ pattern ++ "' but got '" ++ line ++ "'"
  | notBlank line => "CHECK-EMPTY: expected empty line but got '" ++ line ++ "'"

/-- A pattern that was found, and the number of lines before the one it was found on. -/
structure Hit where
  pattern : String
  place : Nat
deriving Repr, DecidableEq

/-- How far matching has come: the number of lines that are behind, the lines that remain, and the patterns that
must be absent. -/
structure Progress where
  passed : Nat
  rest : List String
  pending : List String
deriving Repr, DecidableEq

/-- What came of matching: the patterns that were found, and why it stopped if it did. -/
structure Outcome where
  hits : List Hit
  mismatch : Option Mismatch
deriving Repr, DecidableEq

/-- The first unwanted pattern that occurs on the lines. -/
def unwanted? (patterns lines : List String) : Option Mismatch :=
  patterns.findSome? fun pattern =>
    (lines.find? (Text.contains · pattern)).map fun line => .unwanted pattern line

/-- Goes on behind the first line that has the pattern; `cause` says what is wrong if there is none. -/
def Progress.seek (here : Progress) (pattern : String) (cause : Mismatch) : Except Mismatch Progress :=
  match here.rest.findIdx? (Text.contains · pattern) with
  | none => .error cause
  | some k =>
    match unwanted? here.pending (here.rest.take k) with
    | some m => .error m
    | none => .ok ⟨here.passed + k + 1, here.rest.drop (k + 1), []⟩

/-- Goes on behind the next line, which has to have the pattern. -/
def Progress.stepOver (here : Progress) (pattern : String) : Except Mismatch Progress :=
  match here.rest with
  | [] => .error (.noNextLine pattern)
  | line :: rest =>
    if Text.contains line pattern then .ok ⟨here.passed + 1, rest, []⟩ else .error (.otherNextLine pattern line)

/-- Goes on behind the next line, which has to be blank; the end of the output will do too. -/
def Progress.stepOverBlank (here : Progress) : Except Mismatch Progress :=
  match here.rest with
  | [] => .ok here
  | line :: rest => if (Text.trim line).isEmpty then .ok ⟨here.passed + 1, rest, []⟩ else .error (.notBlank line)

/-- Follows one directive. -/
def Progress.follow (here : Progress) : Directive → Except Mismatch Progress
  | .remark _ => .ok here
  | .absent pattern => .ok { here with pending := here.pending ++ [pattern] }
  | .present pattern => here.seek pattern (.missing pattern)
  | .label pattern => here.seek pattern (.missingLabel pattern)
  | .next pattern => here.stepOver pattern
  | .blank => here.stepOverBlank

/-- The patterns that a directive reports as found, once it was followed. -/
def Directive.hits (now : Progress) : Directive → List Hit
  | .present pattern | .label pattern => [⟨pattern, now.passed - 1⟩]
  | _ => []

/-- Follows the directives one after the other. -/
def Progress.run (here : Progress) : List Directive → Outcome
  | [] => ⟨[], unwanted? here.pending here.rest⟩
  | d :: ds =>
    match here.follow d with
    | .error m => ⟨[], some m⟩
    | .ok now =>
      let later := now.run ds
      { later with hits := d.hits now ++ later.hits }

/-- Matches output against directives. -/
def matchOutput (output : String) (ds : List Directive) : Outcome := Progress.run ⟨0, Text.lines output, []⟩ ds

end Accelerator.Check
