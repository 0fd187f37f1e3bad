import Accelerator.Scanner
import Accelerator.Text.Shown

/-!
# Faults in a program text

Why a program text is refused, the wording of each cause, and the line at which it is reported: one more than the
number of newlines before the place where reading stopped.
-/

namespace Accelerator.Source

/-- Why a program text is refused. -/
inductive Cause
  | expectedChar (wanted : Char) (found : Option Char)
  | expectedName (found : Option Char)
  | emptyName
  | unterminatedName
  | expectedNumber
  | numberTooLarge
  | expectedOperand (found : Option Char)
  | operandSeparator (found : Option Char)
  | argumentSeparator
  | markerSeparator
  | callArgumentSeparator
  | unknownMarker (word : String)
  | unknownFlag (word : String)
  | unknownCallFlag (word : String)
  | unterminatedBody (function : String)
  | duplicateLabel (label : String)
  | duplicateFunction (name : String)
  | duplicateSymbol (name : String)
  | unknownFunction (name : String)
  | unknownSymbol (name : String)
deriving Repr, DecidableEq

/-- The wording of a cause. -/
def Cause.message : Cause → String
  | expectedChar wanted found => "Expected '" ++ wanted.toString ++ "' but found " ++ Text.shown found
  | expectedName none => "Expected identifier but found EOF"
  | expectedName (some c) => "Expected identifier but found '" ++ c.toString ++ "'"
  | emptyName => "Empty quoted name"
  | unterminatedName => "Unterminated quoted name"
  | expectedNumber => "Expected number"
  | numberTooLarge => "Failed to parse number: number too large to fit in target type"
  | expectedOperand found => "Expected operand but found " ++ Text.shown found
  | operandSeparator found => "Expected ',' or end of instruction but found " ++ Text.shown found
  | argumentSeparator => "Expected ',' or ')' in argument list"
  | markerSeparator => "Expected ',' or ']' in attribute list"
  | callArgumentSeparator => "Expected ',' or ')' in call arguments"
  | unknownMarker word => "Unknown attribute: '" ++ word ++ "'"
  | unknownFlag word => "Unknown function flag: '" ++ word ++ "'"
  | unknownCallFlag word => "Unknown call flag: '" ++ word ++ "'"
  | unterminatedBody function => "Unterminated body of '" ++ function ++ "'"
  | duplicateLabel label => "Duplicate block label: '" ++ label ++ "'"
  | duplicateFunction name => "Duplicate function definition: '" ++ name ++ "'"
  | duplicateSymbol name => "Duplicate symbol: '" ++ name ++ "'"
  | unknownFunction name => "Unknown function: '" ++ name ++ "'"
  | unknownSymbol name => "Unknown symbol: '" ++ name ++ "'"

/-- Where and why a program text is refused. -/
structure Fault where
  line : Nat
  cause : Cause
deriving Repr, DecidableEq

/-- The line on which `rest`, an end part of `text`, begins. -/
def lineOf (text rest : List Char) : Nat := 1 + (text.count '\n' - rest.count '\n')

/-- The fault of a scan of `text` that halted. -/
def faultOf (text : List Char) (h : Halt Char Cause) : Fault := ⟨lineOf text h.rest, h.cause⟩

end Accelerator.Source
