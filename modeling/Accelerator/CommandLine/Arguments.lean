/-!
# Arguments of the command line

The command line takes at most one input file, flags that may be given once, and options with a value, which
follows the option as the next argument or after an equals sign.  Two dashes end the options.  A single dash is a
plain value.
-/

namespace Accelerator.CommandLine

/-- What the command line asks for. -/
structure Arguments where
  input : Option String := none
  noOffload : Bool := false
  parallel : Bool := false
  verbose : Bool := false
  noWarn : Bool := false
  summaries : List String := []
  emit : Option String := none
  stats : Bool := false
deriving Repr, DecidableEq

/-- What is to be done. -/
inductive Request
  | run (args : Arguments)
  | version
  | help
  | misuse
deriving Repr, DecidableEq

/-- An option: a flag, one with a value, or one that ends the reading of arguments. -/
inductive Switch
  | noOffload
  | parallel
  | verbose
  | noWarn
  | stats
  | summary
  | emit
  | version
  | help
deriving Repr, DecidableEq

/-- The option with a long name. -/
def Switch.ofLong? : String → Option Switch
  | "no-offload" => some .noOffload
  | "par-offload" => some .parallel
  | "verbose" => some .verbose
  | "no-warn" => some .noWarn
  | "stats" => some .stats
  | "summary" => some .summary
  | "emit-summary" => some .emit
  | "version" => some .version
  | "help" => some .help
  | _ => none

/-- The option with a short name. -/
def Switch.ofShort? : Char → Option Switch
  | 'v' => some .verbose
  | 'V' => some .version
  | 'h' => some .help
  | _ => none

/-- Whether an option has a value. -/
def Switch.takesValue : Switch → Bool
  | .summary | .emit => true
  | _ => false

namespace Arguments

/-- Sets a flag that was not set before. -/
def setFlag? (a : Arguments) : Switch → Option Arguments
  | .noOffload => if a.noOffload then none else some { a with noOffload := true }
  | .parallel => if a.parallel then none else some { a with parallel := true }
  | .verbose => if a.verbose then none else some { a with verbose := true }
  | .noWarn => if a.noWarn then none else some { a with noWarn := true }
  | .stats => if a.stats then none else some { a with stats := true }
  | _ => none

/-- Sets an option to a value that is not empty.  Summaries add up; any other option can be set once. -/
def setValue? (a : Arguments) (s : Switch) (value : String) : Option Arguments :=
  if value.isEmpty then none
  else
    match s with
    | .summary => some { a with summaries := a.summaries ++ [value] }
    | .emit => if a.emit.isSome then none else some { a with emit := some value }
    | _ => none

/-- Sets the input, which can be set once and is not empty. -/
def setInput? (a : Arguments) (value : String) : Option Arguments :=
  if value.isEmpty || a.input.isSome then none else some { a with input := some value }

end Arguments

/-- What an argument looks like. -/
inductive Argument
  | separator
  | long (name : String) (value : Option String)
  | short (letters : List Char)
  | plain (value : String)
deriving Repr, DecidableEq

/-- Tells what an argument looks like. -/
def Argument.of (arg : String) : Argument :=
  match arg.toList with
  | ['-', '-'] => .separator
  | '-' :: '-' :: r =>
    match r.dropWhile (· != '=') with
    | [] => .long (String.ofList r) none
    | _ :: value => .long (String.ofList (r.takeWhile (· != '='))) (some (String.ofList value))
  | '-' :: c :: r => .short (c :: r)
  | _ => .plain arg

/-- Sets the flags of a cluster of short names; an option that ends the reading ends it here. -/
def setShort (a : Arguments) : List Char → Except Request Arguments
  | [] => .ok a
  | c :: r =>
    match Switch.ofShort? c with
    | some .version => .error .version
    | some .help => .error .help
    | some s =>
      match a.setFlag? s with
      | some a => setShort a r
      | none => .error .misuse
    | none => .error .misuse

/-- Takes the arguments after the end of the options. -/
def setInputs (a : Arguments) : List String → Request
  | [] => .run a
  | arg :: rest =>
    match a.setInput? arg with
    | some a => setInputs a rest
    | none => .misuse

/-- Takes the arguments one by one. -/
def Request.ofArguments (a : Arguments) : List String → Request
  | [] => .run a
  | arg :: rest =>
    match Argument.of arg with
    | .separator => setInputs a rest
    | .plain value =>
      match a.setInput? value with
      | some a => ofArguments a rest
      | none => .misuse
    | .short letters =>
      match setShort a letters with
      | .ok a => ofArguments a rest
      | .error request => request
    | .long title value? =>
      match Switch.ofLong? title, value? with
      | none, _ => .misuse
      | some .version, none => .version
      | some .help, none => .help
      | some s, some value =>
        match a.setValue? s value with
        | some a => ofArguments a rest
        | none => .misuse
      | some s, none =>
        if s.takesValue then
          match rest with
          | [] => .misuse
          | value :: rest =>
            match Argument.of value with
            | .plain value =>
              match a.setValue? s value with
              | some a => ofArguments a rest
              | none => .misuse
            | _ => .misuse
        else
          match a.setFlag? s with
          | some a => ofArguments a rest
          | none => .misuse

/-- What a command line asks for. -/
def Request.parse (args : List String) : Request := ofArguments {} args

end Accelerator.CommandLine
