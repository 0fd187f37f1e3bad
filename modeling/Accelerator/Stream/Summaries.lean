import Accelerator.Program.Graph
import Accelerator.Stream.BitFields
import Accelerator.Stream.Name
import Accelerator.Summary.Basic
import Accelerator.Summary.Roster

/-!
# Summary streams

A summary stream holds the summaries of the functions that take part: their number, a record for each, and a zero
byte.  A record names its function by the place on a roster; then come the kind, the side and whether the function
is bound, in one number; then, for a bound function, the name of the function it is bound to.

Reading works through the records one by one.  If it stops, what the records before that said stays in force.
-/

namespace Accelerator.Stream

/-- One record: a place on the roster, and the summary with the bound function by name. -/
structure Record where
  place : Nat
  kind : Kind
  accelerator : Bool
  bound : Option String
deriving Repr, DecidableEq

/-! ### Writing -/

/-- The number that holds the kind, the side and whether the function is bound. -/
def Record.word (r : Record) : Nat :=
  packFields [(r.kind.code, 2), (r.accelerator.toNat, 1), (r.bound.isSome.toNat, 1)]

/-- The fields of such a number. -/
def wordField (word place : Nat) : Nat := (unpackFields word [2, 1, 1]).getD place 0

/-- The bytes of a record. -/
def Record.encode (r : Record) : List UInt8 :=
  encodeNumber r.place ++ encodeNumber r.word ++ (r.bound.map encodeName).getD []

/-- The record of a function that takes part. -/
def recordOf? (p : Program) (s : Summaries) (place : Nat) (n : Node) : Option Record :=
  let e := s.of n
  if e.isParticipant then some ⟨place, e.kind, e.accelerator, e.bound.map p.name⟩ else none

/-- The records of the functions on a roster that take part. -/
def records (p : Program) (s : Summaries) (roster : Roster) : List Record :=
  (roster.nodes.mapIdx (recordOf? p s)).reduceOption

/-- The bytes of a list of records. -/
def encodeRecords (rs : List Record) : List UInt8 := encodeNumber rs.length ++ rs.flatMap Record.encode ++ [0]

/-- The stream with the summaries of the functions on a roster. -/
def write (p : Program) (s : Summaries) (roster : Roster) : List UInt8 := encodeRecords (records p s roster)

/-! ### Reading -/

open Scanner

/-- The name of the bound function, if the record has one. -/
def boundName (isBound : Bool) : Reader (Option String) := do
  if isBound then
    let title ← name
    return some title
  else
    return none

/-- One record, and the node that it is about: a definition of the program. -/
def record (roster : Roster) (p : Program) : Reader (Node × Record) := do
  let place ← number
  match roster.node? place with
  | none => fail (.badIndex place roster.size)
  | some n =>
    refuse (!(p.function n).flags.definition) (.notDefinition place (p.name n))
    let word ← number
    match Kind.ofCode? (wordField word 0) with
    | none => fail (.unknownKind (wordField word 0))
    | some kind =>
      let bound ← boundName (wordField word 2 != 0)
      return (n, ⟨place, kind, wordField word 1 != 0, bound⟩)

/-- Puts a record into force.  The bound function is declared if the program has none of that name; a record
without one leaves an earlier binding as it is. -/
def Record.apply (r : Record) (n : Node) : Program × Summaries → Program × Summaries
  | (p, s) =>
    match r.bound with
    | none => (p, s.update n ({ · with kind := r.kind, accelerator := r.accelerator }))
    | some title =>
      let (b, p) := p.getOrDeclare title
      (p, s.update n fun _ => { kind := r.kind, accelerator := r.accelerator, bound := some b })

/-- Works through the given number of records. -/
def readRecords (roster : Roster) : Nat → Program × Summaries → List UInt8 →
    (Program × Summaries) × Except (Halt UInt8 Cause) (List UInt8)
  | 0, state, bytes => (state, .ok bytes)
  | count + 1, state, bytes =>
    match record roster state.1 bytes with
    | .error h => (state, .error h)
    | .ok ((n, r), rest) => readRecords roster count (r.apply n state) rest

/-- The zero byte at the end. -/
def terminator : Reader Unit := fun s =>
  match byte s with
  | .error h => .error h
  | .ok (b, rest) => if b = 0 then .ok ((), rest) else .error ⟨s, .noTerminator⟩

/-- Reads a stream: the program and the summaries afterwards, and the number of records or the fault. -/
def read (roster : Roster) (state : Program × Summaries) (bytes : List UInt8) :
    (Program × Summaries) × Except Fault Nat :=
  match number bytes with
  | .error h => (state, .error (faultOf bytes h))
  | .ok (count, rest) =>
    match readRecords roster count state rest with
    | (state, .error h) => (state, .error (faultOf bytes h))
    | (state, .ok rest) =>
      match terminator rest with
      | .error h => (state, .error (faultOf bytes h))
      | .ok _ => (state, .ok count)

end Accelerator.Stream
