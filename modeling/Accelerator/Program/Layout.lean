import Accelerator.Program.Basic
import Accelerator.Source.Grammar

/-!
# From a program text to tables

`layOut` puts a source tree into tables: blocks, instructions and operands follow each other as they do in the
text, and each owner gets the span of what it owns.  A name stands for the function of that name or, where an
address is taken, for the global of that name.  Every direct call becomes an edge, and a function whose address is
taken is flagged.

`Program.parse` reads a text, refuses it if a call or an address mentions a name that nothing defines, and lays it
out.
-/

namespace Accelerator

/-- Consecutive spans of the given lengths, the first one starting at `start`. -/
def spansFrom (start : Nat) : List Nat → List Span
  | [] => []
  | n :: ns => ⟨start, start + n⟩ :: spansFrom (start + n) ns

namespace Source

/-- Looks up what the address of a name is taken of: functions come before globals. -/
def resolve (names : Std.ExtTreeMap String Node) (globals : List String) (title : String) : Symbol :=
  match names[title]? with
  | some n => .function n
  | none => .global (globals.idxOf title)

/-- The direct calls of a function. -/
def Function.calls {ρ : Type} (f : Function ρ) : List (ρ × CallFlags) :=
  f.insts.filterMap fun i =>
    match i.action with
    | .call callee flags => some (callee, flags)
    | _ => none

/-- The number of calls through values that a function makes. -/
def Function.indirectCalls {ρ : Type} (f : Function ρ) : Nat :=
  f.insts.countP fun i =>
    match i.action with
    | .callIndirect _ _ => true
    | _ => false

/-- What the flag words of a function say about its declaration. -/
def FlagWords.traits (w : FlagWords) : Traits where
  isVirtual := w.isVirtual
  isConstructor := w.isConstructor
  isDestructor := w.isDestructor
  isArtificial := w.isArtificial
  isPublic := !w.isLocal

/-- What the call graph knows of a function when it is read; `addressed` says that its address is taken. -/
def Function.flags {ρ : Type} (f : Function ρ) (addressed : Bool) : Flags where
  definition := f.body.isSome
  versionable := f.body.isSome && !f.words.noClone
  isLocal := f.words.isLocal
  externallyVisible := !f.words.isLocal
  addressTaken := f.words.addressTaken || addressed

/-- The node of each function by name. -/
def nameTable (fs : List (Function String)) : Std.ExtTreeMap String Node :=
  .ofList (fs.mapIdx fun n f => (f.name, n))

/-- Puts a source tree into tables. -/
def layOut (items : List (Item String)) : Program :=
  let fs := functions items
  let names := nameTable fs
  let blocks := fs.flatMap (·.blocks)
  let insts := blocks.flatMap (·.insts)
  let operands := (insts.flatMap (·.operands)).map (·.map (resolve names (globals items)))
  let node title := names.getD title 0
  let calls := fs.map fun f => f.calls.map fun (callee, flags) => (node callee, flags.throws)
  let bodySpans := spansFrom 0 (fs.map (·.blocks.length))
  let edgeSpans := spansFrom 0 (calls.map List.length)
  let record n (f : Function String) (body edges : Span) : Program.Function :=
    { name := f.name, args := f.args, markers := f.markers, traits := f.words.traits
      flags := f.flags (operands.contains (.address (.function n)))
      body, callees := List.range' edges.start (edges.stop - edges.start)
      indirectCalls := f.indirectCalls, removed := false }
  { functions := ((fs.zip (bodySpans.zip edgeSpans)).mapIdx fun n (f, b, e) => record n f b e).toArray
    globals := (globals items).toArray
    blocks := (blocks.zipWith (fun b s => ⟨b.label, s⟩) (spansFrom 0 (blocks.map (·.insts.length)))).toArray
    insts := (insts.zipWith (fun i s => ⟨i.result, i.action.map node, s⟩)
      (spansFrom 0 (insts.map (·.operands.length)))).toArray
    operands := operands.toArray
    edges := (calls.mapIdx fun n cs => cs.map fun (callee, throws) => ⟨n, callee, throws, false⟩).flatten.toArray
    names
    cloneCounts := ∅ }

/-- The first mention that nothing defines: a call of an unknown function, or else an address of an unknown
symbol. -/
def unresolved? (items : List (Item Mention)) : Option (Halt Char Cause) :=
  let fs := (functions items).map (·.name)
  let known := items.map (·.name)
  match (called items).find? fun m => !fs.contains m.name with
  | some m => some ⟨m.rest, .unknownFunction m.name⟩
  | none => ((addressed items).find? fun m => !known.contains m.name).map fun m => ⟨m.rest, .unknownSymbol m.name⟩

end Source

/-- Reads a program text into tables. -/
def Program.parse (text : String) : Except Source.Fault Program :=
  let s := text.toList
  match Source.program s with
  | .error h => .error (Source.faultOf s h)
  | .ok (items, _) =>
    match Source.unresolved? items with
    | some h => .error (Source.faultOf s h)
    | none => .ok (Source.layOut (items.map (·.map (·.name))))

end Accelerator
