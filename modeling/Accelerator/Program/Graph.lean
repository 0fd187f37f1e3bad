import Accelerator.Program.Basic

/-!
# Changing the call graph

Declaring a function by name, cloning a function, removing one, sending a call elsewhere, and changing what is
known of a function.  No operation moves an entry of a table, so nodes and edges that were handed out stay valid.
-/

namespace Accelerator.Program

/-- Changes the function at a node. -/
def modifyFunction (p : Program) (n : Node) (f : Function → Function) : Program :=
  { p with functions := p.functions.modify n f }

/-- Adds a function at the end of the table and makes its name known. -/
def addFunction (p : Program) (f : Function) : Program :=
  { p with functions := p.functions.push f, names := p.names.insert f.name p.functions.size }

/-! ### Markers and flags -/

/-- Adds a marker to a function that does not carry it. -/
def addMarker (p : Program) (n : Node) (m : Marker) : Program :=
  p.modifyFunction n fun f => { f with markers := if m ∈ f.markers then f.markers else f.markers ++ [m] }

/-- Takes a marker away from a function. -/
def removeMarker (p : Program) (n : Node) (m : Marker) : Program :=
  p.modifyFunction n fun f => { f with markers := f.markers.filter (· != m) }

/-- Makes a function public or not. -/
def setPublic (p : Program) (n : Node) (value : Bool) : Program :=
  p.modifyFunction n fun f => { f with traits.isPublic := value }

/-- Makes a function visible from outside or not; a visible function is not local. -/
def setExternallyVisible (p : Program) (n : Node) (value : Bool) : Program :=
  p.modifyFunction n fun f =>
    { f with flags.externallyVisible := value, flags.isLocal := f.flags.isLocal && !value }

/-- Says whether a function has to be kept even if nothing calls it. -/
def setForceOutput (p : Program) (n : Node) (value : Bool) : Program :=
  p.modifyFunction n fun f => { f with flags.forceOutput := value }

/-! ### Declarations -/

/-- A public declaration without a body. -/
def declaration (title : String) : Function where
  name := title
  args := []
  markers := []
  traits := { isPublic := true }
  flags := { externallyVisible := true }
  body := ⟨0, 0⟩
  callees := []
  indirectCalls := 0
  removed := false

/-- The node with a name; if there is none, a declaration is added. -/
def getOrDeclare (p : Program) (title : String) : Node × Program :=
  match p.names[title]? with
  | some n => (n, p)
  | none => (p.functions.size, p.addFunction (declaration title))

/-! ### Clones -/

/-- The name of the clone numbered `k`. -/
def cloneTitle (base suffix : String) (k : Nat) : String := base ++ "." ++ suffix ++ "." ++ toString k

/-- The first number from the counter of `base` on whose clone name is free.  Only as many names are tried as there
are known names, and one more, so one of them is free. -/
def cloneNumber (p : Program) (base suffix : String) : Nat :=
  let first := p.cloneCounts.getD base 0
  ((List.range' first (p.names.size + 1)).find? fun k => !p.names.contains (cloneTitle base suffix k)).getD first

/-- Gives out the first free name for a clone of `base`, and takes the counter of `base` past its number. -/
def nameClone (p : Program) (base suffix : String) : String × Program :=
  let k := p.cloneNumber base suffix
  (cloneTitle base suffix k, { p with cloneCounts := p.cloneCounts.insert base (k + 1) })

/-- Clones the function at a node.  The clone shares the body, makes the same calls through edges of its own, and
is local to the program until it is made visible. -/
def clone (p : Program) (n : Node) (suffix : String) : Node × Program :=
  let f := p.function n
  let named := p.nameClone f.name suffix
  let node := p.functions.size
  let calls := p.edgesOf n
  let copy : Function :=
    { f with
      name := named.1
      traits.isPublic := false
      flags.isLocal := true
      flags.externallyVisible := false
      flags.forceOutput := false
      flags.addressTaken := false
      callees := List.range' p.edges.size calls.length
      removed := false }
  let edges := p.edges ++ (calls.map fun e => { e with caller := node }).toArray
  (node, { named.2 with edges }.addFunction copy)

/-! ### Calls and removal -/

/-- Sends a call to another function. -/
def redirect (p : Program) (e : Nat) (callee : Node) : Program :=
  { p with edges := p.edges.modify e ({ · with callee }) }

/-- The edges that go when the function at a node is removed: the calls it makes, and the calls that functions
which are still there make to it. -/
def edgesAt (p : Program) (n : Node) : List Nat :=
  (p.function n).callees ++ (p.live.flatMap fun m => (p.function m).callees).filter fun e => (p.edge e).callee == n

/-- Removes the function at a node with its edges, and forgets its name. -/
def remove (p : Program) (n : Node) : Program :=
  let gone := p.edgesAt n
  let detach (m : Node) (f : Function) : Function :=
    if m = n then { f with callees := [], removed := true }
    else if f.removed then f
    else { f with callees := f.callees.filter fun e => (p.edge e).callee != n }
  { p with
    functions := p.functions.mapIdx detach
    edges := p.edges.mapIdx fun e edge => if gone.contains e then { edge with removed := true } else edge
    names := p.names.erase (p.name n) }

end Accelerator.Program
