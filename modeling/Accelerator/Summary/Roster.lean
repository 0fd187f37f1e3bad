import Accelerator.Program.Basic

/-!
# Rosters

A roster lists nodes without repetition.  Streams name a node by its place in a roster.  The places are kept beside the
list, in an index from nodes to numbers of 32 bits.
-/

namespace Accelerator

/-- Nodes without repetition, in the order in which they were entered, and the place of each of them. -/
structure Roster where
  nodes : List Node := []
  index : Std.ExtTreeMap Node UInt32 := ∅
  nodup : nodes.Nodup := by simp
  indexed : ∀ n : Node, index[n]? = (nodes.idxOf? n).map Nat.toUInt32 := by simp
deriving Repr, DecidableEq

namespace Roster

/-- The number of nodes. -/
def size (r : Roster) : Nat := r.nodes.length

theorem getElem?_index_eq_none {r : Roster} {n : Node} : r.index[n]? = none ↔ n ∉ r.nodes := by
  rw [r.indexed, Option.map_eq_none_iff, List.idxOf?_eq_none_iff]

private theorem idxOf?_concat {nodes : List Node} {n : Node} (hn : n ∉ nodes) (m : Node) :
    (nodes ++ [n]).idxOf? m = if n = m then some nodes.length else nodes.idxOf? m := by
  rw [List.idxOf?, List.findIdx?_append]
  by_cases hm : n = m
  · subst hm
    rw [if_pos rfl, show nodes.findIdx? (· == n) = none from List.idxOf?_eq_none_iff.mpr hn]
    simp [List.findIdx?_cons]
  · simp [List.findIdx?_cons, hm]

/-- Adds a node that is not on the roster at its end. -/
def add (r : Roster) (n : Node) (h : n ∉ r.nodes) : Roster where
  nodes := r.nodes ++ [n]
  index := r.index.insert n r.size.toUInt32
  nodup := by
    have := r.nodup
    grind
  indexed := by
    intro m
    rw [Std.ExtTreeMap.getElem?_insert, idxOf?_concat h, r.indexed]
    simp only [Nat.compare_eq_eq]
    split <;> rfl

/-- The place of a node, which is entered if it is not on the roster yet. -/
def encode (r : Roster) (n : Node) : UInt32 × Roster :=
  match h : r.index[n]? with
  | some place => (place, r)
  | none => (r.size.toUInt32, r.add n (getElem?_index_eq_none.mp h))

/-- Enters a node that is not on the roster yet. -/
def enter (r : Roster) (n : Node) : Roster := (r.encode n).2

/-- The roster of the given nodes, in the order in which they come up first. -/
def ofNodes (ns : List Node) : Roster := ns.foldl enter {}

/-- The roster of the functions of a program that were not removed. -/
def ofProgram (p : Program) : Roster := ofNodes p.live

/-- The place of a node. -/
def place? (r : Roster) (n : Node) : Option Nat := r.index[n]?.map (·.toNat)

/-- The node at a place. -/
def node? (r : Roster) (i : Nat) : Option Node := r.nodes[i]?

end Roster

end Accelerator
