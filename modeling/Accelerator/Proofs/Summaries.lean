import Accelerator.Summary.Basic
import Accelerator.Summary.Roster
import Mathlib

/-!
# What a change to the summaries changes

The summary of each function after a change, in terms of the summaries before it, the functions that were looked at, and
the nodes of the roster of a program.
-/

namespace Accelerator

namespace Summaries

variable (s : Summaries) (m n : Node)

theorem of_empty : (∅ : Summaries).of n = {} := by
  simp [of]

theorem of_insert (e : Summary) : of (s.insert n e) m = if m = n then e else s.of m := by
  simp only [of, Std.ExtTreeMap.getD_insert, Nat.compare_eq_eq]
  exact if_congr eq_comm rfl rfl

theorem of_update (f : Summary → Summary) : (s.update n f).of m = if m = n then f (s.of n) else s.of m :=
  of_insert s m n _

@[simp] theorem of_touch : (s.touch n).of m = s.of m := by
  rw [touch, of_update]
  split
  · rename_i h
    rw [h]
    rfl
  · rfl

theorem update_touch (f : Summary → Summary) : (s.touch n).update n f = s.update n f := by
  apply Std.ExtTreeMap.ext_getElem?
  intro m
  rw [update, update, of_touch, touch, update]
  simp only [Std.ExtTreeMap.getElem?_insert]
  split <;> rfl

theorem of_markAccelerator (kind : Kind) :
    (s.markAccelerator n kind).of m = if m = n then { s.of n with kind, accelerator := true } else s.of m :=
  of_update s m n _

theorem of_link (twin : Node) (kind : Kind) :
    (s.link twin n kind).of m =
      if m = n then { kind, accelerator := false, bound := some twin }
      else if m = twin then { kind, accelerator := true, bound := none }
      else s.of m := by
  rw [link, of_insert, of_insert]

/-- Binding a function replaces what was decided about it before. -/
theorem link_update (twin : Node) (kind : Kind) (f : Summary → Summary) :
    (s.update n f).link twin n kind = s.link twin n kind := by
  apply Std.ExtTreeMap.ext_getElem?
  intro m
  simp only [link, update, Std.ExtTreeMap.getElem?_insert]
  split
  · rfl
  · split <;> simp_all

theorem of_forget :
    (s.forget n).of m =
      if m = n then {} else { s.of m with bound := if (s.of m).bound = some n then none else (s.of m).bound } := by
  have hget : ∀ t : Summaries, t.of m = t[m]?.getD {} := fun t => Std.ExtTreeMap.getD_eq_getD_getElem?
  rw [hget, hget, forget, Std.ExtTreeMap.getElem?_map, Std.ExtTreeMap.getElem?_erase]
  by_cases h : m = n
  · simp [h]
  · simp only [Nat.compare_eq_eq, Ne.symm h, h, if_false]
    cases s[m]? with
    | none => simp
    | some e =>
      simp only [Option.map_some, Option.getD_some]
      split <;> rfl

/-! ### Functions that were looked at -/

private theorem mem_insert (e : Summary) : m ∈ s.insert n e ↔ m = n ∨ m ∈ s := by
  rw [Std.ExtTreeMap.mem_insert, Nat.compare_eq_eq]
  exact or_congr_left eq_comm

theorem mem_update (f : Summary → Summary) : m ∈ s.update n f ↔ m = n ∨ m ∈ s := mem_insert s m n _

theorem mem_link (twin : Node) (kind : Kind) : m ∈ s.link twin n kind ↔ m = n ∨ m = twin ∨ m ∈ s := by
  rw [link, mem_insert, mem_insert]

theorem mem_forget : m ∈ s.forget n ↔ m ≠ n ∧ m ∈ s := by
  rw [forget, Std.ExtTreeMap.mem_map, Std.ExtTreeMap.mem_erase, ne_eq, Nat.compare_eq_eq]
  exact and_congr_left fun _ => ne_comm

end Summaries

namespace Roster

variable {r : Roster} {n : Node}

theorem encode_of_some {place : UInt32} (h : r.index[n]? = some place) : r.encode n = (place, r) := by
  unfold encode
  split <;> simp_all

theorem encode_of_not_mem (h : n ∉ r.nodes) : r.encode n = (r.size.toUInt32, r.add n h) := by
  have hnone := getElem?_index_eq_none.mpr h
  unfold encode
  split
  · simp_all
  · rfl

theorem nodes_enter (h : n ∉ r.nodes) : (r.enter n).nodes = r.nodes ++ [n] := by
  rw [enter, encode_of_not_mem h]
  rfl

private theorem nodes_foldl_enter (ns : List Node) (r : Roster) (h : (r.nodes ++ ns).Nodup) :
    (ns.foldl enter r).nodes = r.nodes ++ ns := by
  induction ns generalizing r with
  | nil => simp
  | cons n ns ih =>
    have hn : n ∉ r.nodes := fun hm => (List.nodup_append.mp h).2.2 n hm n List.mem_cons_self rfl
    have he := nodes_enter hn
    rw [List.foldl_cons, ih (r.enter n) (by rw [he]; simpa using h), he, List.append_assoc, List.singleton_append]

/-- Nodes without repetition are entered as they come. -/
theorem nodes_ofNodes {ns : List Node} (h : ns.Nodup) : (ofNodes ns).nodes = ns :=
  nodes_foldl_enter ns {} h

end Roster

end Accelerator
