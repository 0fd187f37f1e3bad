import Accelerator.Program.Graph
import Mathlib

/-!
# What a change to the call graph changes

For each change to a program this file says what is found at a node, at a place of the table of edges, and under a
name afterwards, in terms of what was found there before.  The proofs about programs use these facts and do not
look into the tables.
-/

namespace Accelerator.Program

variable {p : Program} {m n : Node} {e : Nat}

theorem mem_live : n ∈ p.live ↔ n < p.functions.size ∧ (p.function n).removed = false := by
  simp [live]

theorem mem_definitions : n ∈ p.definitions ↔ n ∈ p.live ∧ (p.function n).flags.definition = true := by
  simp [definitions]

theorem nodup_live (p : Program) : p.live.Nodup := List.nodup_range.filter _

theorem nodup_definitions (p : Program) : p.definitions.Nodup := p.nodup_live.filter _

theorem function_of_size_le (h : p.functions.size ≤ n) : p.function n = default := by
  simp [function, Nat.not_lt.mpr h]

theorem edge_of_lt {e : Nat} (he : e < p.edges.size) : p.edge e = p.edges[e] := by
  simp [edge, he]

theorem lt_size_of_mem_live (h : n ∈ p.live) : n < p.functions.size := (mem_live.mp h).1

theorem lt_size_of_mem_definitions (h : n ∈ p.definitions) : n < p.functions.size :=
  lt_size_of_mem_live (mem_definitions.mp h).1

/-- The live nodes of two programs are the same if the tables have the same size and the same functions were
removed. -/
theorem live_congr {p q : Program} (hs : q.functions.size = p.functions.size)
    (hr : ∀ n, (q.function n).removed = (p.function n).removed) : q.live = p.live := by
  simp [live, hs, hr]

/-! ### Changing one function -/

@[simp] theorem size_modifyFunction (p : Program) (n : Node) (f : Function → Function) :
    (p.modifyFunction n f).functions.size = p.functions.size := by
  simp [modifyFunction]

theorem function_modifyFunction (p : Program) (n : Node) (f : Function → Function) (m : Node) :
    (p.modifyFunction n f).function m =
      if m = n ∧ n < p.functions.size then f (p.function m) else p.function m := by
  simp only [modifyFunction, function, Array.getD_eq_getD_getElem?, Array.getElem?_modify]
  by_cases hm : m = n
  · subst hm
    by_cases hs : m < p.functions.size
    · simp [hs]
    · simp [hs]
  · simp [hm, Ne.symm hm]

/-- A part of a function that a change leaves alone is the same afterwards, at every node. -/
theorem function_modifyFunction_of_eq {α : Type} (g : Function → α) {f : Function → Function}
    (h : ∀ x, g (f x) = g x) (p : Program) (n m : Node) :
    g ((p.modifyFunction n f).function m) = g (p.function m) := by
  rw [function_modifyFunction]
  split
  · exact h _
  · rfl

theorem live_modifyFunction {f : Function → Function} (h : ∀ x, (f x).removed = x.removed) (p : Program)
    (n : Node) : (p.modifyFunction n f).live = p.live :=
  live_congr (size_modifyFunction p n f) (function_modifyFunction_of_eq (·.removed) h p n)

/-! ### Adding a function -/

@[simp] theorem size_addFunction (p : Program) (f : Function) :
    (p.addFunction f).functions.size = p.functions.size + 1 := by
  simp [addFunction]

theorem function_addFunction (p : Program) (f : Function) (m : Node) :
    (p.addFunction f).function m = if m = p.functions.size then f else p.function m := by
  simp only [addFunction, function, Array.getD_eq_getD_getElem?, Array.getElem?_push]
  split <;> rfl

theorem names_addFunction (p : Program) (f : Function) (t : String) :
    (p.addFunction f).names[t]? = if t = f.name then some p.functions.size else p.names[t]? := by
  simp only [addFunction, Std.ExtTreeMap.getElem?_insert, Std.LawfulEqCmp.compare_eq_iff_eq]
  exact if_congr eq_comm rfl rfl

/-- The program with a function added at the end, together with the edges of its calls. -/
def extend (p : Program) (f : Function) (a : Array Edge) (c : Std.ExtTreeMap String Nat) : Program :=
  { p with edges := p.edges ++ a, cloneCounts := c }.addFunction f

section

variable {f : Function} {a : Array Edge} {c : Std.ExtTreeMap String Nat}

theorem size_extend : (p.extend f a c).functions.size = p.functions.size + 1 := size_addFunction _ f

theorem function_extend : (p.extend f a c).function m = if m = p.functions.size then f else p.function m :=
  function_addFunction { p with edges := _, cloneCounts := _ } f m

theorem function_extend_new : (p.extend f a c).function p.functions.size = f := by
  rw [function_extend, if_pos rfl]

theorem function_extend_old (h : m < p.functions.size) : (p.extend f a c).function m = p.function m := by
  rw [function_extend, if_neg (Nat.ne_of_lt h)]

theorem mem_live_extend (hf : f.removed = false) :
    m ∈ (p.extend f a c).live ↔ m = p.functions.size ∨ m ∈ p.live := by
  simp only [mem_live, size_extend, function_extend]
  by_cases hm : m = p.functions.size
  · simp [hm, hf]
  · have hlt : m < p.functions.size + 1 ↔ m < p.functions.size := by grind
    simp [hm, hlt]

theorem names_extend (t : String) :
    (p.extend f a c).names[t]? = if t = f.name then some p.functions.size else p.names[t]? :=
  names_addFunction { p with edges := _, cloneCounts := _ } f t

theorem size_edges_extend : (p.extend f a c).edges.size = p.edges.size + a.size := by
  simp [extend, addFunction]

theorem edge_extend_old (h : e < p.edges.size) : (p.extend f a c).edge e = p.edge e := by
  simp [extend, addFunction, edge, Array.getElem?_append_left h]

private theorem edge_extend_new {i : Nat} (h : i < a.size) : (p.extend f a c).edge (p.edges.size + i) = a[i] := by
  simp [extend, addFunction, edge, h]

/-- An edge is an old one or one of the new ones. -/
theorem edge_extend_cases (he : e < (p.extend f a c).edges.size) :
    (e < p.edges.size ∧ (p.extend f a c).edge e = p.edge e) ∨ (p.edges.size ≤ e ∧ (p.extend f a c).edge e ∈ a) := by
  rw [size_edges_extend] at he
  by_cases hlt : e < p.edges.size
  · exact .inl ⟨hlt, edge_extend_old hlt⟩
  · obtain ⟨i, rfl⟩ := Nat.exists_eq_add_of_le (Nat.le_of_not_lt hlt)
    have hi : i < a.size := by omega
    rw [edge_extend_new hi]
    exact .inr ⟨by omega, Array.getElem_mem hi⟩

end

/-! ### Clones -/

/-- The function that `clone` adds. -/
def copyOf (p : Program) (n : Node) (suffix : String) : Function :=
  { p.function n with
    name := cloneTitle (p.name n) suffix (p.cloneNumber (p.name n) suffix)
    traits.isPublic := false
    flags.isLocal := true
    flags.externallyVisible := false
    flags.forceOutput := false
    flags.addressTaken := false
    callees := List.range' p.edges.size (p.edgesOf n).length
    removed := false }

theorem clone_eq_extend (p : Program) (n : Node) (suffix : String) :
    (p.clone n suffix).2 = p.extend (p.copyOf n suffix)
      ((p.edgesOf n).map ({ · with caller := p.functions.size })).toArray
      (p.cloneCounts.insert (p.name n) (p.cloneNumber (p.name n) suffix + 1)) := rfl

/-- The calls of a clone are those of the function it was made from, made by the clone. -/
theorem edgesOf_clone_new (p : Program) (n : Node) (suffix : String) :
    (p.clone n suffix).2.edgesOf p.functions.size =
      (p.edgesOf n).map ({ · with caller := p.functions.size }) := by
  have hc : ((p.clone n suffix).2.function p.functions.size).callees =
      List.range' p.edges.size (p.edgesOf n).length := by
    rw [clone_eq_extend, function_extend_new]; rfl
  rw [edgesOf, hc]
  apply List.ext_getElem
  · simp
  · intro i h₁ h₂
    have hi : i < (p.edgesOf n).length := by simpa using h₂
    simp [clone_eq_extend, edge_extend_new, hi]

/-! ### Sending a call elsewhere -/

@[simp] theorem size_edges_redirect (p : Program) (e : Nat) (callee : Node) :
    (p.redirect e callee).edges.size = p.edges.size := by
  simp [redirect]

theorem edge_redirect (p : Program) (e : Nat) (callee : Node) (i : Nat) :
    (p.redirect e callee).edge i =
      if i = e ∧ e < p.edges.size then { p.edge i with callee } else p.edge i := by
  simp only [redirect, edge, Array.getD_eq_getD_getElem?, Array.getElem?_modify]
  by_cases hi : i = e
  · subst hi
    by_cases hs : i < p.edges.size
    · simp [hs]
    · simp [hs]
  · simp [hi, Ne.symm hi]

/-! ### Removal -/

@[simp] theorem size_remove (p : Program) (n : Node) : (p.remove n).functions.size = p.functions.size := by
  simp [remove]

@[simp] theorem size_edges_remove (p : Program) (n : Node) : (p.remove n).edges.size = p.edges.size := by
  simp [remove]

theorem function_remove_self (h : n < p.functions.size) :
    (p.remove n).function n = { p.function n with callees := [], removed := true } := by
  simp [remove, function, h]

/-- A function other than the removed one loses its calls to that one; a function that was removed before stays as
it is. -/
theorem function_remove_of_ne (h : m ≠ n) :
    (p.remove n).function m =
      if (p.function m).removed then p.function m
      else { p.function m with callees := (p.function m).callees.filter fun e => (p.edge e).callee != n } := by
  by_cases hm : m < p.functions.size
  · simp [remove, function, hm, h]
  · have hs : p.functions.size ≤ m := Nat.le_of_not_lt hm
    have hs' : (p.remove n).functions.size ≤ m := by simpa using hs
    rw [function_of_size_le hs', function_of_size_le hs]
    rfl

theorem edge_remove (p : Program) (n : Node) (e : Nat) :
    (p.remove n).edge e =
      if e < p.edges.size ∧ e ∈ p.edgesAt n then { p.edge e with removed := true } else p.edge e := by
  by_cases he : e < p.edges.size
  · by_cases hg : e ∈ p.edgesAt n
    · simp [remove, edge, he, hg]
    · simp [remove, edge, he, hg]
  · simp [remove, edge, he]

theorem mem_live_remove (h : n < p.functions.size) : m ∈ (p.remove n).live ↔ m ≠ n ∧ m ∈ p.live := by
  rw [mem_live, mem_live, size_remove]
  by_cases hm : m = n
  · subst hm
    simp [function_remove_self h]
  · rw [function_remove_of_ne hm]
    split
    · rename_i hr
      simp [hm, hr]
    · simp [hm]

theorem name_remove (h : n < p.functions.size) (m : Node) : (p.remove n).name m = p.name m := by
  by_cases hm : m = n
  · subst hm
    rw [name, function_remove_self h]
    rfl
  · rw [name, function_remove_of_ne hm]
    split <;> rfl

theorem ends_remove (p : Program) (n : Node) (e : Nat) :
    ((p.remove n).edge e).caller = (p.edge e).caller ∧ ((p.remove n).edge e).callee = (p.edge e).callee := by
  rw [edge_remove]
  split <;> exact ⟨rfl, rfl⟩

theorem names_remove (p : Program) (n : Node) (t : String) :
    (p.remove n).names[t]? = if t = p.name n then none else p.names[t]? := by
  simp only [remove, Std.ExtTreeMap.getElem?_erase, Std.LawfulEqCmp.compare_eq_iff_eq]
  exact if_congr eq_comm rfl rfl

end Accelerator.Program
