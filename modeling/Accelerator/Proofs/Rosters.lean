import Accelerator.Proofs.Summaries

/-!
# Places on a roster

A node that is entered again changes nothing, and a node that is entered for the first time goes to the end
(`enter_of_mem`, `nodes_enter`).  So the roster of a sequence of nodes lists them in the order in which they come up
first (`nodes_ofNodes_eq`), and a place that was given to a node stays its place (`Extends`).  With fewer than `2 ^ 32`
nodes the index and the list are inverse to each other (`place?_eq_some`).
-/

namespace Accelerator.Roster

variable {r s t : Roster} {n : Node} {i : Nat}

/-! ### The index and the list -/

/-- A place is a position in the list, as long as positions have 32 bits. -/
private theorem place?_eq_idxOf? (h : r.size ≤ 2 ^ 32) (n : Node) : r.place? n = r.nodes.idxOf? n := by
  rw [place?, r.indexed, Option.map_map]
  cases hidx : r.nodes.idxOf? n with
  | none => rfl
  | some i =>
    obtain ⟨hi, -⟩ := List.idxOf?_eq_some_iff.mp hidx
    exact congrArg some (UInt32.toNat_ofNat_of_lt' (hi.trans_le h))

theorem place?_eq_some (h : r.size ≤ 2 ^ 32) : r.place? n = some i ↔ r.node? i = some n := by
  rw [place?_eq_idxOf? h, List.idxOf?_eq_some_iff, node?, List.getElem?_eq_some_iff]
  constructor
  · rintro ⟨hi, hn, -⟩
    exact ⟨hi, hn⟩
  · rintro ⟨hi, hn⟩
    refine ⟨hi, hn, fun j hj hjn => ?_⟩
    -- the node would be listed twice
    have := (List.Nodup.getElem_inj_iff r.nodup).mp (hjn.trans hn.symm)
    omega

private theorem node?_eq_none : r.node? i = none ↔ r.size ≤ i := List.getElem?_eq_none_iff

/-! ### One node -/

theorem enter_of_mem (h : n ∈ r.nodes) : r.enter n = r := by
  cases hplace : r.index[n]? with
  | some place => rw [enter, encode_of_some hplace]
  | none => exact absurd h (getElem?_index_eq_none.mp hplace)

/-- What is given back for a node is the place that it has from then on. -/
private theorem getElem?_index_encode (r : Roster) (n : Node) : (r.enter n).index[n]? = some (r.encode n).1 := by
  cases hplace : r.index[n]? with
  | some place => rw [enter, encode_of_some hplace, hplace]
  | none =>
    rw [enter, encode_of_not_mem (getElem?_index_eq_none.mp hplace), add]
    exact Std.ExtTreeMap.getElem?_insert_self

/-! ### A sequence of nodes -/

/-- Every node of the roster `r` has the same place on the roster `s`. -/
def Extends (r s : Roster) : Prop := ∀ (n : Node) place, r.index[n]? = some place → s.index[n]? = some place

private theorem Extends.trans (h : Extends r s) (h' : Extends s t) : Extends r t :=
  fun n place hn => h' n place (h n place hn)

private theorem extends_enter (r : Roster) (n : Node) : Extends r (r.enter n) := by
  intro m place hm
  cases hplace : r.index[n]? with
  | some _ => rwa [enter, encode_of_some hplace]
  | none =>
    have hne : n ≠ m := by
      rintro rfl
      rw [hplace] at hm
      cases hm
    rw [enter, encode_of_not_mem (getElem?_index_eq_none.mp hplace), add, Std.ExtTreeMap.getElem?_insert,
      if_neg (by simpa using hne), hm]

private theorem extends_foldl_enter (r : Roster) (ns : List Node) : Extends r (ns.foldl enter r) := by
  induction ns generalizing r with
  | nil => exact fun _ _ h => h
  | cons n ns ih => exact (extends_enter r n).trans (ih (r.enter n))

private theorem extends_ofNodes_append (calls more : List Node) :
    Extends (ofNodes calls) (ofNodes (calls ++ more)) := by
  rw [ofNodes, ofNodes, List.foldl_append]
  exact extends_foldl_enter _ more

private theorem ofNodes_concat (calls : List Node) (n : Node) : ofNodes (calls ++ [n]) = (ofNodes calls).enter n :=
  List.foldl_append ..

/-- The nodes of a sequence, in the order in which they come up first. -/
theorem nodes_ofNodes_eq (calls : List Node) : (ofNodes calls).nodes = calls.eraseDups := by
  induction calls using List.reverseRecOn with
  | nil => rfl
  | append_singleton calls n ih =>
    rw [ofNodes_concat, List.eraseDups_append]
    by_cases h : n ∈ calls
    · rw [enter_of_mem (by rwa [ih, List.mem_eraseDups]), ih]
      simp [List.removeAll, h]
    · rw [nodes_enter (by rwa [ih, List.mem_eraseDups]), ih]
      simp [List.removeAll, h, List.eraseDups_cons]

/-- With fewer than `2 ^ 32` different nodes: the roster lists the nodes that were entered in the order in which they
came up first; index and list are inverse to each other, and nothing is listed beyond the end; what was given back when
a node was entered is its place; and no node that is entered later changes a place. -/
theorem places_stable (calls : List Node) (h : calls.eraseDups.length < 2 ^ 32) :
    (ofNodes calls).nodes = calls.eraseDups ∧
    (∀ n i, (ofNodes calls).place? n = some i ↔ (ofNodes calls).node? i = some n) ∧
    (∀ i, (ofNodes calls).node? i = none ↔ (ofNodes calls).size ≤ i) ∧
    (∀ before n after, calls = before ++ n :: after →
      (ofNodes calls).place? n = some ((ofNodes before).encode n).1.toNat) ∧
    ∀ n i, (ofNodes calls).place? n = some i → ∀ more, (ofNodes (calls ++ more)).place? n = some i := by
  have hsize : (ofNodes calls).size ≤ 2 ^ 32 := by
    rw [size, nodes_ofNodes_eq]
    exact h.le
  refine ⟨nodes_ofNodes_eq calls, fun n i => place?_eq_some hsize, fun i => node?_eq_none, ?_, ?_⟩
  · rintro before n after rfl
    have hgiven := getElem?_index_encode (ofNodes before) n
    rw [← ofNodes_concat] at hgiven
    have hkept := extends_ofNodes_append (before ++ [n]) after n _ hgiven
    rw [List.append_assoc, List.singleton_append] at hkept
    rw [place?, hkept, Option.map_some]
  · intro n i hn more
    obtain ⟨place, hplace, rfl⟩ := Option.map_eq_some_iff.mp hn
    rw [place?, extends_ofNodes_append calls more n place hplace, Option.map_some]

/-- Four nodes, one of which comes up twice, and two more nodes later. -/
theorem places_stable_repeated :
    [4, 9, 4, 2].eraseDups.length < 2 ^ 32 ∧ (ofNodes [4, 9, 4, 2]).nodes = [4, 9, 2] ∧
    (ofNodes [4, 9, 4, 2]).place? 9 = some 1 ∧ (ofNodes [4, 9, 4, 2]).node? 1 = some 9 ∧
    (ofNodes [4, 9, 4, 2]).node? 3 = none ∧
    (ofNodes [4, 9, 4, 2]).place? 4 = some ((ofNodes [4, 9]).encode 4).1.toNat ∧
    (ofNodes [4, 9, 4, 2, 11, 9]).place? 9 = some 1 := by
  obtain ⟨hnodes, hinverse, hbeyond, hgiven, hkept⟩ := places_stable [4, 9, 4, 2] (by decide)
  have hnode : (ofNodes [4, 9, 4, 2]).node? 1 = some 9 := by
    rw [node?, hnodes]
    decide
  have hplace := (hinverse 9 1).mpr hnode
  refine ⟨by decide, hnodes.trans (by decide), hplace, hnode, (hbeyond 3).mpr ?_, hgiven [4, 9] 4 [2] rfl,
    hkept 9 1 hplace [11, 9]⟩
  rw [size, hnodes]
  decide

end Accelerator.Roster
