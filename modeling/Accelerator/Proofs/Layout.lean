import Accelerator.Proofs.Coherence

/-!
# Laid-out programs

What `Source.layOut` makes of a source tree.  The spans that it hands out cut each table back into the lists it was
made from, so the instructions found through the tables are those of the tree, and the edges of a function are the
direct calls of its body, call by call.  If the names of the tree are distinct and every call mentions a function,
the program is coherent.
-/

namespace Accelerator

/-! ### Spans -/

theorem length_spansFrom (start : Nat) (ns : List Nat) : (spansFrom start ns).length = ns.length := by
  induction ns generalizing start with
  | nil => rfl
  | cons n ns ih => simp [spansFrom, ih]

private theorem within_of_mem_spansFrom {start : Nat} {ns : List Nat} {s : Span} (h : s ∈ spansFrom start ns) :
    s.Within (start + ns.sum) := by
  induction ns generalizing start with
  | nil => simp [spansFrom] at h
  | cons n ns ih =>
    rw [spansFrom, List.mem_cons] at h
    rw [List.sum_cons]
    rcases h with rfl | h
    · exact ⟨Nat.le_add_right _ _, by dsimp only; omega⟩
    · have := ih h
      rwa [Nat.add_assoc] at this

/-- The spans cover the table. -/
private theorem exists_spansFrom {start : Nat} {ns : List Nat} {e : Nat} (h₁ : start ≤ e) (h₂ : e < start + ns.sum) :
    ∃ (i : Nat) (h : i < (spansFrom start ns).length),
      (spansFrom start ns)[i].start ≤ e ∧ e < (spansFrom start ns)[i].stop := by
  induction ns generalizing start with
  | nil => simp at h₂; omega
  | cons n ns ih =>
    rw [List.sum_cons] at h₂
    by_cases h : e < start + n
    · exact ⟨0, by simp [spansFrom], h₁, h⟩
    · obtain ⟨i, hi, h₃, h₄⟩ := ih (show start + n ≤ e by omega) (by omega)
      exact ⟨i + 1, by simpa [spansFrom] using hi, by simpa [spansFrom] using ⟨h₃, h₄⟩⟩

theorem Span.of_map {α β : Type} (f : α → β) (s : Span) (table : Array α) :
    s.of (table.map f) = (s.of table).map f := by
  simp [Span.of, List.extract_eq_take_drop]

/-- Cutting a concatenation along the spans of its parts gives the parts back. -/
private theorem map_of_spansFrom {α : Type} (before : List α) (parts : List (List α)) :
    (spansFrom before.length (parts.map List.length)).map (·.of (before ++ parts.flatten).toArray) = parts := by
  induction parts generalizing before with
  | nil => rfl
  | cons part parts ih =>
    have hcut : Span.of ⟨before.length, before.length + part.length⟩
        (before ++ (part :: parts).flatten).toArray = part := by
      simp [Span.of, List.extract_eq_take_drop]
    have hrest := ih (before ++ part)
    rw [List.length_append, List.append_assoc] at hrest
    rw [List.map_cons, spansFrom, List.map_cons, hcut, List.flatten_cons, hrest]

/-- The part at a place, cut out of the concatenation. -/
theorem getElem_spansFrom_of {α : Type} (parts : List (List α)) {i : Nat}
    (h : i < (spansFrom 0 (parts.map List.length)).length) (h' : i < parts.length) :
    ((spansFrom 0 (parts.map List.length))[i]).of parts.flatten.toArray = parts[i] := by
  have := map_of_spansFrom [] parts
  rw [List.nil_append, List.length_nil] at this
  have hi := congrArg (·[i]?) this
  simpa [h, h'] using hi

/-- The entries of a span one by one. -/
private theorem Span.Within.map_range' {α : Type} {s : Span} {table : Array α} (h : s.Within table.size) (d : α) :
    (List.range' s.start (s.stop - s.start)).map (table.getD · d) = s.of table := by
  obtain ⟨h₁, h₂⟩ := h
  apply List.ext_getElem
  · simp [Span.of]; omega
  · intro i hi hi'
    have hlt : s.start + i < table.size := by
      simp only [List.length_map, List.length_range'] at hi
      omega
    simp [Span.of, hlt]

/-! ### The tables -/

namespace Program

/-- The direct calls in the body of a function, each with its callee and whether it may throw. -/
def callsOf (p : Program) (n : Node) : List (Node × Bool) :=
  ((p.blocksOf n).flatMap p.instsOf).filterMap fun i =>
    match i.action with
    | .call callee flags => some (callee, flags.throws)
    | _ => none

end Program

namespace Source

open Program (Edge)

variable (items : List (Item String))

/-- The node that a name stands for in a laid-out program. -/
def nodeOf (title : String) : Node := (nameTable (functions items)).getD title 0

/-- The direct calls of each function, by node. -/
def callTable : List (List (Node × Bool)) :=
  (functions items).map fun f => f.calls.map fun (callee, flags) => (nodeOf items callee, flags.throws)

/-- The edges of each function. -/
def edgeTable : List (List Edge) :=
  (callTable items).mapIdx fun n cs => cs.map fun (callee, throws) => ⟨n, callee, throws, false⟩

theorem edges_layOut : (layOut items).edges = (edgeTable items).flatten.toArray := rfl

private theorem lengths_edgeTable : (edgeTable items).map List.length = (callTable items).map List.length := by
  apply List.ext_getElem
  · simp [edgeTable]
  · intro i h₁ h₂
    simp [edgeTable]

theorem length_edgeTable : (edgeTable items).length = (functions items).length := by
  simp [edgeTable, callTable]

theorem size_layOut : (layOut items).functions.size = (functions items).length := by
  simp [layOut, length_spansFrom]

/-- The places of the blocks of the function at a node. -/
def bodySpan (n : Node) : Span := (spansFrom 0 ((functions items).map (·.blocks.length))).getD n default

/-- The places of the edges of the function at a node. -/
def edgeSpan (n : Node) : Span := (spansFrom 0 ((edgeTable items).map List.length)).getD n default

/-- What stands at a node of a laid-out program. -/
theorem function_layOut {n : Nat} (h : n < (functions items).length) :
    (layOut items).function n =
      { name := (functions items)[n].name
        args := (functions items)[n].args
        markers := (functions items)[n].markers
        traits := (functions items)[n].words.traits
        flags := (functions items)[n].flags
          ((layOut items).operands.toList.contains (.address (.function n)))
        body := bodySpan items n
        callees := List.range' (edgeSpan items n).start ((edgeSpan items n).stop - (edgeSpan items n).start)
        indirectCalls := (functions items)[n].indirectCalls
        removed := false } := by
  have hs : n < (layOut items).functions.size := by rwa [size_layOut]
  have hb : n < (spansFrom 0 ((functions items).map (·.blocks.length))).length := by
    rwa [length_spansFrom, List.length_map]
  have he : n < (spansFrom 0 ((callTable items).map List.length)).length := by
    rwa [length_spansFrom, List.length_map, callTable, List.length_map]
  simp only [Program.function, Array.getD_eq_getD_getElem?, Array.getElem?_eq_getElem hs, Option.getD_some,
    bodySpan, edgeSpan, lengths_edgeTable, List.getD_eq_getElem _ _ hb, List.getD_eq_getElem _ _ he]
  simp only [layOut, List.getElem_toArray, List.getElem_mapIdx, List.getElem_zip]
  rfl

theorem live_layOut {n : Node} : n ∈ (layOut items).live ↔ n < (functions items).length := by
  rw [Program.mem_live, size_layOut]
  constructor
  · exact And.left
  · intro h
    rw [function_layOut items h]
    exact ⟨h, rfl⟩

/-! ### Bodies -/

theorem zipWith_fst {α β γ : Type} (k : α → γ) {l : List α} {l' : List β} (h : l.length = l'.length) :
    List.zipWith (fun a _ => k a) l l' = l.map k := by
  apply List.ext_getElem
  · simp [h]
  · intro i h₁ h₂
    simp

theorem zipWith_snd {α β γ : Type} (k : β → γ) {l : List α} {l' : List β} (h : l.length = l'.length) :
    List.zipWith (fun _ b => k b) l l' = l'.map k := by
  apply List.ext_getElem
  · simp [h]
  · intro i h₁ h₂
    simp

/-- What the instructions of a block do. -/
private def actionsOf (b : Block String) : List (Action Node) := b.insts.map (·.action.map (nodeOf items))

/-- What the instructions of a laid-out program do, in order. -/
private theorem actions_layOut : (layOut items).insts.map (·.action) =
    (((functions items).flatMap (·.blocks)).map (actionsOf items)).flatten.toArray := by
  simp only [layOut, List.map_toArray, List.map_zipWith]
  rw [zipWith_fst _ (by rw [length_spansFrom, List.length_map]), List.map_flatMap, List.flatMap_def]
  rfl

/-- What the instructions of each block of a laid-out program do, in order. -/
private theorem blockActions_layOut :
    (layOut items).blocks.map (·.insts.of ((layOut items).insts.map (·.action))) =
      (((functions items).map fun f => f.blocks.map (actionsOf items)).flatten).toArray := by
  have hlen : ((functions items).flatMap (·.blocks)).map (·.insts.length) =
      (((functions items).flatMap (·.blocks)).map (actionsOf items)).map List.length := by
    simp [actionsOf, Function.comp_def]
  have hcut := map_of_spansFrom [] (((functions items).flatMap (·.blocks)).map (actionsOf items))
  rw [List.nil_append, List.length_nil] at hcut
  rw [actions_layOut]
  simp only [layOut, List.map_toArray, List.map_zipWith]
  rw [zipWith_snd _ (by rw [length_spansFrom, List.length_map]), hlen, hcut, List.map_flatMap,
    List.flatMap_def]

/-- The instructions found through the tables at a node are those of the function in the tree. -/
theorem insts_layOut {n : Nat} (h : n < (functions items).length) :
    (((layOut items).blocksOf n).flatMap (layOut items).instsOf).map (·.action) =
      (functions items)[n].insts.map (·.action.map (nodeOf items)) := by
  have hlen : (functions items).map (·.blocks.length) =
      ((functions items).map fun f => f.blocks.map (actionsOf items)).map List.length := by
    simp [Function.comp_def]
  have hb : n < (spansFrom 0 ((functions items).map (·.blocks.length))).length := by
    rwa [length_spansFrom, List.length_map]
  have hbody : ((layOut items).function n).body = (spansFrom 0 ((functions items).map (·.blocks.length)))[n] := by
    rw [function_layOut items h]
    exact List.getD_eq_getElem _ _ hb
  -- cut the table of blocks, and each block's instructions, along their spans
  have hcut : ((layOut items).blocksOf n).map (·.insts.of ((layOut items).insts.map (·.action))) =
      (functions items)[n].blocks.map (actionsOf items) := by
    rw [Program.blocksOf, ← Span.of_map, blockActions_layOut, hbody]
    simp only [hlen]
    rw [getElem_spansFrom_of _ _ (by simpa using h), List.getElem_map]
  calc (((layOut items).blocksOf n).flatMap (layOut items).instsOf).map (·.action)
      = (((layOut items).blocksOf n).map (·.insts.of ((layOut items).insts.map (·.action)))).flatten := by
        simp only [Span.of_map]
        rw [List.map_flatMap, List.flatMap_def]
        rfl
    _ = ((functions items)[n].blocks.map (actionsOf items)).flatten := by rw [hcut]
    _ = (functions items)[n].insts.map (·.action.map (nodeOf items)) := by
        rw [Function.insts, List.map_flatMap, List.flatMap_def]
        rfl

/-! ### Calls -/

/-- A direct call as callee and whether it may throw. -/
private def call? : Action Node → Option (Node × Bool)
  | .call callee flags => some (callee, flags.throws)
  | _ => none

/-- The calls found through the tables at a node are those of the function in the tree. -/
theorem callsOf_layOut {n : Nat} (h : n < (functions items).length) :
    (layOut items).callsOf n = (callTable items).getD n [] := by
  have hn : (callTable items).getD n [] =
      (functions items)[n].calls.map fun (callee, flags) => (nodeOf items callee, flags.throws) := by
    simp [callTable, h]
  have hp : (layOut items).callsOf n =
      ((((layOut items).blocksOf n).flatMap (layOut items).instsOf).map (·.action)).filterMap call? := by
    rw [List.filterMap_map]
    rfl
  rw [hp, insts_layOut items h, hn, Function.calls, List.filterMap_map, List.map_filterMap]
  apply List.filterMap_congr
  intro i _
  simp only [Function.comp_apply]
  cases i.action <;> rfl

/-- The edges of a function are the direct calls of its body. -/
theorem edgesOf_layOut {n : Nat} (h : n < (functions items).length) :
    (layOut items).edgesOf n =
      ((layOut items).callsOf n).map fun (callee, throws) => ⟨n, callee, throws, false⟩ := by
  have he : n < (spansFrom 0 ((edgeTable items).map List.length)).length := by
    rwa [length_spansFrom, List.length_map, length_edgeTable]
  have hspan : edgeSpan items n = (spansFrom 0 ((edgeTable items).map List.length))[n] :=
    List.getD_eq_getElem _ _ he
  have hwithin : (edgeSpan items n).Within (layOut items).edges.size := by
    have := within_of_mem_spansFrom (List.getElem_mem he)
    rw [hspan]
    simpa [edges_layOut, List.length_flatten] using this
  have hcallees : ((layOut items).function n).callees =
      List.range' (edgeSpan items n).start ((edgeSpan items n).stop - (edgeSpan items n).start) := by
    rw [function_layOut items h]
  have hn : n < (edgeTable items).length := by rwa [length_edgeTable]
  have hn' : n < (callTable items).length := by simpa [callTable] using h
  rw [Program.edgesOf, hcallees]
  calc (List.range' (edgeSpan items n).start ((edgeSpan items n).stop - (edgeSpan items n).start)).map
        (layOut items).edge
      = (edgeSpan items n).of (layOut items).edges := hwithin.map_range' default
    _ = (edgeTable items)[n] := by rw [hspan, edges_layOut, getElem_spansFrom_of _ he hn]
    _ = _ := by
      rw [callsOf_layOut items h, List.getD_eq_getElem _ _ hn']
      simp [edgeTable]

/-! ### Coherence -/

/-- The names of a source tree are distinct, no function repeats a marker, and every call mentions a function. -/
structure WellNamed (items : List (Item String)) : Prop where
  distinct : (items.map Item.name).Nodup
  markers : ∀ f ∈ functions items, f.markers.Nodup
  calls : ∀ title ∈ called items, title ∈ (functions items).map (·.name)

variable {items}

namespace WellNamed

private theorem nodup_functions (h : WellNamed items) : ((functions items).map (·.name)).Nodup := by
  have hsub : ∀ l : List (Item String), ((functions l).map (·.name)).Sublist (l.map Item.name) := by
    intro l
    induction l with
    | nil => exact List.Sublist.refl _
    | cons i l ih =>
      cases i with
      | global name => exact ih.cons name
      | function f => exact ih.cons_cons f.name
  exact h.distinct.sublist (hsub items)

/-- The node under a name is the place of the function of that name. -/
theorem nameTable_eq_some_iff (h : WellNamed items) {title : String} {n : Node} :
    (nameTable (functions items))[title]? = some n ↔ ((functions items).map (·.name))[n]? = some title := by
  let entries := (functions items).mapIdx fun n f => (f.name, n)
  have hkeys : entries.map Prod.fst = (functions items).map (·.name) := by
    apply List.ext_getElem
    · simp [entries]
    · intro i h₁ h₂
      simp [entries]
  have hdist : entries.Pairwise fun a b => ¬compare a.1 b.1 = .eq := by
    have hnd := h.nodup_functions
    rw [← hkeys] at hnd
    have := List.pairwise_map.mp hnd
    exact this.imp fun hab hc => hab (Std.LawfulEqCmp.compare_eq_iff_eq.mp hc)
  have hmem : ∀ t k, (t, k) ∈ entries ↔ ((functions items).map (·.name))[k]? = some t := by
    intro t k
    simp only [entries, List.mem_mapIdx, Prod.mk.injEq, List.getElem?_eq_some_iff, List.length_map,
      List.getElem_map]
    constructor
    · rintro ⟨i, hi, rfl, rfl⟩
      exact ⟨hi, rfl⟩
    · rintro ⟨hk, rfl⟩
      exact ⟨k, hk, rfl, rfl⟩
  -- a name that is found comes from an entry of the list, and names come once
  constructor
  · intro ht
    by_contra hno
    have hin : title ∈ nameTable (functions items) := by
      rw [Std.ExtTreeMap.mem_iff_isSome_getElem?, ht]
      rfl
    rw [nameTable, Std.ExtTreeMap.mem_ofList, List.contains_iff_mem] at hin
    obtain ⟨⟨t, k⟩, hk, rfl⟩ := List.mem_map.mp hin
    have := Std.ExtTreeMap.getElem?_ofList_of_mem Std.ReflCmp.compare_self hdist hk
    rw [nameTable, this] at ht
    cases ht
    exact hno ((hmem t n).mp hk)
  · intro hk
    exact Std.ExtTreeMap.getElem?_ofList_of_mem Std.ReflCmp.compare_self hdist ((hmem title n).mpr hk)

/-- A call of a laid-out program is a call of one of its functions. -/
theorem lt_of_mem_callTable (h : WellNamed items) {cs : List (Node × Bool)} (hcs : cs ∈ callTable items)
    {c : Node × Bool} (hc : c ∈ cs) : c.1 < (functions items).length := by
  obtain ⟨f, hf, rfl⟩ := List.mem_map.mp hcs
  obtain ⟨⟨title, flags⟩, hcall, rfl⟩ := List.mem_map.mp hc
  have hcalled : title ∈ called items := by
    obtain ⟨i, hi, hic⟩ := List.mem_filterMap.mp hcall
    refine List.mem_filterMap.mpr ⟨i, List.mem_flatMap.mpr ⟨f, hf, hi⟩, ?_⟩
    cases ha : i.action <;> simp_all [Action.callee?]
  obtain ⟨n, hn⟩ := List.mem_iff_getElem?.mp (h.calls title hcalled)
  have hnode : nodeOf items title = n := by
    rw [nodeOf, Std.ExtTreeMap.getD_eq_getD_getElem?, h.nameTable_eq_some_iff.mpr hn]
    rfl
  obtain ⟨hlt, -⟩ := List.getElem?_eq_some_iff.mp hn
  rw [List.length_map] at hlt
  simpa [hnode] using hlt

/-- Each edge of a laid-out program is one of the calls of its caller. -/
private theorem mem_callees_layOut {e : Nat} (he : e < (layOut items).edges.size) :
    ∃ n < (functions items).length, e ∈ ((layOut items).function n).callees := by
  have hsum : (layOut items).edges.size = 0 + ((edgeTable items).map List.length).sum := by
    simp [edges_layOut, List.length_flatten]
  obtain ⟨n, hn, h₁, h₂⟩ := exists_spansFrom (Nat.zero_le e) (hsum ▸ he)
  have hlt : n < (functions items).length := by
    rwa [length_spansFrom, List.length_map, length_edgeTable] at hn
  refine ⟨n, hlt, ?_⟩
  rw [function_layOut items hlt, edgeSpan, List.getD_eq_getElem _ _ hn, List.mem_range'_1]
  omega

private theorem lt_of_mem_callees_layOut {n e : Nat} (hn : n < (functions items).length)
    (he : e ∈ ((layOut items).function n).callees) : e < (layOut items).edges.size := by
  have hlt : n < (spansFrom 0 ((edgeTable items).map List.length)).length := by
    rwa [length_spansFrom, List.length_map, length_edgeTable]
  rw [function_layOut items hn, edgeSpan, List.getD_eq_getElem _ _ hlt, List.mem_range'_1] at he
  have := (within_of_mem_spansFrom (List.getElem_mem hlt)).2
  have hsum : (layOut items).edges.size = ((edgeTable items).map List.length).sum := by
    simp [edges_layOut, List.length_flatten]
  omega

/-- What an edge of a laid-out program says. -/
private theorem edge_layOut {n e : Nat} (h : WellNamed items) (hn : n < (functions items).length)
    (he : e ∈ ((layOut items).function n).callees) :
    ((layOut items).edge e).caller = n ∧ ((layOut items).edge e).removed = false ∧
      ((layOut items).edge e).callee < (functions items).length := by
  have hmem : (layOut items).edge e ∈ (layOut items).edgesOf n := List.mem_map_of_mem he
  rw [edgesOf_layOut items hn, callsOf_layOut items hn] at hmem
  obtain ⟨c, hc, heq⟩ := List.mem_map.mp hmem
  have hlt : n < (callTable items).length := by simpa [callTable] using hn
  rw [List.getD_eq_getElem _ _ hlt] at hc
  rw [← heq]
  exact ⟨rfl, rfl, h.lt_of_mem_callTable (List.getElem_mem hlt) hc⟩

/-- A name stands for the function of that name. -/
theorem names_layOut (h : WellNamed items) (t : String) (n : Node) :
    (layOut items).names[t]? = some n ↔ n ∈ (layOut items).live ∧ (layOut items).name n = t := by
  rw [live_layOut, show (layOut items).names = nameTable (functions items) from rfl, h.nameTable_eq_some_iff,
    List.getElem?_eq_some_iff]
  constructor
  · rintro ⟨hn, ht⟩
    rw [List.length_map] at hn
    rw [List.getElem_map] at ht
    exact ⟨hn, by rw [Program.name, function_layOut items hn]; exact ht⟩
  · rintro ⟨hn, ht⟩
    rw [Program.name, function_layOut items hn] at ht
    exact ⟨by rwa [List.length_map], by rw [List.getElem_map]; exact ht⟩

private theorem tidy_layOut (h : WellNamed items) (n : Node) :
    ((layOut items).function n).Tidy (layOut items).blocks.size := by
  by_cases hn : n < (functions items).length
  · rw [function_layOut items hn]
    refine ⟨fun hr => Bool.noConfusion hr, h.markers _ (List.getElem_mem hn), ?_, ?_⟩
    · simp [Function.flags]
    · have hlt : n < (spansFrom 0 ((functions items).map (·.blocks.length))).length := by
        rwa [length_spansFrom, List.length_map]
      have := within_of_mem_spansFrom (List.getElem_mem hlt)
      dsimp only
      rw [bodySpan, List.getD_eq_getElem _ _ hlt]
      simpa [layOut, length_spansFrom, List.length_flatMap] using this
  · rw [Program.function_of_size_le (by rw [size_layOut]; exact Nat.le_of_not_lt hn)]
    exact Program.tidy_default _

theorem coherent_layOut (h : WellNamed items) : (layOut items).Coherent := by
  refine ⟨h.names_layOut, h.tidy_layOut, ?_, ?_, ?_, ?_, ?_⟩
  · intro n hn
    rw [live_layOut] at hn
    rw [function_layOut items hn]
    exact List.nodup_range'
  · intro n hn e
    rw [live_layOut] at hn
    constructor
    · intro he
      have := h.edge_layOut hn he
      exact ⟨lt_of_mem_callees_layOut hn he, this.2.1, this.1⟩
    · rintro ⟨he, -, hc⟩
      obtain ⟨m, hm, hem⟩ := mem_callees_layOut he
      rw [(h.edge_layOut hm hem).1] at hc
      exact hc ▸ hem
  · intro e he _
    obtain ⟨n, hn, hen⟩ := mem_callees_layOut he
    obtain ⟨h₁, -, h₃⟩ := h.edge_layOut hn hen
    rw [live_layOut, live_layOut, h₁]
    exact ⟨hn, h₃⟩
  · intro b hb
    have hs : b.insts ∈ spansFrom 0 (((functions items).flatMap (·.blocks)).map (·.insts.length)) := by
      simp only [layOut, List.mem_toArray] at hb
      obtain ⟨i, hi, rfl⟩ := List.mem_iff_getElem.mp hb
      simp
    simpa [layOut, length_spansFrom, List.length_flatMap] using within_of_mem_spansFrom hs
  · intro i hi
    have hs : i.operands ∈ spansFrom 0
        ((((functions items).flatMap (·.blocks)).flatMap (·.insts)).map (·.operands.length)) := by
      simp only [layOut, List.mem_toArray] at hi
      obtain ⟨k, hk, rfl⟩ := List.mem_iff_getElem.mp hi
      simp
    simpa [layOut, length_spansFrom, List.length_flatMap] using within_of_mem_spansFrom hs

end WellNamed

end Source

end Accelerator
