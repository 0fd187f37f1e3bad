import Accelerator.Proofs.Layout

/-!
# What the tables of a laid-out program say

Two views of a program that was just laid out.  `Program.LaidOut` looks at the tables alone: spans cut the tables into
consecutive parts, every place lies inside its table, and the edges are the direct calls of the bodies in order.
`Program.Shows` compares the tables with a source tree: what is found through the spans, with names in place of places,
is what the tree says.  Both hold of the layout of a tree that is well formed (`WellFormed.laidOut`,
`WellFormed.shows`).
-/

namespace Accelerator

/-! ### Consecutive spans -/

/-- The spans follow each other from `start` to `stop` without a gap. -/
def Tile (start : Nat) : List Span → Nat → Prop
  | [], stop => start = stop
  | s :: ss, stop => s.start = start ∧ start ≤ s.stop ∧ Tile s.stop ss stop

private theorem tile_spansFrom (start : Nat) (ns : List Nat) : Tile start (spansFrom start ns) (start + ns.sum) := by
  induction ns generalizing start with
  | nil => simp [spansFrom, Tile]
  | cons n ns ih =>
    have hnext := ih (start + n)
    rw [Nat.add_assoc] at hnext
    rw [spansFrom, List.sum_cons]
    exact ⟨rfl, Nat.le_add_right _ _, hnext⟩

private theorem flatMap_range'_spansFrom (start : Nat) (ns : List Nat) :
    (spansFrom start ns).flatMap (fun s => List.range' s.start (s.stop - s.start)) = List.range' start ns.sum := by
  induction ns generalizing start with
  | nil => rfl
  | cons n ns ih =>
    rw [spansFrom, List.flatMap_cons, ih, List.sum_cons, Nat.add_sub_cancel_left]
    exact List.range'_append_1

/-! ### The two views -/

/-- Whether an action is a call through a value. -/
def Action.isIndirect {κ : Type} : Action κ → Bool
  | .callIndirect _ _ => true
  | _ => false

namespace Program

/-- The number of calls through values in the body of a function. -/
def indirectCallsOf (p : Program) (n : Node) : Nat :=
  ((p.blocksOf n).flatMap p.instsOf).countP (·.action.isIndirect)

/-- The tables cut each other into consecutive parts, refer to entries that are there, and hold the direct calls of the
bodies as edges. -/
structure LaidOut (p : Program) : Prop where
  distinct : (p.functions.toList.map (·.name) ++ p.globals.toList).Nodup
  bodies : Tile 0 (p.functions.toList.map (·.body)) p.blocks.size
  insts : Tile 0 (p.blocks.toList.map (·.insts)) p.insts.size
  operands : Tile 0 (p.insts.toList.map (·.operands)) p.operands.size
  callee_lt : ∀ i ∈ p.insts, ∀ n, i.action.callee? = some n → n < p.functions.size
  function_lt : ∀ n, .address (.function n) ∈ p.operands → n < p.functions.size
  global_lt : ∀ g, .address (.global g) ∈ p.operands → g < p.globals.size
  edges : p.edges.toList = (List.range p.functions.size).flatMap fun n =>
    (p.callsOf n).map fun (callee, throws) => ⟨n, callee, throws, false⟩
  callees : p.functions.toList.flatMap (·.callees) = List.range p.edges.size
  edgesOf : ∀ n < p.functions.size,
    p.edgesOf n = (p.callsOf n).map fun (callee, throws) => ⟨n, callee, throws, false⟩
  indirectCalls : ∀ n < p.functions.size, (p.function n).indirectCalls = p.indirectCallsOf n
  labels : ∀ n < p.functions.size, ((p.blocksOf n).map (·.label)).Nodup

/-- The name of what an address is taken of. -/
def symbolName (p : Program) : Symbol → String
  | .function n => p.name n
  | .global g => p.globals.getD g ""

/-- An instruction with names in place of places. -/
def sourceInst (p : Program) (i : Inst) : Source.Inst String :=
  ⟨i.result, i.action.map p.name, (p.operandsOf i).map (·.map p.symbolName)⟩

/-- A block with names in place of places. -/
def sourceBlock (p : Program) (b : Block) : Source.Block String := ⟨b.label, (p.instsOf b).map p.sourceInst⟩

/-- The tables say about the function at a node what the tree says. -/
structure ShowsFunction (p : Program) (n : Node) (f : Source.Function String) : Prop where
  name : p.name n = f.name
  args : (p.function n).args = f.args
  markers : (p.function n).markers = f.markers
  traits : (p.function n).traits =
    ⟨f.words.isVirtual, f.words.isConstructor, f.words.isDestructor, f.words.isArtificial, !f.words.isLocal⟩
  definition : (p.function n).flags.definition = f.body.isSome
  versionable : (p.function n).flags.versionable = true ↔
    (p.function n).flags.definition = true ∧ f.words.noClone = false
  isLocal : (p.function n).flags.isLocal = f.words.isLocal
  externallyVisible : (p.function n).flags.externallyVisible = !f.words.isLocal
  forceOutput : (p.function n).flags.forceOutput = false
  addressTaken : (p.function n).flags.addressTaken = true ↔
    f.words.addressTaken = true ∨ .address (.function n) ∈ p.operands
  removed : (p.function n).removed = false
  body : (p.blocksOf n).map p.sourceBlock = f.blocks

/-- The tables say what the tree says. -/
structure Shows (p : Program) (items : List (Source.Item String)) : Prop where
  globals : p.globals.toList = Source.globals items
  size : p.functions.size = (Source.functions items).length
  functions : ∀ n f, (Source.functions items)[n]? = some f → p.ShowsFunction n f

end Program

namespace Source

/-- A tree with distinct names and, in each function, distinct labels and markers, that mentions only what it
defines. -/
structure WellFormed (items : List (Item String)) : Prop extends WellNamed items where
  labels : ∀ f ∈ functions items, (f.blocks.map (·.label)).Nodup
  addresses : ∀ title ∈ addressed items, title ∈ items.map Item.name

/-! ### Spans and places -/

section

variable (items : List (Item String))

private theorem toList_functions_layOut : (layOut items).functions.toList =
    (List.range (functions items).length).map (layOut items).function := by
  have hsize := size_layOut items
  apply List.ext_getElem
  · simp [hsize]
  · intro n h₁ h₂
    have hn : n < (layOut items).functions.size := by simpa using h₁
    simp [Program.function, hn]

private theorem bodies_layOut : (layOut items).functions.toList.map (·.body) =
    spansFrom 0 ((functions items).map (·.blocks.length)) := by
  rw [toList_functions_layOut, List.map_map]
  apply List.ext_getElem
  · simp [length_spansFrom]
  · intro n h₁ h₂
    have hn : n < (functions items).length := by simpa using h₁
    rw [List.getElem_map, List.getElem_range, Function.comp_apply, function_layOut items hn]
    exact List.getD_eq_getElem _ _ h₂

private theorem callees_layOut : (layOut items).functions.toList.flatMap (·.callees) =
    List.range (layOut items).edges.size := by
  have hlen : (layOut items).edges.size = ((edgeTable items).map List.length).sum := by
    simp [edges_layOut, List.length_flatten]
  have hspans : (layOut items).functions.toList.map (·.callees) =
      (spansFrom 0 ((edgeTable items).map List.length)).map fun s => List.range' s.start (s.stop - s.start) := by
    rw [toList_functions_layOut, List.map_map]
    apply List.ext_getElem
    · simp [length_spansFrom, length_edgeTable]
    · intro n h₁ h₂
      have hn : n < (functions items).length := by simpa using h₁
      rw [List.length_map] at h₂
      rw [List.getElem_map, List.getElem_range, Function.comp_apply, function_layOut items hn, List.getElem_map]
      simp only [edgeSpan, List.getD_eq_getElem _ _ h₂]
  rw [List.flatMap_def, hspans, ← List.flatMap_def, flatMap_range'_spansFrom, hlen, List.range_eq_range']

private theorem toList_edges_layOut : (layOut items).edges.toList =
    (List.range (layOut items).functions.size).flatMap fun n =>
      ((layOut items).callsOf n).map fun (callee, throws) => ⟨n, callee, throws, false⟩ := by
  have htable : edgeTable items = (List.range (functions items).length).map fun n =>
      ((layOut items).callsOf n).map fun (callee, throws) => ⟨n, callee, throws, false⟩ := by
    apply List.ext_getElem
    · simp [length_edgeTable]
    · intro n h₁ h₂
      have hn : n < (functions items).length := by simpa using h₂
      have hcalls : n < (callTable items).length := by simpa [callTable] using hn
      rw [List.getElem_map, List.getElem_range, callsOf_layOut items hn, List.getD_eq_getElem _ _ hcalls]
      simp [edgeTable]
  rw [edges_layOut, size_layOut, List.flatMap_def, ← htable]

private theorem indirectCalls_layOut {n : Nat} (hn : n < (functions items).length) :
    ((layOut items).function n).indirectCalls = (layOut items).indirectCallsOf n := by
  have hbody : (layOut items).indirectCallsOf n =
      ((((layOut items).blocksOf n).flatMap (layOut items).instsOf).map (·.action)).countP Action.isIndirect := by
    rw [List.countP_map]
    rfl
  rw [hbody, insts_layOut items hn, List.countP_map, function_layOut items hn]
  apply List.countP_congr
  intro i _
  simp only [Function.comp_apply]
  cases i.action <;> rfl

private theorem insts_eq : insts items = ((functions items).flatMap (·.blocks)).flatMap (·.insts) := by
  rw [List.flatMap_assoc]
  rfl

private theorem tile_bodies_layOut :
    Tile 0 ((layOut items).functions.toList.map (·.body)) (layOut items).blocks.size := by
  have hlen : (layOut items).blocks.size = 0 + ((functions items).map (·.blocks.length)).sum := by
    simp [layOut, length_spansFrom, List.length_flatMap]
  rw [bodies_layOut, hlen]
  exact tile_spansFrom _ _

private theorem tile_insts_layOut : Tile 0 ((layOut items).blocks.toList.map (·.insts)) (layOut items).insts.size := by
  have hlen : (layOut items).insts.size = 0 + (((functions items).flatMap (·.blocks)).map (·.insts.length)).sum := by
    simp [layOut, length_spansFrom, List.length_flatMap]
  have hspans : (layOut items).blocks.toList.map (·.insts) =
      spansFrom 0 (((functions items).flatMap (·.blocks)).map (·.insts.length)) := by
    simp only [layOut, List.map_zipWith]
    rw [zipWith_snd _ (by rw [length_spansFrom, List.length_map])]
    exact List.map_id _
  rw [hspans, hlen]
  exact tile_spansFrom _ _

private theorem tile_operands_layOut :
    Tile 0 ((layOut items).insts.toList.map (·.operands)) (layOut items).operands.size := by
  have hlen : (layOut items).operands.size = 0 + ((insts items).map (·.operands.length)).sum := by
    rw [insts_eq]
    simp [layOut, List.length_flatMap]
  have hspans : (layOut items).insts.toList.map (·.operands) =
      spansFrom 0 ((insts items).map (·.operands.length)) := by
    rw [insts_eq]
    simp only [layOut, List.map_zipWith]
    rw [zipWith_snd _ (by rw [length_spansFrom, List.length_map])]
    exact List.map_id _
  rw [hspans, hlen]
  exact tile_spansFrom _ _

private theorem toList_actions_layOut :
    (layOut items).insts.toList.map (·.action) = (insts items).map (·.action.map (nodeOf items)) := by
  rw [insts_eq]
  simp only [layOut, List.map_zipWith]
  exact zipWith_fst _ (by rw [length_spansFrom, List.length_map])

private theorem toList_operands_layOut : (layOut items).operands.toList =
    ((insts items).flatMap (·.operands)).map (·.map (resolve (nameTable (functions items)) (globals items))) := by
  rw [insts_eq]
  rfl

end

/-! ### What names stand for -/

theorem perm_names (items : List (Item String)) :
    ((functions items).map (·.name) ++ globals items).Perm (items.map Item.name) := by
  induction items with
  | nil => exact List.Perm.refl _
  | cons i items ih =>
    cases i with
    | global title => exact List.perm_middle.trans (ih.cons title)
    | function f => exact ih.cons f.name

namespace WellFormed

variable {items : List (Item String)} (h : WellFormed items)
include h

private theorem exists_node {title : String} (ht : title ∈ (functions items).map (·.name)) :
    ∃ n < (functions items).length, nodeOf items title = n ∧ (layOut items).names[title]? = some n ∧
      (layOut items).name n = title := by
  obtain ⟨n, hn⟩ := List.mem_iff_getElem?.mp ht
  have hnode := h.nameTable_eq_some_iff.mpr hn
  have hname := (h.names_layOut title n).mp hnode
  refine ⟨n, (live_layOut items).mp hname.1, ?_, hnode, hname.2⟩
  rw [nodeOf, Std.ExtTreeMap.getD_eq_getD_getElem?, hnode, Option.getD_some]

/-- A name stands for what has that name, which is there. -/
private theorem resolve_spec {title : String} (ht : title ∈ items.map Item.name) :
    (layOut items).symbolName (resolve (nameTable (functions items)) (globals items) title) = title ∧
    (∀ n, resolve (nameTable (functions items)) (globals items) title = .function n → n < (functions items).length) ∧
    ∀ g, resolve (nameTable (functions items)) (globals items) title = .global g → g < (globals items).length := by
  by_cases hf : title ∈ (functions items).map (·.name)
  · obtain ⟨n, hn, -, hnode, hname⟩ := h.exists_node hf
    have hres : resolve (nameTable (functions items)) (globals items) title = .function n := by
      rw [resolve, show (nameTable (functions items))[title]? = some n from hnode]
    rw [hres]
    refine ⟨hname, ?_, ?_⟩
    · rintro m ⟨⟩
      exact hn
    · rintro g ⟨⟩
  · have hg : title ∈ globals items := by
      have := (perm_names items).mem_iff.mpr ht
      rcases List.mem_append.mp this with hf' | hg
      · exact absurd hf' hf
      · exact hg
    have hnone : (nameTable (functions items))[title]? = none := by
      rw [Option.eq_none_iff_forall_ne_some]
      intro n hn
      exact hf (List.mem_of_getElem? (h.nameTable_eq_some_iff.mp hn))
    have hres : resolve (nameTable (functions items)) (globals items) title =
        .global ((globals items).idxOf title) := by
      rw [resolve, hnone]
    have hlt := List.idxOf_lt_length_of_mem hg
    rw [hres]
    refine ⟨?_, ?_, ?_⟩
    · show (globals items).toArray.getD ((globals items).idxOf title) "" = title
      simp [hlt]
    · rintro m ⟨⟩
    · rintro g ⟨⟩
      exact hlt

/-! ### Reading the tables -/

/-- The operands of an instruction are found under the names they mention. -/
private theorem map_symbolName {i : Inst String} (hi : i ∈ insts items) :
    (i.operands.map (·.map (resolve (nameTable (functions items)) (globals items)))).map
      (·.map (layOut items).symbolName) = i.operands := by
  rw [List.map_map]
  refine (List.map_congr_left fun o ho => ?_).trans (List.map_id _)
  cases o with
  | address title =>
    have ht : title ∈ addressed items :=
      List.mem_flatMap.mpr ⟨i, hi, List.mem_filterMap.mpr ⟨.address title, ho, rfl⟩⟩
    simp only [Function.comp_apply, Operand.map, (h.resolve_spec (h.addresses title ht)).1, id]
  | value | immediate | block | localAddress => rfl

private theorem map_name {i : Inst String} (hi : i ∈ insts items) :
    (i.action.map (nodeOf items)).map (layOut items).name = i.action := by
  cases ha : i.action with
  | call callee flags =>
    have hcalled : callee ∈ called items := List.mem_filterMap.mpr ⟨i, hi, by rw [ha]; rfl⟩
    obtain ⟨n, -, hnode, -, hname⟩ := h.exists_node (h.calls callee hcalled)
    simp only [Action.map, hnode, hname]
  | debug | callIndirect | other => rfl

private theorem map_sourceInst_layOut : (layOut items).insts.toList.map (layOut items).sourceInst = insts items := by
  let resolved (i : Inst String) := i.operands.map (·.map (resolve (nameTable (functions items)) (globals items)))
  have hflat := insts_eq items
  have hoperands : (layOut items).operands = ((insts items).map resolved).flatten.toArray := by
    rw [← List.flatMap_def, ← List.map_flatMap, ← toList_operands_layOut, Array.toArray_toList]
  have hlens : (insts items).map (·.operands.length) = ((insts items).map resolved).map List.length := by
    simp [resolved, Function.comp_def]
  have hinsts : (layOut items).insts.toList = (insts items).zipWith
      (fun i s => ⟨i.result, i.action.map (nodeOf items), s⟩)
      (spansFrom 0 (((insts items).map resolved).map List.length)) := by
    rw [← hlens, hflat]
    rfl
  rw [hinsts]
  apply List.ext_getElem
  · simp [length_spansFrom]
  · intro k h₁ h₂
    have hspan : k < (spansFrom 0 (((insts items).map resolved).map List.length)).length := by
      simpa [length_spansFrom] using h₂
    have hcut := getElem_spansFrom_of ((insts items).map resolved) hspan (by simpa using h₂)
    have hmem : (insts items)[k] ∈ insts items := List.getElem_mem h₂
    rw [List.getElem_map, List.getElem_zipWith]
    simp only [Program.sourceInst, Program.operandsOf]
    rw [hoperands, hcut, List.getElem_map, h.map_name hmem, h.map_symbolName hmem]

private theorem map_sourceBlock_layOut :
    (layOut items).blocks.toList.map (layOut items).sourceBlock = (functions items).flatMap (·.blocks) := by
  let parts := ((functions items).flatMap (·.blocks)).map (·.insts)
  have hread : (layOut items).insts.map (layOut items).sourceInst = parts.flatten.toArray := by
    rw [← List.flatMap_def, ← insts_eq, ← h.map_sourceInst_layOut, ← Array.toList_map, Array.toArray_toList]
  have hlens : ((functions items).flatMap (·.blocks)).map (·.insts.length) = parts.map List.length := by
    simp [parts]
  have hblocks : (layOut items).blocks.toList = ((functions items).flatMap (·.blocks)).zipWith
      (fun b s => ⟨b.label, s⟩) (spansFrom 0 (parts.map List.length)) := by
    rw [← hlens]
    rfl
  rw [hblocks]
  apply List.ext_getElem
  · simp [length_spansFrom, parts]
  · intro k h₁ h₂
    have hparts : k < parts.length := by simpa [parts] using h₂
    have hspan : k < (spansFrom 0 (parts.map List.length)).length := by
      rwa [length_spansFrom, List.length_map]
    have hcut := getElem_spansFrom_of parts hspan hparts
    rw [List.getElem_map, List.getElem_zipWith]
    simp only [Program.sourceBlock, Program.instsOf]
    rw [← Span.of_map, hread, hcut]
    simp [parts]

/-- The blocks that are found at a node are those of the function in the tree. -/
private theorem blocksOf_layOut {n : Nat} (hn : n < (functions items).length) :
    ((layOut items).blocksOf n).map (layOut items).sourceBlock = (functions items)[n].blocks := by
  let parts := (functions items).map (·.blocks)
  have hread : (layOut items).blocks.map (layOut items).sourceBlock = parts.flatten.toArray := by
    rw [← List.flatMap_def, ← h.map_sourceBlock_layOut, ← Array.toList_map, Array.toArray_toList]
  have hlens : (functions items).map (·.blocks.length) = parts.map List.length := by
    simp [parts]
  have hspan : n < (spansFrom 0 (parts.map List.length)).length := by
    simpa [length_spansFrom, parts] using hn
  have hbody : ((layOut items).function n).body = (spansFrom 0 (parts.map List.length))[n] := by
    rw [function_layOut items hn]
    simp only [bodySpan, hlens, List.getD_eq_getElem _ _ hspan]
  have hcut := getElem_spansFrom_of parts hspan (by simpa [parts] using hn)
  rw [Program.blocksOf, ← Span.of_map, hread, hbody, hcut]
  simp [parts]

/-! ### The layout of a well-formed tree -/

private theorem distinct_layOut :
    ((layOut items).functions.toList.map (·.name) ++ (layOut items).globals.toList).Nodup := by
  have hnames : (layOut items).functions.toList.map (·.name) = (functions items).map (·.name) := by
    rw [toList_functions_layOut, List.map_map]
    apply List.ext_getElem
    · simp
    · intro n h₁ h₂
      have hn : n < (functions items).length := by simpa using h₂
      simp [function_layOut items hn]
  rw [hnames]
  exact (perm_names items).nodup_iff.mpr h.distinct

private theorem callee_lt_layOut {i : Program.Inst} (hi : i ∈ (layOut items).insts) {n : Node}
    (hn : i.action.callee? = some n) : n < (functions items).length := by
  have hmem : i.action ∈ (insts items).map (·.action.map (nodeOf items)) := by
    rw [← toList_actions_layOut]
    exact List.mem_map_of_mem (Array.mem_toList_iff.mpr hi)
  obtain ⟨j, hj, heq⟩ := List.mem_map.mp hmem
  rw [← heq] at hn
  cases ha : j.action with
  | call callee flags =>
    have hcalled : callee ∈ called items := List.mem_filterMap.mpr ⟨j, hj, by rw [ha]; rfl⟩
    obtain ⟨m, hm, hnode, -⟩ := h.exists_node (h.calls callee hcalled)
    rw [ha] at hn
    cases hn
    rw [hnode]
    exact hm
  | debug | callIndirect | other =>
    rw [ha] at hn
    cases hn

/-- An address in the tables is one that the tree takes. -/
private theorem exists_of_mem_operands {symbol : Symbol} (hs : .address symbol ∈ (layOut items).operands) :
    ∃ title ∈ items.map Item.name, resolve (nameTable (functions items)) (globals items) title = symbol := by
  have hmem := Array.mem_toList_iff.mpr hs
  rw [toList_operands_layOut] at hmem
  obtain ⟨o, ho, heq⟩ := List.mem_map.mp hmem
  obtain ⟨i, hi, hio⟩ := List.mem_flatMap.mp ho
  cases o with
  | address title =>
    have ht : title ∈ addressed items :=
      List.mem_flatMap.mpr ⟨i, hi, List.mem_filterMap.mpr ⟨.address title, hio, rfl⟩⟩
    cases heq
    exact ⟨title, h.addresses title ht, rfl⟩
  | value | immediate | block | localAddress => cases heq

theorem shows : (layOut items).Shows items := by
  refine ⟨rfl, size_layOut items, fun n f hf => ?_⟩
  obtain ⟨hn, rfl⟩ := List.getElem?_eq_some_iff.mp hf
  have hfunction := function_layOut items hn
  constructor
  case name => rw [Program.name, hfunction]
  case body => exact h.blocksOf_layOut hn
  case addressTaken | versionable =>
    rw [hfunction]
    simp [Function.flags]
  case args | markers | removed => rw [hfunction]
  case traits | definition | isLocal | externallyVisible | forceOutput =>
    rw [hfunction]
    rfl

theorem laidOut : (layOut items).LaidOut := by
  have hsize := size_layOut items
  constructor
  case distinct => exact h.distinct_layOut
  case bodies => exact tile_bodies_layOut items
  case insts => exact tile_insts_layOut items
  case operands => exact tile_operands_layOut items
  case callee_lt =>
    intro i hi n hn
    rw [hsize]
    exact h.callee_lt_layOut hi hn
  case function_lt =>
    intro n hn
    obtain ⟨title, ht, hres⟩ := h.exists_of_mem_operands hn
    rw [hsize]
    exact (h.resolve_spec ht).2.1 n hres
  case global_lt =>
    intro g hg
    obtain ⟨title, ht, hres⟩ := h.exists_of_mem_operands hg
    exact (h.resolve_spec ht).2.2 g hres
  case edges => exact toList_edges_layOut items
  case callees => exact callees_layOut items
  case edgesOf => exact fun n hn => edgesOf_layOut items (hsize ▸ hn)
  case indirectCalls => exact fun n hn => indirectCalls_layOut items (hsize ▸ hn)
  case labels =>
    intro n hn
    have hlt : n < (functions items).length := hsize ▸ hn
    have hlabels := congrArg (List.map (·.label)) (h.blocksOf_layOut hlt)
    rw [List.map_map] at hlabels
    have hnodup := h.labels _ (List.getElem_mem hlt)
    rw [← hlabels] at hnodup
    exact hnodup

end WellFormed

end Source

end Accelerator
