import Accelerator.Proofs.Layout
import Accelerator.Proofs.Moves

/-!
# Calls that are sent to the accelerator side

The sweep over the calls reads the same table of edges that it changes.  But every edge stands in the list of one
function only, and once, so each is looked at when it still ends where it did before the sweep.  Hence the sweep is one
pass over the table, which sends on the calls of accelerator code all at once (`retarget_eq`).  A second sweep finds
nothing to do unless an accelerator side is itself bound to another function.
-/

namespace Accelerator

/-- A function on the host that takes part and is bound to its accelerator side. -/
def Summary.hasTwin (s : Summary) : Bool := s.isParticipant && !s.accelerator && s.bound.isSome

namespace Summaries

variable {s : Summaries} {n t : Node}

private theorem twinOf?_eq_some : s.twinOf? n = some t ↔ (s.of n).hasTwin = true ∧ (s.of n).bound = some t := by
  unfold twinOf? Summary.hasTwin
  dsimp only
  split
  · rename_i h
    simp only [h, Bool.true_and, iff_and_self]
    exact fun hb => hb ▸ rfl
  · rename_i h
    simp [h]

private theorem twinOf?_eq_none : s.twinOf? n = none ↔ (s.of n).hasTwin = false := by
  unfold twinOf? Summary.hasTwin
  dsimp only
  split
  · rename_i h
    simp [h]
  · rename_i h
    simp [h]

/-- A call that accelerator code makes, sent on if its callee is bound. -/
def reroute (s : Summaries) (x : Program.Edge) : Program.Edge :=
  { x with callee := (s.twinOf? x.callee).getD x.callee }

private theorem reroute_of_some {x : Program.Edge} (h : s.twinOf? x.callee = some t) :
    s.reroute x = { x with callee := t } := by
  rw [reroute, h, Option.getD_some]

private theorem reroute_of_none {x : Program.Edge} (h : s.twinOf? x.callee = none) : s.reroute x = x := by
  rw [reroute, h, Option.getD_none]

end Summaries

namespace Program

variable {p : Program} {s : Summaries} {es : List Nat} {e : Nat}

/-- Sends on the calls `es`, all at once. -/
def reroute (p : Program) (s : Summaries) (es : List Nat) : Program :=
  { p with edges := p.edges.mapIdx fun e x => if e ∈ es then s.reroute x else x }

@[simp] theorem size_edges_reroute : (p.reroute s es).edges.size = p.edges.size := by
  simp [reroute]

private theorem edge_reroute_of_not_mem (he : e ∉ es) : (p.reroute s es).edge e = p.edge e := by
  by_cases hlt : e < p.edges.size
  · simp [reroute, edge, hlt, he]
  · simp [reroute, edge, hlt]

private theorem edge_reroute_of_mem (he : e ∈ es) (hlt : e < p.edges.size) :
    (p.reroute s es).edge e = s.reroute (p.edge e) := by
  simp [reroute, edge, hlt, he]

private theorem reroute_eq_self (h : ∀ e ∈ es, s.twinOf? (p.edge e).callee = none) : p.reroute s es = p := by
  have hedges : (p.edges.mapIdx fun e x => if e ∈ es then s.reroute x else x) = p.edges := by
    refine Array.ext (by simp) fun e _ he => ?_
    rw [Array.getElem_mapIdx]
    split
    · rename_i hmem
      rw [← edge_of_lt he]
      exact Summaries.reroute_of_none (h e hmem)
    · rfl
  rw [reroute, hedges]

private theorem redirect_eq_reroute {t : Node} (h : s.twinOf? (p.edge e).callee = some t) :
    p.redirect e t = p.reroute s [e] := by
  have hedges : p.edges.modify e ({ · with callee := t }) =
      p.edges.mapIdx fun i x => if i ∈ [e] then s.reroute x else x := by
    refine Array.ext (by simp) fun i _ hi => ?_
    have hlt : i < p.edges.size := by simpa using hi
    rw [Array.getElem_modify, Array.getElem_mapIdx]
    by_cases hie : e = i
    · subst hie
      rw [if_pos rfl, if_pos (List.mem_singleton_self e), ← edge_of_lt hlt, Summaries.reroute_of_some h]
    · rw [if_neg hie, if_neg fun hk => hie (List.mem_singleton.mp hk).symm]
  rw [redirect, reroute, hedges]

private theorem reroute_cons (he : e ∉ es) : (p.reroute s [e]).reroute s es = p.reroute s (e :: es) := by
  simp only [reroute, Array.mapIdx_mapIdx]
  congr 2
  funext i x
  by_cases hie : i = e
  · simp [hie, he]
  · simp [hie]

end Program

namespace Workspace

variable {w v : Workspace} {es : List Nat} {n : Node}

/-! ### The sweep as one pass -/

/-- How many of the calls `es` are sent on. -/
def reroutes (w : Workspace) (es : List Nat) : Nat :=
  es.countP fun e => (w.summaries.of (w.program.edge e).callee).hasTwin

/-- Sends on the calls `es`, all at once, and counts them. -/
def reroute (w : Workspace) (es : List Nat) : Workspace :=
  { w with
    program := w.program.reroute w.summaries es
    journal := { w.journal with tally.redirected := w.journal.tally.redirected + w.reroutes es } }

private theorem retargetEdge_eq (w : Workspace) (count e : Nat) :
    retargetEdge (w, count) e = (w.reroute [e], count + w.reroutes [e]) := by
  unfold retargetEdge reroute reroutes
  dsimp only
  cases h : w.summaries.twinOf? (w.program.edge e).callee with
  | none =>
    have hsame : w.program.reroute w.summaries [e] = w.program :=
      Program.reroute_eq_self fun i hi => by rw [List.mem_singleton.mp hi, h]
    simp [Summaries.twinOf?_eq_none.mp h, hsame]
  | some t =>
    simp [(Summaries.twinOf?_eq_some.mp h).1, Program.redirect_eq_reroute h, Journal.countRedirected]

/-- A call that was not sent on yet still ends where it did. -/
private theorem retargetEdges_eq (hnodup : es.Nodup) (count : Nat) :
    es.foldl retargetEdge (w, count) = (w.reroute es, count + w.reroutes es) := by
  induction es generalizing w count with
  | nil =>
    have hsame : w.program.reroute w.summaries [] = w.program := Program.reroute_eq_self (by simp)
    simp [reroute, reroutes, hsame]
  | cons e es ih =>
    rw [List.nodup_cons] at hnodup
    have hcount : (w.reroute [e]).reroutes es = w.reroutes es := by
      refine List.countP_congr fun i hi => ?_
      have hne : i ∉ [e] := fun hk => hnodup.1 (List.mem_singleton.mp hk ▸ hi)
      rw [reroute, Program.edge_reroute_of_not_mem hne]
    have hadd : w.reroutes (e :: es) = w.reroutes [e] + w.reroutes es := by
      simp [reroutes, List.countP_cons, Nat.add_comm]
    rw [List.foldl_cons, retargetEdge_eq, ih hnodup.2, hcount, hadd, Nat.add_assoc]
    congr 1
    rw [reroute, hcount]
    simp only [reroute, Program.reroute_cons hnodup.1, hadd, Nat.add_assoc]

/-- The calls that accelerator code makes, function by function. -/
def acceleratorCalls (w : Workspace) : List Nat :=
  (w.program.definitions.filter w.isAccelerator).flatMap fun n => (w.program.function n).callees

theorem mem_acceleratorCalls {e : Nat} : e ∈ w.acceleratorCalls ↔
    ∃ n ∈ w.program.definitions, w.isAccelerator n = true ∧ e ∈ (w.program.function n).callees := by
  simp [acceleratorCalls, and_assoc]

private theorem SameButEnds.acceleratorCalls (h : SameButEnds w v) : v.acceleratorCalls = w.acceleratorCalls := by
  rw [Workspace.acceleratorCalls, Workspace.acceleratorCalls, h.definitions]
  simp only [h.function]
  congr 1
  exact List.filter_congr fun n _ => h.isAccelerator n

private theorem retargetNodes_eq (l : List Node) (w : Workspace) (count : Nat) :
    l.foldl retargetNode (w, count) =
      ((l.filter w.isAccelerator).flatMap fun n => (w.program.function n).callees).foldl retargetEdge (w, count) := by
  induction l generalizing w count with
  | nil => rfl
  | cons n l ih =>
    have hsame := same_retargetNode w count n
    rw [List.foldl_cons, ← Prod.mk.eta (p := retargetNode (w, count) n), ih]
    simp only [hsame.function, List.filter_cons]
    rw [List.filter_congr fun m _ => hsame.isAccelerator m, retargetNode]
    split
    · rw [List.flatMap_cons, List.foldl_append]
    · rfl

/-- An edge stands in the list of its caller only, and once. -/
private theorem nodup_acceleratorCalls (hw : w.program.Coherent) : w.acceleratorCalls.Nodup := by
  have hlive : ∀ n ∈ w.program.definitions.filter w.isAccelerator, n ∈ w.program.live := fun n hn =>
    (Program.mem_definitions.mp (List.mem_of_mem_filter hn)).1
  refine List.nodup_flatMap.mpr ⟨fun n hn => hw.nodup n (hlive n hn), ?_⟩
  refine (w.program.nodup_definitions.filter _).imp_of_mem fun {m n} hm hn hne => ?_
  intro e hem hen
  exact hne ((hw.caller_eq (hlive m hm) hem).symm.trans (hw.caller_eq (hlive n hn) hen))

private theorem lt_of_mem_acceleratorCalls (hw : w.program.Coherent) {e : Nat} (he : e ∈ w.acceleratorCalls) :
    e < w.program.edges.size := by
  obtain ⟨n, hn, -, he⟩ := mem_acceleratorCalls.mp he
  exact hw.lt_of_mem_callees (Program.mem_definitions.mp hn).1 he

theorem retarget_eq (hw : w.program.Coherent) :
    w.retarget = (w.reroute w.acceleratorCalls, w.reroutes w.acceleratorCalls) := by
  rw [retarget, retargetNodes_eq, ← acceleratorCalls, retargetEdges_eq (nodup_acceleratorCalls hw), Nat.zero_add]

/-- A sweep that finds no call to send on changes nothing. -/
theorem retarget_of_unbound (h : ∀ e ∈ w.acceleratorCalls, w.summaries.twinOf? (w.program.edge e).callee = none) :
    w.retarget = (w, 0) := by
  have hstep : ∀ (l : List Nat), (∀ e ∈ l, e ∈ w.acceleratorCalls) → l.foldl retargetEdge (w, 0) = (w, 0) := by
    intro l hl
    induction l with
    | nil => rfl
    | cons e l ih =>
      rw [List.foldl_cons, retargetEdge, h e (hl e List.mem_cons_self)]
      exact ih fun i hi => hl i (List.mem_cons_of_mem e hi)
  rw [retarget, retargetNodes_eq]
  exact hstep _ fun e he => he

/-- After a sweep no call is left to send on, if no accelerator side is bound itself. -/
theorem twinOf?_retarget (hw : w.program.Coherent)
    (htwin : ∀ n b, w.summaries.twinOf? n = some b → w.summaries.twinOf? b = none) {e : Nat}
    (he : e ∈ w.acceleratorCalls) : w.summaries.twinOf? (w.retarget.1.program.edge e).callee = none := by
  rw [retarget_eq hw]
  show w.summaries.twinOf? ((w.program.reroute w.summaries w.acceleratorCalls).edge e).callee = none
  rw [Program.edge_reroute_of_mem he (lt_of_mem_acceleratorCalls hw he)]
  cases h : w.summaries.twinOf? (w.program.edge e).callee with
  | none => rw [Summaries.reroute_of_none h, h]
  | some b => rw [Summaries.reroute_of_some h, htwin _ b h]

/-! ### What a sweep does, call by call -/

/-- The workspace `v` is `w` with `count` calls of accelerator code sent on. -/
structure Rerouted (w v : Workspace) (count : Nat) : Prop where
  rest : v =
    { w with
      program := { w.program with edges := v.program.edges }
      journal := { w.journal with tally.redirected := w.journal.tally.redirected + count } }
  size : v.program.edges.size = w.program.edges.size
  others : ∀ e ∉ w.acceleratorCalls, v.program.edge e = w.program.edge e
  sent : ∀ e ∈ w.acceleratorCalls, ∀ t, (w.summaries.of (w.program.edge e).callee).hasTwin = true →
    (w.summaries.of (w.program.edge e).callee).bound = some t →
    v.program.edge e = { w.program.edge e with callee := t }
  kept : ∀ e ∈ w.acceleratorCalls, (w.summaries.of (w.program.edge e).callee).hasTwin = false →
    v.program.edge e = w.program.edge e
  once : w.acceleratorCalls.Nodup
  count : count = (w.acceleratorCalls.filter fun e => (w.summaries.of (w.program.edge e).callee).hasTwin).length

/-- A sweep sends on the calls of accelerator code whose callee is bound, each to the accelerator side of its callee,
and counts them.  If no accelerator side is bound itself, a second sweep does nothing. -/
theorem rerouted_retarget (hw : w.program.Coherent) :
    Rerouted w w.retarget.1 w.retarget.2 ∧
    ((∀ n b, (w.summaries.of n).bound = some b → (w.summaries.of b).hasTwin = false) →
      w.retarget.1.retarget = (w.retarget.1, 0)) := by
  refine ⟨?_, fun hbound => ?_⟩
  · have hmem : ∀ e ∈ w.acceleratorCalls,
        (w.program.reroute w.summaries w.acceleratorCalls).edge e = w.summaries.reroute (w.program.edge e) :=
      fun e he => Program.edge_reroute_of_mem he (lt_of_mem_acceleratorCalls hw he)
    rw [retarget_eq hw]
    constructor
    · rfl
    · exact Program.size_edges_reroute
    · exact fun e he => Program.edge_reroute_of_not_mem he
    · intro e he t htwin hb
      exact (hmem e he).trans (Summaries.reroute_of_some (Summaries.twinOf?_eq_some.mpr ⟨htwin, hb⟩))
    · intro e he htwin
      exact (hmem e he).trans (Summaries.reroute_of_none (Summaries.twinOf?_eq_none.mpr htwin))
    · exact nodup_acceleratorCalls hw
    · exact List.countP_eq_length_filter
  · have hsame : SameButEnds w w.retarget.1 := same_retargetNodes w 0 _
    have htwin : ∀ n b, w.summaries.twinOf? n = some b → w.summaries.twinOf? b = none := fun n b h =>
      Summaries.twinOf?_eq_none.mpr (hbound n b (Summaries.twinOf?_eq_some.mp h).2)
    refine retarget_of_unbound fun e he => ?_
    rw [hsame.acceleratorCalls] at he
    rw [hsame.summaries]
    exact twinOf?_retarget hw htwin he

/-- A kernel that calls a function twice, a caller on the host, and the accelerator side, which calls the function. -/
def meshItems : List (Source.Item String) :=
  [.function ⟨"k", [], [.kernel], {}, some [⟨"entry", [⟨none, .call "f" {}, []⟩, ⟨none, .call "h" {}, []⟩,
      ⟨none, .call "f" {}, []⟩, ⟨none, .other "ret", []⟩]⟩]⟩,
   .function ⟨"f", [], [.callable], {}, some [⟨"entry", [⟨none, .call "f" {}, []⟩, ⟨none, .other "ret", []⟩]⟩]⟩,
   .function ⟨"h", [], [], {}, some [⟨"entry", [⟨none, .call "f" {}, []⟩, ⟨none, .other "ret", []⟩]⟩]⟩,
   .function ⟨"g", [], [], {}, some [⟨"entry", [⟨none, .call "f" {}, []⟩, ⟨none, .other "ret", []⟩]⟩]⟩]

def mesh : Workspace :=
  ⟨Source.layOut meshItems, ((∅ : Summaries).markAccelerator 0 .kernel).link 3 1 .function, {}⟩

private theorem coherent_mesh : mesh.program.Coherent :=
  Source.WellNamed.coherent_layOut ⟨by decide +kernel, by decide +kernel, by decide +kernel⟩

/-- Of the six calls the three that accelerator code makes to the function are sent on. -/
theorem rerouted_retarget_mesh :
    (mesh.acceleratorCalls = [0, 1, 2, 5] ∧ mesh.program.edges.map (·.callee) = #[1, 2, 1, 1, 1, 1] ∧
      mesh.retarget.1.program.edges.map (·.callee) = #[3, 2, 3, 1, 1, 3]) ∧
    Rerouted mesh mesh.retarget.1 3 ∧ mesh.retarget.1.retarget = (mesh.retarget.1, 0) := by
  obtain ⟨hrerouted, hagain⟩ := rerouted_retarget coherent_mesh
  have hcount : mesh.retarget.2 = 3 := by decide +kernel
  refine ⟨by decide +kernel, hcount ▸ hrerouted, hagain fun n b hb => ?_⟩
  -- only the function is bound, and its accelerator side is not
  rw [mesh, Summaries.of_link] at hb
  split at hb
  · cases hb
    decide +kernel
  · split at hb
    · cases hb
    · rw [Summaries.of_markAccelerator, Summaries.of_empty, Summaries.of_empty] at hb
      split at hb <;> cases hb

-- if the accelerator side is bound to the kernel in turn, a second sweep sends the calls on once more
example :
    let chain : Workspace := { mesh with summaries := mesh.summaries.update 3 fun _ => ⟨.function, false, some 0⟩ }
    (chain.retarget.2, chain.retarget.1.retarget.2) = (2, 2) := by
  decide +kernel

end Workspace

end Accelerator
