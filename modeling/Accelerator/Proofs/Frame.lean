import Accelerator.Proofs.Obstacles

/-!
# What runs leave of a program

Functions, clones and edges share their tables, and each phase of a run changes the tables by places.  This file says
what becomes of the functions that were there before.  Apart from its calls a function is `Kept`: it may become public
if it is a placeholder, and its markers change only by those that the pass hands out.  Its calls are `Intact`: those of
removed functions go, and only a kernel has calls that go elsewhere afterwards, namely to the accelerator sides of the
functions that it called.
-/

namespace Accelerator

namespace Workspace

variable {start : Program} {w v : Workspace} {base : Nat} {gone gone' made made' : List Node} {m n : Node} {e : Nat}

/-! ### Functions -/

/-- The markers `new` come from `old`: at most the mark for the device was taken away, and only markers that the pass
itself hands out were put behind the others. -/
def MarkersKept (old new : List Marker) : Prop :=
  ∃ kept added, new = kept ++ added ∧ (kept = old ∨ kept = old.filter (· != .declareTarget)) ∧
    ∀ k ∈ added, k = .universal ∨ k = .declareTarget

private theorem MarkersKept.refl (old : List Marker) : MarkersKept old old := ⟨old, [], by simp, .inl rfl, by simp⟩

private theorem MarkersKept.trans {old mid new : List Marker} (h : MarkersKept old mid) (h' : MarkersKept mid new) :
    MarkersKept old new := by
  obtain ⟨kept, added, rfl, hkept, hadded⟩ := h
  obtain ⟨kept', added', rfl, rfl | rfl, hadded'⟩ := h'
  · refine ⟨kept, added ++ added', by simp, hkept, fun k hk => ?_⟩
    rcases List.mem_append.mp hk with hk | hk
    · exact hadded k hk
    · exact hadded' k hk
  · refine ⟨kept.filter (· != .declareTarget), added.filter (· != .declareTarget) ++ added', by simp, .inr ?_,
      fun k hk => ?_⟩
    · rcases hkept with rfl | rfl
      · rfl
      · simp
    · rcases List.mem_append.mp hk with hk | hk
      · exact hadded k (List.mem_filter.mp hk).1
      · exact hadded' k hk

/-- The function `g` is what moves leave of `f`, apart from its calls. -/
structure Kept (f g : Program.Function) : Prop extends Kin f g where
  isPublic : g.traits.isPublic = f.traits.isPublic ∨ (g.traits.isPublic = true ∧ .placeholder ∈ f.markers)
  order : MarkersKept f.markers g.markers

private theorem Kept.refl (f : Program.Function) : Kept f f := ⟨Kin.refl f, .inl rfl, .refl _⟩

private theorem Kept.trans {f g k : Program.Function} (h : Kept f g) (h' : Kept g k) : Kept f k where
  toKin := h.toKin.trans h'.toKin
  isPublic := by
    have hplaceholder := h.markers .placeholder (by decide) (by decide)
    rcases h'.isPublic with he | ⟨hp, hm⟩
    · rw [he]
      exact h.isPublic
    · exact .inr ⟨hp, hplaceholder.mp hm⟩
  order := h.order.trans h'.order

private theorem markersKept_addMarker {k : Marker} (hk : k = .universal ∨ k = .declareTarget) (p : Program)
    (n m : Node) : MarkersKept (p.function m).markers ((p.addMarker n k).function m).markers := by
  rw [Program.addMarker, Program.function_modifyFunction]
  split
  · dsimp only
    split
    · exact .refl _
    · exact ⟨(p.function m).markers, [k], rfl, .inl rfl, fun i hi => List.mem_singleton.mp hi ▸ hk⟩
  · exact .refl _

private theorem markersKept_removeMarker (p : Program) (n m : Node) :
    MarkersKept (p.function m).markers ((p.removeMarker n .declareTarget).function m).markers := by
  rw [Program.removeMarker, Program.function_modifyFunction]
  split
  · exact ⟨(p.function m).markers.filter (· != .declareTarget), [], by simp, .inr rfl, by simp⟩
  · exact .refl _

private theorem isPublic_setPublic {p : Program} (hp : p.hasMarker n .placeholder = true) (m : Node) :
    ((p.setPublic n true).function m).traits.isPublic = (p.function m).traits.isPublic ∨
      (((p.setPublic n true).function m).traits.isPublic = true ∧ .placeholder ∈ (p.function m).markers) := by
  rw [Program.setPublic, Program.function_modifyFunction]
  split
  · rename_i hm
    right
    rw [hm.1]
    exact ⟨rfl, by simpa [Program.hasMarker] using hp⟩
  · exact .inl rfl

private theorem Move.kept (hm : Move w gone made v) (hn : n < w.program.functions.size) :
    Kept (w.program.function n) (v.program.function n) := by
  have hkin := hm.kin hn
  cases hm with
  | note | touch | settle | classify => exact Kept.refl _
  | redirect => exact Kept.refl _
  | mark _ hk =>
    refine ⟨hkin, .inl ?_, markersKept_addMarker hk _ _ _⟩
    apply Program.function_modifyFunction_of_eq (·.traits.isPublic)
    intro x
    rfl
  | unmark =>
    refine ⟨hkin, .inl ?_, markersKept_removeMarker _ _ _⟩
    apply Program.function_modifyFunction_of_eq (·.traits.isPublic)
    intro x
    rfl
  | @publish m _ hp =>
    have hsame : ((w.program.setPublic m true).function n).markers = (w.program.function n).markers := by
      apply Program.function_modifyFunction_of_eq (·.markers)
      intro x
      rfl
    exact ⟨hkin, isPublic_setPublic hp n, by rw [hsame]; exact .refl _⟩
  | @discard m =>
    have hsame : ((w.program.remove m).function n).traits = (w.program.function n).traits ∧
        ((w.program.remove m).function n).markers = (w.program.function n).markers := by
      by_cases he : n = m
      · subst he
        rw [Program.function_remove_self hn]
        exact ⟨rfl, rfl⟩
      · rw [Program.function_remove_of_ne he]
        split <;> exact ⟨rfl, rfl⟩
    exact ⟨hkin, .inl (by rw [hsame.1]), by rw [hsame.2]; exact .refl _⟩
  | twin =>
    rw [withTwin, Program.function_withTwin_old _ _ hn]
    exact Kept.refl _

private theorem Moves.kept (hm : Moves w gone made v) (hn : n < w.program.functions.size) :
    Kept (w.program.function n) (v.program.function n) := by
  induction hm with
  | refl => exact Kept.refl _
  | step h hmove ih => exact ih.trans (hmove.kept (Nat.lt_of_lt_of_le hn h.size_le))

/-! ### Calls -/

/-- Of the calls of a function a move takes those of what it removes. -/
private theorem Move.callees (hm : Move w gone made v) (hn : n ∈ w.program.live) (hg : n ∉ gone) :
    (v.program.function n).callees =
      (w.program.function n).callees.filter fun e => (w.program.edge e).callee ∉ gone := by
  have hsame : ∀ q : Program, (q.function n).callees = (w.program.function n).callees →
      (q.function n).callees =
        (w.program.function n).callees.filter fun e => (w.program.edge e).callee ∉ ([] : List Node) := by
    intro q hq
    simp [hq]
  cases hm with
  | note | touch | settle | classify => exact hsame _ rfl
  | redirect => exact hsame _ rfl
  | mark | unmark | publish =>
    apply hsame
    apply Program.function_modifyFunction_of_eq (·.callees)
    intro x
    rfl
  | twin =>
    apply hsame
    rw [withTwin, Program.function_withTwin_old _ _ (Program.lt_size_of_mem_live hn)]
  | discard =>
    rw [List.mem_singleton] at hg
    rw [Program.function_remove_of_ne hg, (Program.mem_live.mp hn).2]
    apply List.filter_congr
    intro e _
    rw [Bool.eq_iff_iff]
    simp

private theorem Move.size_edges_le (hm : Move w gone made v) : w.program.edges.size ≤ v.program.edges.size := by
  cases hm with
  | twin =>
    have hsize : ∀ n isPublic, (w.program.withTwin n isPublic).edges = (w.program.clone n cloneSuffix).2.edges := by
      intro n isPublic
      unfold Program.withTwin
      split <;> rfl
    rw [withTwin, hsize, Program.clone_eq_extend, Program.size_edges_extend]
    exact Nat.le_add_right _ _
  | discard => exact (Program.size_edges_remove _ _).ge
  | redirect => exact (Program.size_edges_redirect _ _ _).ge
  | _ => exact Nat.le_refl _

/-- What a move makes of an edge: it may take it away, and it may send it to the accelerator side of the function where
it goes, if the caller is accelerator code. -/
private theorem Move.edge (hm : Move w gone made v) (he : e < w.program.edges.size) :
    (v.program.edge e).caller = (w.program.edge e).caller ∧ (v.program.edge e).throws = (w.program.edge e).throws ∧
    ((v.program.edge e).callee = (w.program.edge e).callee ∨
      ∃ m ∈ w.program.live, w.isAccelerator m = true ∧ e ∈ (w.program.function m).callees ∧
        w.summaries.twinOf? (w.program.edge e).callee = some (v.program.edge e).callee) := by
  cases hm with
  | note | touch | settle | classify => exact ⟨rfl, rfl, .inl rfl⟩
  | mark | unmark | publish => exact ⟨rfl, rfl, .inl rfl⟩
  | discard =>
    rw [Program.edge_remove]
    split <;> exact ⟨rfl, rfl, .inl rfl⟩
  | twin =>
    rw [withTwin, Program.edge_withTwin, Program.clone_eq_extend, Program.edge_extend_old he]
    exact ⟨rfl, rfl, .inl rfl⟩
  | @redirect m i b hd ha hi hb =>
    rw [Program.edge_redirect]
    split
    · rename_i heq
      refine ⟨rfl, rfl, .inr ⟨m, (Program.mem_definitions.mp hd).1, ha, ?_⟩⟩
      rw [heq.1]
      exact ⟨hi, hb⟩
    · exact ⟨rfl, rfl, .inl rfl⟩

/-- Only a kernel that is no placeholder becomes accelerator code. -/
private theorem Move.accelerator (hm : Move w gone made v) (hn : n < w.program.functions.size)
    (ha : (v.summaries.of n).accelerator = true) :
    (w.summaries.of n).accelerator = true ∨
      (w.program.hasMarker n .kernel = true ∧ w.program.hasMarker n .placeholder = false) := by
  have hdecided := hm.decided n
  generalize v.summaries.of n = s at hdecided ha
  cases hdecided with
  | same | released | function => exact .inl ha
  | removed | host => cases ha
  | kernel _ hp hk => exact .inr ⟨hk, hp⟩
  | twin hnew => exact absurd hnew (Nat.ne_of_lt hn)

/-- The call of `n` at the place `e` is the one of the program at the start, or goes to the accelerator side of the
function where that one goes. -/
structure Upheld (start : Program) (w : Workspace) (n : Node) (e : Nat) : Prop where
  caller : (w.program.edge e).caller = n
  throws : (w.program.edge e).throws = (start.edge e).throws
  callee : (w.program.edge e).callee = (start.edge e).callee ∨
    (start.hasMarker n .kernel = true ∧ start.hasMarker n .placeholder = false ∧
      (w.summaries.of (start.edge e).callee).bound = some (w.program.edge e).callee)

/-- The calls of the functions at the start, after moves that removed the functions `gone`. -/
structure Intact (start : Program) (gone : List Node) (w : Workspace) : Prop where
  size : start.edges.size ≤ w.program.edges.size
  callees : ∀ n ∈ start.live, n ∉ gone →
    (w.program.function n).callees = (start.function n).callees.filter fun e => (start.edge e).callee ∉ gone
  upheld : ∀ n ∈ start.live, ∀ e ∈ (start.function n).callees, Upheld start w n e
  accelerator : ∀ n ∈ start.live, (w.summaries.of n).accelerator = true →
    start.hasMarker n .kernel = true ∧ start.hasMarker n .placeholder = false

private theorem intact_start (hstart : start.Coherent) (j : Journal) : Intact start [] ⟨start, ∅, j⟩ where
  size := Nat.le_refl _
  callees n _ _ := by simp
  upheld n hn e he := ⟨hstart.caller_eq hn he, rfl, .inl rfl⟩
  accelerator n _ ha := by
    rw [Summaries.of_empty] at ha
    cases ha

/-- Whether a call is one of what a move removes can be read off the program at the start: neither a function that has
an accelerator side nor that side is removed. -/
private theorem Upheld.mem_gone_iff (h : Upheld start w n e) (hw : Paired base made w) (hm : Move w gone made' v) :
    (w.program.edge e).callee ∈ gone ↔ (start.edge e).callee ∈ gone := by
  rcases h.callee with he | ⟨-, -, hb⟩
  · rw [he]
  · obtain ⟨hhost, htwin⟩ := hw.kernel _ _ hb
    exact iff_of_false (hm.not_mem_gone htwin) (hm.not_mem_gone hhost)

private theorem Intact.upheld_move (h : Intact start gone w) (hstart : start.Coherent) (hw : Paired base made w)
    (hm : Move w gone' made' v) (hn : n ∈ start.live) (he : e ∈ (start.function n).callees) : Upheld start v n e := by
  have hold := h.upheld n hn e he
  have hlt : e < w.program.edges.size := Nat.lt_of_lt_of_le (hstart.lt_of_mem_callees hn he) h.size
  obtain ⟨hcaller, hthrows, hcallee⟩ := hm.edge hlt
  refine ⟨hcaller.trans hold.caller, hthrows.trans hold.throws, ?_⟩
  rcases hcallee with hcallee | ⟨m, hlive, ha, hmem, htwin⟩
  · rw [hcallee]
    exact hold.callee.imp id fun ⟨hk, hp, hb⟩ => ⟨hk, hp, hw.bound_mono hm hb⟩
  · -- the call that is sent elsewhere is one of `n`, which is accelerator code
    have hmn : m = n := (hw.coherent.caller_eq hlive hmem).symm.trans hold.caller
    have hacc : (w.summaries.of n).accelerator = true := by
      rw [hmn, isAccelerator, Bool.and_eq_true] at ha
      exact ha.2
    obtain ⟨hk, hp⟩ := h.accelerator n hn hacc
    have hbound := bound_of_twinOf? htwin
    refine .inr ⟨hk, hp, hw.bound_mono hm ?_⟩
    rcases hold.callee with hcallee | ⟨-, -, hb⟩
    · rw [← hcallee]
      exact hbound
    · -- it does not go to an accelerator side yet
      rw [(hw.pair _ _ hb).unbound] at hbound
      cases hbound

private theorem Intact.move (h : Intact start gone w) (hstart : start.Coherent) (hw : Paired base made w)
    (hm : Move w gone' made' v) (hlive : ∀ n ∈ start.live, n ∉ gone → n ∈ w.program.live)
    (hkin : ∀ n ∈ start.live, n < w.program.functions.size ∧ Kin (start.function n) (w.program.function n)) :
    Intact start (gone ++ gone') v := by
  refine ⟨h.size.trans hm.size_edges_le, ?_, fun n hn e he => h.upheld_move hstart hw hm hn he, ?_⟩
  · intro n hn hg
    rw [List.mem_append, not_or] at hg
    rw [hm.callees (hlive n hn hg.1) hg.2, h.callees n hn hg.1, List.filter_filter]
    apply List.filter_congr
    intro e he
    have hiff := (h.upheld n hn e he).mem_gone_iff hw hm
    rw [Bool.eq_iff_iff]
    simp [hiff, and_comm]
  · intro n hn ha
    obtain ⟨hlt, hk⟩ := hkin n hn
    rcases hm.accelerator hlt ha with ha | ⟨hkernel, hplaceholder⟩
    · exact h.accelerator n hn ha
    · rw [hk.hasMarker (by decide) (by decide)] at hkernel hplaceholder
      exact ⟨hkernel, hplaceholder⟩

private theorem Moves.intact {j : Journal} (hm : Moves ⟨start, ∅, j⟩ gone made w) (hstart : start.Coherent) :
    Intact start gone w := by
  induction hm with
  | refl => exact intact_start hstart j
  | step h hmove ih =>
    refine ih.move hstart (h.paired (paired_start hstart j)) hmove (fun n hn hg => h.live hn hg) fun n hn => ?_
    have hlt := Program.lt_size_of_mem_live hn
    exact ⟨Nat.lt_of_lt_of_le hlt h.size_le, h.kin hlt⟩

/-- An edge of a function that is left was taken away if and only if it went to a function that was removed. -/
private theorem Intact.edge_eq (h : Intact start gone w) (hstart : start.Coherent) (hw : w.program.Coherent)
    (hn : n ∈ start.live) (hg : n ∉ gone) (hl : n ∈ w.program.live) (he : e ∈ (start.function n).callees) :
    w.program.edge e =
      { caller := n
        callee := (w.program.edge e).callee
        throws := (start.edge e).throws
        removed := decide ((start.edge e).callee ∈ gone) } := by
  have hold := h.upheld n hn e he
  have hlt : e < w.program.edges.size := Nat.lt_of_lt_of_le (hstart.lt_of_mem_callees hn he) h.size
  have hmem : e ∈ (w.program.function n).callees ↔ (start.edge e).callee ∉ gone := by
    rw [h.callees n hn hg]
    simp [he]
  have hremoved : (w.program.edge e).removed = decide ((start.edge e).callee ∈ gone) := by
    rw [hw.callees n hl e] at hmem
    by_cases hc : (start.edge e).callee ∈ gone
    · have hno : (w.program.edge e).removed ≠ false := fun hr => hmem.mp ⟨hlt, hr, hold.caller⟩ hc
      simpa [hc] using hno
    · simpa [hc] using (hmem.mpr hc).2.1
  rw [← hremoved, ← hold.throws, ← hold.caller]

end Workspace

namespace Pass

variable {text : String} {options : Options} {start p : Program} {reports : List Report} {pass : Pass}

/-- Runs of a fresh pass leave the code of a program as it is, and every function that they do not remove: its calls are
the old ones less those of removed functions, and a call goes elsewhere only in a kernel that is no placeholder. -/
theorem host_program_kept (hparse : Program.parse text = .ok start) (hist : History options start reports pass p) :
    p.globals = start.globals ∧ p.blocks = start.blocks ∧ p.insts = start.insts ∧ p.operands = start.operands ∧
    ∀ n < start.functions.size, n ∉ reports.flatMap (·.removed) →
      n ∈ p.live ∧ Workspace.Kept (start.function n) (p.function n) ∧
      (p.function n).callees =
        ((start.function n).callees.filter fun e => (start.edge e).callee ∉ reports.flatMap (·.removed)) ∧
      ∀ e ∈ (start.function n).callees,
        p.edge e =
          { caller := n
            callee := (p.edge e).callee
            throws := (start.edge e).throws
            removed := decide ((start.edge e).callee ∈ reports.flatMap (·.removed)) } ∧
        ((p.edge e).callee = (start.edge e).callee ∨
          (start.hasMarker n .kernel = true ∧ start.hasMarker n .placeholder = false ∧
            (pass.summariesOrEmpty.of (start.edge e).callee).bound = some (p.edge e).callee)) := by
  have hstart := Program.coherent_parse hparse
  have hmoves := hist.moves {} {}
  have hintact := hmoves.intact hstart
  have hcoherent := (hist.paired hstart {}).coherent
  obtain ⟨hglobals, hblocks, hinsts, hoperands⟩ := hmoves.tables
  refine ⟨hglobals, hblocks, hinsts, hoperands, fun n hn hg => ?_⟩
  have hlive : n ∈ start.live := by
    obtain ⟨items, -, rfl⟩ := Program.parse_eq_ok hparse
    rw [Source.size_layOut] at hn
    exact (Source.live_layOut items).mpr hn
  have hleft : n ∈ p.live := hmoves.live hlive hg
  refine ⟨hleft, hmoves.kept hn, hintact.callees n hlive hg, fun e he => ⟨?_, (hintact.upheld n hlive e he).callee⟩⟩
  exact hintact.edge_eq hstart hcoherent hlive hg hleft he

/-- The kernel that is left keeps one of its two calls, which goes to the clone. -/
theorem host_program_kept_kernelText :
    let start := Source.layOut kernelItems
    let p := kernelRun.1.2.1
    p.edge 0 = ⟨0, 5, true, false⟩ ∧ p.edge 1 = ⟨0, 2, false, true⟩ ∧ p.blocks = start.blocks ∧
    0 < start.functions.size ∧ 0 ∉ [kernelRun.2].flatMap (·.removed) ∧
    0 ∈ p.live ∧ Workspace.Kept (start.function 0) (p.function 0) ∧
    (p.function 0).callees =
      ((start.function 0).callees.filter fun e => (start.edge e).callee ∉ [kernelRun.2].flatMap (·.removed)) ∧
    ∀ e ∈ (start.function 0).callees,
      p.edge e =
        { caller := 0
          callee := (p.edge e).callee
          throws := (start.edge e).throws
          removed := decide ((start.edge e).callee ∈ [kernelRun.2].flatMap (·.removed)) } ∧
      ((p.edge e).callee = (start.edge e).callee ∨
        (start.hasMarker 0 .kernel = true ∧ start.hasMarker 0 .placeholder = false ∧
          (kernelRun.1.1.summariesOrEmpty.of (start.edge e).callee).bound = some (p.edge e).callee)) := by
  obtain ⟨-, hblocks, -, -, hkept⟩ := host_program_kept parse_kernelText history_kernelRun
  have hgone : 0 ∉ [kernelRun.2].flatMap (·.removed) := by decide +kernel
  exact ⟨by decide +kernel, by decide +kernel, hblocks, by decide +kernel, hgone, hkept 0 (by decide +kernel) hgone⟩

end Pass

end Accelerator
