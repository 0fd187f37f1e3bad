import Accelerator.Proofs.Pairing
import Accelerator.Proofs.Redirection

/-!
# Edges follow bodies

A clone shares the body of its function, and edges are copied, sent elsewhere and taken away while bodies stay.
After any number of runs the edges of a live function are still the direct calls of its body, less those of functions
that were removed; and accelerator code calls the accelerator side of a function that has one.

Between two steps of a run a call may not have been sent to the accelerator side yet, so the invariant `Faithful`
allows both ends (`Follows`).  The last phase of a run settles all of them (`settled_run`).
-/

namespace Accelerator

namespace Program

variable {p : Program} {m n : Node} {e : Nat}

theorem callsOf_congr {q : Program} (hb : q.blocks = p.blocks) (hi : q.insts = p.insts)
    (hbody : (q.function m).body = (p.function n).body) : q.callsOf m = p.callsOf n := by
  unfold callsOf blocksOf
  rw [hb, hbody]
  have hinsts : q.instsOf = p.instsOf := by
    funext b
    rw [instsOf, instsOf, hi]
  rw [hinsts]

private theorem edgesOf_congr {q : Program} (hf : (q.function n).callees = (p.function n).callees)
    (he : ∀ e ∈ (p.function n).callees, q.edge e = p.edge e) : q.edgesOf n = p.edgesOf n := by
  rw [edgesOf, edgesOf, hf]
  exact List.map_congr_left he

private theorem Coherent.mem_edgesOf (h : p.Coherent) (hn : n ∈ p.live) {x : Edge} (hx : x ∈ p.edgesOf n) :
    x.caller = n ∧ x.removed = false := by
  obtain ⟨e, he, rfl⟩ := List.mem_map.mp hx
  obtain ⟨-, hr, hc⟩ := (h.callees n hn e).mp he
  exact ⟨hc, hr⟩

/-- A function loses its calls of a function that is removed, and keeps the others as they are. -/
private theorem Coherent.edgesOf_remove (h : p.Coherent) (hm : m ∈ p.live) (hn : n ∈ p.live) (hne : n ≠ m) :
    (p.remove m).edgesOf n = (p.edgesOf n).filter fun x => x.callee != m := by
  have hcallees : ((p.remove m).function n).callees =
      (p.function n).callees.filter fun e => (p.edge e).callee != m := by
    rw [function_remove_of_ne hne, (mem_live.mp hn).2]
    rfl
  rw [edgesOf, hcallees, edgesOf, List.filter_map]
  apply List.map_congr_left
  intro e he
  obtain ⟨hmem, hcallee⟩ := List.mem_filter.mp he
  obtain ⟨hlt, hr, hcaller⟩ := (h.callees n hn e).mp hmem
  have hat : e ∉ p.edgesAt m := by
    rw [h.mem_edgesAt hm hlt hr, hcaller]
    rintro (hk | hk)
    · exact hne hk
    · simp [hk] at hcallee
  rw [edge_remove, if_neg fun hk => hat hk.2]

/-- A call that is sent elsewhere belongs to one function only. -/
private theorem Coherent.edgesOf_redirect (h : p.Coherent) (hm : m ∈ p.live) (he : e ∈ (p.function m).callees)
    (hn : n ∈ p.live) (hne : n ≠ m) (callee : Node) : (p.redirect e callee).edgesOf n = p.edgesOf n := by
  refine edgesOf_congr rfl fun i hi => ?_
  rw [edge_redirect, if_neg]
  rintro ⟨rfl, -⟩
  exact hne ((h.caller_eq hn hi).symm.trans (h.caller_eq hm he))

end Program

namespace Workspace

/-- An edge of `n` follows a call of its body: it goes where the call goes, or `n` is accelerator code and it goes to
the accelerator side of the function that is called. -/
def Follows (w : Workspace) (n : Node) (x : Program.Edge) (call : Node × Bool) : Prop :=
  x.throws = call.2 ∧
    (x.callee = call.1 ∨ (w.isAccelerator n = true ∧ (w.summaries.of call.1).bound = some x.callee))

/-- The direct calls of the body of a function that go to live functions. -/
def liveCalls (p : Program) (n : Node) : List (Node × Bool) := (p.callsOf n).filter fun call => call.1 ∈ p.live

/-- The edges of every live function follow the calls of its body, which are calls of known functions; a declaration
has no calls. -/
structure Faithful (w : Workspace) : Prop where
  follows : ∀ n ∈ w.program.live, List.Forall₂ (w.Follows n) (w.program.edgesOf n) (liveCalls w.program n)
  known : ∀ n ∈ w.program.live, ∀ call ∈ w.program.callsOf n, call.1 < w.program.functions.size
  declared : ∀ n ∈ w.program.live, (w.program.function n).flags.definition = false → w.program.callsOf n = []

variable {w v : Workspace} {base : Nat} {gone made made' : List Node} {n : Node}

/-! ### What is decided stays decided -/

private theorem Move.callsOf (hm : Move w gone made v) (hn : n < w.program.functions.size) :
    v.program.callsOf n = w.program.callsOf n :=
  Program.callsOf_congr hm.tables.2.1 hm.tables.2.2.1 (hm.kin hn).body

private theorem isResolved_of_isAccelerator (ha : w.isAccelerator n = true) : (w.summaries.of n).isResolved = true := by
  rw [isAccelerator] at ha
  rw [Summary.isResolved, ha, Bool.or_true]

theorem Paired.bound_mono (hw : Paired base made w) (hm : Move w gone made' v) {b : Node}
    (hb : (w.summaries.of n).bound = some b) : (v.summaries.of n).bound = some b := by
  -- no function of a pair is a kernel, so none is removed
  obtain ⟨hhost, htwin⟩ := hw.kernel n b hb
  have hdecided := hm.decided n
  generalize v.summaries.of n = s at hdecided ⊢
  cases hdecided with
  | same | kernel | function => exact hb
  | removed hn => exact absurd hn (hm.not_mem_gone hhost)
  | released hb' hg =>
    rw [hb] at hb'
    cases hb'
    exact absurd hg (hm.not_mem_gone htwin)
  | host hr =>
    rw [Summary.isResolved_of_bound hb] at hr
    cases hr
  | twin hn => exact absurd hn (Nat.ne_of_lt (Program.lt_size_of_mem_live (hw.pair n b hb).host_live))

private theorem Move.isAccelerator_mono (hm : Move w gone made v) (hg : n ∉ gone) (ha : w.isAccelerator n = true) :
    v.isAccelerator n = true := by
  -- accelerator code is resolved, and a function that is still changed is not
  have hres := isResolved_of_isAccelerator ha
  have hdecided := hm.decided n
  unfold isAccelerator at ha ⊢
  generalize v.summaries.of n = s at hdecided ⊢
  cases hdecided with
  | same | released => exact ha
  | removed hn => exact absurd hn hg
  | kernel hr | function hr | host hr =>
    rw [hres] at hr
    cases hr
  | twin _ hkind => simpa [Summary.isParticipant] using hkind

private theorem Paired.follows_mono (hw : Paired base made w) (hm : Move w gone made' v) (hg : n ∉ gone)
    {x : Program.Edge} {call : Node × Bool} (hx : w.Follows n x call) : v.Follows n x call := by
  obtain ⟨ht, hc⟩ := hx
  refine ⟨ht, hc.imp id ?_⟩
  rintro ⟨ha, hb⟩
  exact ⟨hm.isAccelerator_mono hg ha, hw.bound_mono hm hb⟩

/-! ### Moves keep edges faithful -/

theorem Move.eq_size_of_mem_made (hm : Move w gone made v) (hn : n ∈ made) : n = w.program.functions.size := by
  cases hm with
  | twin => exact List.mem_singleton.mp hn
  | _ => cases hn

/-- Each live function has the body of a function that was live before. -/
private theorem Move.exists_origin (hm : Move w gone made v) (hn : n ∈ v.program.live) :
    ∃ o ∈ w.program.live, v.program.callsOf n = w.program.callsOf o ∧
      (v.program.function n).flags.definition = (w.program.function o).flags.definition := by
  rcases hm.mem_live.mp hn with ⟨hl, -⟩ | hmade
  · have hlt := Program.lt_size_of_mem_live hl
    exact ⟨n, hl, hm.callsOf hlt, by rw [(hm.kin hlt).flags]⟩
  · have htables := hm.tables
    have hsize := hm.eq_size_of_mem_made hmade
    cases hm with
    | @twin o _ isPublic hl =>
      have hnew : (w.program.withTwin o isPublic).function n = w.program.twinFunction o isPublic := by
        rw [hsize, Program.function_withTwin_new]
      refine ⟨o, hl, Program.callsOf_congr htables.2.1 htables.2.2.1 ?_, ?_⟩
      · show ((w.program.withTwin o isPublic).function n).body = (w.program.function o).body
        rw [hnew]
        rfl
      · show ((w.program.withTwin o isPublic).function n).flags.definition = _
        rw [hnew]
        rfl
    | _ => cases hmade

/-- Of the calls of a body those of removed functions go; a new clone is not called yet. -/
private theorem Faithful.liveCalls_move (hf : w.Faithful) (hm : Move w gone made v) (hn : n ∈ w.program.live) :
    liveCalls v.program n = (liveCalls w.program n).filter fun call => call.1 ∉ gone := by
  rw [liveCalls, liveCalls, hm.callsOf (Program.lt_size_of_mem_live hn), List.filter_filter]
  apply List.filter_congr
  intro call hcall
  have hmade : call.1 ∉ made := fun hk =>
    Nat.ne_of_lt (hf.known n hn call hcall) (hm.eq_size_of_mem_made hk)
  rw [Bool.eq_iff_iff]
  simp [hm.mem_live, hmade, and_comm]

/-- The functions of a pair are not removed, so an edge goes if and only if the call that it follows goes. -/
private theorem Paired.follows_mem_gone (hw : Paired base made w) (hm : Move w gone made' v) {x : Program.Edge}
    {call : Node × Bool} (hx : w.Follows n x call) : x.callee ∈ gone ↔ call.1 ∈ gone := by
  rcases hx.2 with hc | ⟨-, hb⟩
  · rw [hc]
  · obtain ⟨h₁, h₂⟩ := hw.kernel _ _ hb
    exact iff_of_false (hm.not_mem_gone h₂) (hm.not_mem_gone h₁)

private theorem Faithful.follows_move (hf : w.Faithful) (hw : Paired base made w) (hm : Move w gone made' v)
    (hn : n ∈ w.program.live) (hg : n ∉ gone)
    (he : v.program.edgesOf n = (w.program.edgesOf n).filter fun x => x.callee ∉ gone) :
    List.Forall₂ (v.Follows n) (v.program.edgesOf n) (liveCalls v.program n) := by
  rw [he, hf.liveCalls_move hm hn]
  have hkept := List.rel_filter (R := w.Follows n) (p := fun x => x.callee ∉ gone) (q := fun call => call.1 ∉ gone)
    (fun x call hx => by simpa using not_congr (hw.follows_mem_gone hm hx)) (hf.follows n hn)
  exact hkept.imp fun x call hx => hw.follows_mono hm hg hx

/-- The calls of a new clone go where the body says: they were copied from a function that is not accelerator code. -/
private theorem Faithful.follows_withTwin (hf : w.Faithful) {kind : Kind} {isPublic : Bool} (hn : n ∈ w.program.live)
    (hr : (w.summaries.of n).isResolved = false)
    (hm : Move w [] [w.program.functions.size] (w.withTwin n kind isPublic)) :
    List.Forall₂ ((w.withTwin n kind isPublic).Follows w.program.functions.size)
      ((w.withTwin n kind isPublic).program.edgesOf w.program.functions.size)
      (liveCalls (w.withTwin n kind isPublic).program w.program.functions.size) := by
  have hedges : (w.withTwin n kind isPublic).program.edgesOf w.program.functions.size =
      (w.program.edgesOf n).map ({ · with caller := w.program.functions.size }) := by
    rw [← Program.edgesOf_clone_new w.program n cloneSuffix, withTwin, Program.edgesOf, Program.edgesOf,
      Program.function_withTwin_new, Program.clone_eq_extend, Program.function_extend_new]
    exact List.map_congr_left fun e _ => Program.edge_withTwin _ _ _ e
  have hcalls : liveCalls (w.withTwin n kind isPublic).program w.program.functions.size =
      liveCalls (w.withTwin n kind isPublic).program n := by
    rw [liveCalls, liveCalls]
    congr 1
    refine Program.callsOf_congr rfl rfl ?_
    show ((w.program.withTwin n isPublic).function w.program.functions.size).body =
      ((w.program.withTwin n isPublic).function n).body
    rw [Program.function_withTwin_new, Program.function_withTwin_old _ _ (Program.lt_size_of_mem_live hn)]
    rfl
  have hlive : liveCalls (w.withTwin n kind isPublic).program n = liveCalls w.program n := by
    rw [hf.liveCalls_move hm hn]
    simp
  rw [hedges, hcalls, hlive, List.forall₂_map_left_iff]
  refine (hf.follows n hn).imp ?_
  rintro x call ⟨ht, hc | ⟨ha, -⟩⟩
  · exact ⟨ht, .inl hc⟩
  · rw [isResolved_of_isAccelerator ha] at hr
    cases hr

/-- A call that is sent to an accelerator side was one of its host function, since an accelerator side has none. -/
private theorem Faithful.follows_redirect (hf : w.Faithful) (hw : Paired base made w) {e : Nat} {b : Node}
    (hn : n ∈ w.program.live) (ha : w.isAccelerator n = true)
    (hb : w.summaries.twinOf? (w.program.edge e).callee = some b) :
    List.Forall₂ (w.Follows n) ((w.program.redirect e b).edgesOf n) (liveCalls w.program n) := by
  have hfollows := hf.follows n hn
  rw [Program.edgesOf, List.forall₂_map_left_iff] at hfollows ⊢
  refine hfollows.imp fun i call hi => ?_
  rw [Program.edge_redirect]
  split
  · rename_i hie
    rw [hie.1] at hi ⊢
    have hbound := bound_of_twinOf? hb
    refine ⟨hi.1, .inr ⟨ha, ?_⟩⟩
    -- an edge that ends at an accelerator side already could not be sent on
    rcases hi.2 with hc | ⟨-, hc⟩
    · rw [← hc]
      exact hbound
    · rw [(hw.pair _ _ hc).unbound] at hbound
      cases hbound
  · exact hi

/-- The edges of a function that a move leaves alone, but for calls of what it removes. -/
private theorem Move.edgesOf (hm : Move w gone made v) (hw : w.program.Coherent) (hn : n ∈ w.program.live)
    (hg : n ∉ gone) :
    v.program.edgesOf n = ((w.program.edgesOf n).filter fun x => x.callee ∉ gone) ∨
      ∃ e b, w.isAccelerator n = true ∧ w.summaries.twinOf? (w.program.edge e).callee = some b ∧
        v = { w with program := w.program.redirect e b } := by
  have hsame : ∀ q : Program, (q.function n).callees = (w.program.function n).callees →
      (∀ e ∈ (w.program.function n).callees, q.edge e = w.program.edge e) →
      q.edgesOf n = (w.program.edgesOf n).filter fun x => x.callee ∉ ([] : List Node) := by
    intro q hc he
    rw [Program.edgesOf_congr hc he]
    simp
  cases hm with
  | note | touch | settle | classify => exact .inl (hsame _ rfl fun _ _ => rfl)
  | mark | unmark | publish =>
    left
    refine hsame _ ?_ fun _ _ => rfl
    apply Program.function_modifyFunction_of_eq (·.callees)
    intro x
    rfl
  | discard hk =>
    rw [List.mem_singleton] at hg
    left
    rw [hw.edgesOf_remove (Program.mem_definitions.mp hk).1 hn hg]
    apply List.filter_congr
    intro x _
    rw [Bool.eq_iff_iff]
    simp
  | twin =>
    left
    refine hsame _ ?_ fun e he => ?_
    · rw [withTwin, Program.function_withTwin_old _ _ (Program.lt_size_of_mem_live hn)]
    · rw [withTwin, Program.edge_withTwin, Program.clone_eq_extend,
        Program.edge_extend_old (hw.lt_of_mem_callees hn he)]
  | @redirect m e b hk ha he hb =>
    by_cases hnm : n = m
    · subst hnm
      exact .inr ⟨e, b, ha, hb, rfl⟩
    · left
      have := hw.edgesOf_redirect (Program.mem_definitions.mp hk).1 he hn hnm b
      rw [this]
      simp

private theorem Move.faithful (hm : Move w gone made' v) (hw : Paired base made w) (hf : w.Faithful) : v.Faithful := by
  constructor
  · intro n hn
    rcases hm.mem_live.mp hn with ⟨hl, hg⟩ | hmade
    · rcases hm.edgesOf hw.coherent hl hg with he | ⟨e, b, ha, hb, rfl⟩
      · exact hf.follows_move hw hm hl hg he
      · have hlive : liveCalls (w.program.redirect e b) n = liveCalls w.program n := rfl
        show List.Forall₂ (w.Follows n) _ _
        rw [hlive]
        exact hf.follows_redirect hw hl ha hb
    · cases hm with
      | twin hl hr hp hk hv hkind =>
        rw [List.mem_singleton] at hmade
        subst hmade
        exact hf.follows_withTwin hl hr (.twin w hl hr hp hk hv hkind)
      | _ => cases hmade
  · intro n hn call hcall
    obtain ⟨o, ho, hcalls, -⟩ := hm.exists_origin hn
    rw [hcalls] at hcall
    have := hm.size
    exact Nat.lt_of_lt_of_le (hf.known o ho call hcall) (by omega)
  · intro n hn hd
    obtain ⟨o, ho, hcalls, hflags⟩ := hm.exists_origin hn
    rw [hcalls]
    exact hf.declared o ho (hflags ▸ hd)

theorem Moves.faithful (hm : Moves w gone made' v) (hw : Paired base made w) (hf : w.Faithful) : v.Faithful := by
  induction hm with
  | refl => exact hf
  | step h hmove ih => exact hmove.faithful (h.paired hw) ih

/-! ### The calls that are left at the end of a run -/

/-- No call of accelerator code is left that could be sent to an accelerator side. -/
def Settled (w : Workspace) : Prop :=
  ∀ n ∈ w.program.definitions, w.isAccelerator n = true → ∀ e ∈ (w.program.function n).callees,
    w.summaries.twinOf? (w.program.edge e).callee = none

theorem Settled.withJournal (hs : w.Settled) (j : Journal) : Settled { w with journal := j } := hs

/-- An accelerator side has none itself. -/
private theorem Paired.twinOf?_twin (hw : Paired base made w) {b : Node} (hb : w.summaries.twinOf? n = some b) :
    w.summaries.twinOf? b = none := by
  have hpair := hw.pair n b (bound_of_twinOf? hb)
  simp [Summaries.twinOf?, hpair.twin]

private theorem Paired.settled_retarget (hw : Paired base made w) : Settled w.retarget.1 := by
  have hsame : SameButEnds w w.retarget.1 := same_retargetNodes w 0 _
  intro n hn ha e he
  rw [hsame.definitions] at hn
  rw [hsame.isAccelerator] at ha
  rw [hsame.function] at he
  rw [hsame.summaries]
  exact twinOf?_retarget hw.coherent (fun n b hb => hw.twinOf?_twin hb) (mem_acceleratorCalls.mpr ⟨n, hn, ha, he⟩)

theorem Paired.settled_run (hw : Paired base made w) (options : Options) : Settled (w.run options).1 := by
  obtain ⟨u, hu, heq⟩ := run_eq options w
  rw [heq]
  exact (hu.paired hw).settled_retarget

private theorem Faithful.twinOf?_callee (hf : w.Faithful) (hs : w.Settled) (hn : n ∈ w.program.live)
    (ha : w.isAccelerator n = true) {x : Program.Edge} (hx : x ∈ w.program.edgesOf n) :
    w.summaries.twinOf? x.callee = none := by
  cases hd : (w.program.function n).flags.definition with
  | true =>
    obtain ⟨e, he, rfl⟩ := List.mem_map.mp hx
    exact hs n (Program.mem_definitions.mpr ⟨hn, hd⟩) ha e he
  | false =>
    have hfollows := hf.follows n hn
    rw [liveCalls, hf.declared n hn hd, List.filter_nil, List.forall₂_nil_right_iff] at hfollows
    rw [hfollows] at hx
    cases hx

/-- Where the edges of a function end once no call is left to be sent elsewhere. -/
private theorem Faithful.edgesOf_eq (hf : w.Faithful) (hw : Paired base made w) (hs : w.Settled)
    (hn : n ∈ w.program.live) :
    w.program.edgesOf n = (liveCalls w.program n).map fun call =>
      ⟨n, if w.isAccelerator n then (w.summaries.of call.1).bound.getD call.1 else call.1, call.2, false⟩ := by
  have hends : ∀ x ∈ w.program.edgesOf n, (x.caller = n ∧ x.removed = false) ∧
      (w.isAccelerator n = true → w.summaries.twinOf? x.callee = none) := fun x hx =>
    ⟨hw.coherent.mem_edgesOf hn hx, fun ha => hf.twinOf?_callee hs hn ha hx⟩
  have hall := (List.forall₂_and_left _ _).mpr ⟨hends, hf.follows n hn⟩
  rw [← List.forall₂_eq_eq_eq, List.forall₂_map_right_iff]
  refine hall.imp ?_
  rintro ⟨caller, callee, throws, removed⟩ call ⟨⟨⟨hcaller, hremoved⟩, hsettled⟩, hthrows, hcallee⟩
  dsimp only at hcaller hremoved hsettled hthrows hcallee
  rw [hcaller, hremoved, hthrows]
  congr 1
  rcases hcallee with hc | ⟨ha, hb⟩
  · split
    · rename_i ha
      -- a function with an accelerator side would still have to be left for it
      cases hb : (w.summaries.of call.1).bound with
      | none => exact hc
      | some b =>
        have hpair := hw.pair _ _ hb
        have hnone := hsettled ha
        rw [hc] at hnone
        simp [Summaries.twinOf?, Summary.isParticipant, hpair.kind_ne, hpair.host, hb] at hnone
    · exact hc
  · rw [if_pos ha, hb]
    rfl

end Workspace

namespace Source

theorem faithful_layOut {items : List (Item String)} (h : WellNamed items) (j : Journal) :
    Workspace.Faithful ⟨layOut items, ∅, j⟩ := by
  have hknown : ∀ n ∈ (layOut items).live, ∀ call ∈ (layOut items).callsOf n, call.1 < (functions items).length := by
    intro n hn call hcall
    have hlt := (live_layOut items).mp hn
    have hlt' : n < (callTable items).length := by simpa [callTable] using hlt
    rw [callsOf_layOut items hlt, List.getD_eq_getElem _ _ hlt'] at hcall
    exact h.lt_of_mem_callTable (List.getElem_mem hlt') hcall
  constructor
  · intro n hn
    have hall : Workspace.liveCalls (layOut items) n = (layOut items).callsOf n := by
      rw [Workspace.liveCalls, List.filter_eq_self]
      intro call hcall
      simpa [live_layOut] using hknown n hn call hcall
    show List.Forall₂ _ ((layOut items).edgesOf n) (Workspace.liveCalls (layOut items) n)
    rw [hall, edgesOf_layOut items ((live_layOut items).mp hn), List.forall₂_map_left_iff, List.forall₂_same]
    exact fun call _ => ⟨rfl, .inl rfl⟩
  · intro n hn call hcall
    have := hknown n hn call hcall
    rwa [← size_layOut] at this
  · intro n hn hd
    have hlt := (live_layOut items).mp hn
    have hbody : (functions items)[n].body = none := by
      have hd' : ((layOut items).function n).flags.definition = false := hd
      rw [function_layOut items hlt] at hd'
      simpa [Function.flags] using hd'
    have hlt' : n < (callTable items).length := by simpa [callTable] using hlt
    show (layOut items).callsOf n = []
    rw [callsOf_layOut items hlt, List.getD_eq_getElem _ _ hlt']
    simp [callTable, Function.calls, Function.insts, Function.blocks, hbody]

end Source

namespace Pass

variable {text : String} {options : Options} {start p : Program} {reports : List Report} {pass : Pass}

/-- At the end of every run no call of accelerator code is left that could be sent to an accelerator side. -/
private theorem History.settled (hstart : start.Coherent) (hist : History options start reports pass p) (j : Journal) :
    (pass.workspace p j).Settled := by
  cases hist with
  | fresh =>
    intro n _ ha
    have : (∅ : Summaries).of n = {} := Summaries.of_empty n
    simp [Workspace.isAccelerator, Pass.workspace, Pass.summariesOrEmpty, this, Summary.isParticipant] at ha
  | @execute _ pass p hist k =>
    rw [workspace_execute]
    exact ((hist.paired hstart k).settled_run pass.options).withJournal j

/-- After any number of runs of a fresh pass the edges of a live function are the direct calls of its body that go to
live functions, in order and with their flags.  An edge goes where its call goes, but one of accelerator code goes to
the accelerator side of a function that has one. -/
theorem edges_follow_bodies (hparse : Program.parse text = .ok start) (hist : History options start reports pass p)
    {n : Node} (hn : n ∈ p.live) :
    p.edgesOf n = ((p.callsOf n).filter fun call => call.1 ∈ p.live).map fun call =>
      { caller := n
        callee :=
          if (pass.summariesOrEmpty.of n).isParticipant && (pass.summariesOrEmpty.of n).accelerator then
            (pass.summariesOrEmpty.of call.1).bound.getD call.1
          else call.1
        throws := call.2
        removed := false } := by
  obtain ⟨items, hitems, rfl⟩ := Program.parse_eq_ok hparse
  have hstart := hitems.coherent_layOut
  have hfaithful := (hist.moves {} {}).faithful (Workspace.paired_start hstart {}) (Source.faithful_layOut hitems {})
  exact hfaithful.edgesOf_eq (hist.paired hstart {}) (hist.settled hstart {}) hn

/-- The kernel that is left calls the clone in place of the function, and no longer calls the other kernel. -/
theorem edges_follow_bodies_kernelText :
    kernelRerun.1.2.1.callsOf 0 = [(1, true), (2, false)] ∧
    kernelRerun.1.2.1.edgesOf 0 = [⟨0, 5, true, false⟩] ∧
    kernelRerun.1.2.1.edgesOf 0 =
      ((kernelRerun.1.2.1.callsOf 0).filter fun call => call.1 ∈ kernelRerun.1.2.1.live).map fun call =>
        { caller := 0
          callee :=
            if (kernelRerun.1.1.summariesOrEmpty.of 0).isParticipant &&
                (kernelRerun.1.1.summariesOrEmpty.of 0).accelerator then
              (kernelRerun.1.1.summariesOrEmpty.of call.1).bound.getD call.1
            else call.1
          throws := call.2
          removed := false } :=
  ⟨by decide +kernel, by decide +kernel,
    edges_follow_bodies parse_kernelText history_kernelRerun (by decide +kernel)⟩

end Pass

end Accelerator
