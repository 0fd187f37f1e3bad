import Accelerator.Proofs.Selection

/-!
# The verdicts of a survey

A survey changes markers while it goes through the definitions, and whether a definition can be offloaded depends on
the functions that it calls, which may have been judged before.  Still each verdict is that of the program at the
start, so what the survey leaves behind can be said without its order: the markers of every function and the lines of
the journal (`function_surveyNodes`, `journal_surveyNodes`).  The kernels are removed one after the other, and together
they take with them the calls that one of them makes or gets (`function_discards`, `edges_discards`).
-/

namespace Accelerator

namespace Program

variable {p : Program} {n : Node}

/-- What becomes of an edge when the functions `gone` are removed. -/
def Edge.without (x : Edge) (gone : List Node) : Edge :=
  { x with removed := x.removed || decide (x.caller ∈ gone) || decide (x.callee ∈ gone) }

private theorem Edge.without_nil (x : Edge) : x.without [] = x := by
  simp [without]

private theorem Edge.without_without (x : Edge) (gone gone' : List Node) :
    (x.without gone).without gone' = x.without (gone ++ gone') := by
  simp only [without, List.mem_append, Bool.decide_or]
  congr 1
  ac_rfl

private theorem Edge.removed_without {x : Edge} {gone : List Node} :
    (x.without gone).removed = false ↔ x.removed = false ∧ x.caller ∉ gone ∧ x.callee ∉ gone := by
  simp [without, and_assoc]

/-- The removal of a live function takes away the edges at which it stands, and no other edge. -/
private theorem Coherent.edges_remove (h : p.Coherent) (hn : n ∈ p.live) :
    (p.remove n).edges = p.edges.map (·.without [n]) := by
  refine Array.ext (by simp) fun e he₁ he₂ => ?_
  have he : e < p.edges.size := by simpa using he₂
  rw [← edge_of_lt he₁, Array.getElem_map, ← edge_of_lt he, edge_remove]
  cases hr : (p.edge e).removed with
  | true =>
    have hgone : (p.edge e).without [n] = { p.edge e with removed := true } := by simp [Edge.without, hr]
    rw [hgone, ← hr, ite_self]
  | false =>
    have hat := h.mem_edgesAt hn he hr
    split
    · rename_i hg
      have hend := hat.mp hg.2
      simpa [Edge.without, hr] using hend
    · rename_i hg
      have hend : ¬((p.edge e).caller = n ∨ (p.edge e).callee = n) := fun hk => hg ⟨he, hat.mpr hk⟩
      rw [not_or] at hend
      simp [Edge.without, hr, hend]
      rw [← hr]

/-- What becomes of the function at a node when the functions `gone` are removed. -/
def functionWithout (p : Program) (gone : List Node) (m : Node) : Function :=
  { p.function m with
    callees := if m ∈ gone then [] else (p.function m).callees.filter fun e => (p.edge e).callee ∉ gone
    removed := (p.function m).removed || decide (m ∈ gone) }

private theorem functionWithout_nil (p : Program) (m : Node) : p.functionWithout [] m = p.function m := by
  simp [functionWithout]

private theorem Coherent.function_remove (h : p.Coherent) (hn : n ∈ p.live) (m : Node) :
    (p.remove n).function m = p.functionWithout [n] m := by
  by_cases hm : m = n
  · rw [hm, function_remove_self (lt_size_of_mem_live hn)]
    simp [functionWithout]
  · rw [function_remove_of_ne hm]
    split
    · rename_i hr
      -- a function that is gone has no calls left to lose
      simp [functionWithout, hm, (h.tidy m).callees hr]
      rw [← (h.tidy m).callees hr]
    · have hfilter : ∀ e, ((p.edge e).callee != n) = !decide ((p.edge e).callee = n) := fun _ => rfl
      simp [functionWithout, hm, hfilter]

private theorem Coherent.functionWithout_remove (h : p.Coherent) (hn : n ∈ p.live) (gone : List Node) (m : Node) :
    (p.remove n).functionWithout gone m = p.functionWithout (n :: gone) m := by
  rw [functionWithout, h.function_remove hn]
  simp only [(ends_remove p n _).2, functionWithout]
  by_cases hm : m = n
  · simp [hm]
  · by_cases hg : m ∈ gone <;> simp [hm, hg, List.filter_filter, Bool.and_comm]

end Program

private theorem Summary.not_mem_of_bound_without {s : Summary} {gone : List Node} {n : Node}
    (h : (s.without gone).bound = some n) : n ∉ gone := by
  rw [without, Option.filter_eq_some_iff] at h
  simpa using h.2

namespace Workspace

variable {w v : Workspace} {l : List Node} {m n : Node}

/-! ### Looking at the definitions -/

/-- The markers of a function after its verdict: one that can be offloaded is marked for both sides, one that cannot
loses its mark for the device, and one that is bound is not looked at. -/
def verdictMarkers (w : Workspace) (n : Node) : List Marker :=
  let markers := (w.program.function n).markers
  if w.isFit n then (if .universal ∈ markers then markers else markers ++ [.universal])
  else if w.isUnfit n then markers.filter (· != .declareTarget)
  else markers

/-- What there is to say about a function that cannot be offloaded. -/
def verdictNotice? (w : Workspace) (n : Node) : Option Notice :=
  if (w.summaries.of n).bound.isNone then
    (w.program.obstacle? n).map fun o => ⟨.note, w.program.name n, obstacleNotice (w.program.name n) o⟩
  else none

private theorem markers_judged (hn : n < w.program.functions.size) :
    ((w.judged n).function m).markers =
      if m = n then w.verdictMarkers n else (w.program.function m).markers := by
  unfold judged verdictMarkers
  by_cases hm : m = n
  · subst hm
    rw [if_pos rfl]
    split_ifs <;> simp_all [Program.addMarker, Program.removeMarker, Program.function_modifyFunction]
  · rw [if_neg hm]
    split_ifs <;> simp [Program.addMarker, Program.removeMarker, Program.function_modifyFunction, hm]

private theorem verdictMarkers_congr (hr : Program.Remarked w.program v.program)
    (hs : ∀ m, v.summaries.of m = w.summaries.of m)
    (hm : (v.program.function n).markers = (w.program.function n).markers) :
    v.verdictMarkers n = w.verdictMarkers n := by
  rw [verdictMarkers, verdictMarkers, isFit_congr hr hs, isUnfit_congr hr hs, hm]

private theorem verdictNotice?_congr (hr : Program.Remarked w.program v.program)
    (hs : ∀ m, v.summaries.of m = w.summaries.of m) (n : Node) : v.verdictNotice? n = w.verdictNotice? n := by
  have hname : v.program.name n = w.program.name n := hr.read (·.name) (fun _ => rfl) n
  rw [verdictNotice?, verdictNotice?, hs, hr.obstacle?, hname]

/-- One verdict after the other marks every function as the program at the start says. -/
private theorem markers_surveyNodes (verbose : Bool) (hnodup : l.Nodup) (hl : ∀ n ∈ l, n < w.program.functions.size)
    (found : Survey) (m : Node) :
    ((l.foldl (surveyNode verbose) (w, found)).1.program.function m).markers =
      if m ∈ l then w.verdictMarkers m else (w.program.function m).markers := by
  induction l generalizing w found with
  | nil => simp
  | cons n l ih =>
    rw [List.nodup_cons] at hnodup
    have hn := hl n List.mem_cons_self
    obtain ⟨j, hj⟩ := surveyNode_eq verbose w found n
    have hfirst := judged_singleton hn j
    rw [List.foldl_cons, hj, ih (w := ⟨w.judged n, w.summaries.touch n, j⟩) hnodup.2
      (fun k hk => by rw [hfirst.remarked.size]; exact hl k (List.mem_cons_of_mem n hk))]
    have hmarkers := markers_judged (m := m) hn
    by_cases hm : m = n
    · rw [if_pos hm] at hmarkers
      rw [if_neg (hm ▸ hnodup.1), if_pos (hm ▸ List.mem_cons_self), hmarkers, hm]
    · rw [if_neg hm] at hmarkers
      simp only [List.mem_cons, hm, false_or]
      split
      · exact verdictMarkers_congr hfirst.remarked hfirst.summaries hmarkers
      · exact hmarkers

theorem function_surveyNodes (verbose : Bool) (hnodup : l.Nodup) (hl : ∀ n ∈ l, n < w.program.functions.size)
    (found : Survey) (m : Node) :
    (l.foldl (surveyNode verbose) (w, found)).1.program.function m =
      { w.program.function m with
        markers := if m ∈ l then w.verdictMarkers m else (w.program.function m).markers } := by
  have hmarkers := markers_surveyNodes verbose hnodup hl found m
  have hrest := (judged_surveyNodes verbose hl found).1.remarked.function m
  generalize (l.foldl (surveyNode verbose) (w, found)).1.program.function m = f at hmarkers hrest
  rw [← hmarkers]
  calc f = { f.unmarked with markers := f.markers } := rfl
    _ = { (w.program.function m).unmarked with markers := f.markers } := by rw [hrest]

private theorem journal_surveyNode (verbose : Bool) (w : Workspace) (found : Survey) (n : Node) :
    (surveyNode verbose (w, found) n).1.journal =
      { notices := w.journal.notices ++ if verbose then (w.verdictNotice? n).toList else []
        tally := { w.journal.tally with
          considered := w.journal.tally.considered + [n].countP fun m => (w.summaries.of m).bound.isNone
          rejected := w.journal.tally.rejected + [n].countP w.isUnfit } } := by
  unfold surveyNode verdictNotice? isUnfit
  dsimp only
  rw [Summaries.of_touch]
  cases hb : (w.summaries.of n).bound with
  | some b => simp [hb]
  | none =>
    cases ho : w.program.obstacle? n with
    | none => simp [hb, ho, Journal.countConsidered]
    | some o =>
      have hreject : (reject verbose ⟨w.program, w.summaries.touch n, w.journal.countConsidered⟩ n o).journal =
          ⟨w.journal.notices ++
              if verbose then [⟨.note, w.program.name n, obstacleNotice (w.program.name n) o⟩] else [],
            { w.journal.tally with
              considered := w.journal.tally.considered + 1, rejected := w.journal.tally.rejected + 1 }⟩ := by
        cases verbose <;> simp [reject, Journal.countConsidered, Journal.countRejected, Journal.emit]
      rw [if_neg (by simp)]
      dsimp only
      rw [apply_ite Prod.fst, ite_self, hreject]
      simp [hb, ho]

/-- Every function is counted and named as the program at the start says, in the order of the list. -/
theorem journal_surveyNodes (verbose : Bool) (hl : ∀ n ∈ l, n < w.program.functions.size) (found : Survey) :
    (l.foldl (surveyNode verbose) (w, found)).1.journal =
      { notices := w.journal.notices ++ if verbose then l.filterMap w.verdictNotice? else []
        tally := { w.journal.tally with
          considered := w.journal.tally.considered + l.countP fun m => (w.summaries.of m).bound.isNone
          rejected := w.journal.tally.rejected + l.countP w.isUnfit } } := by
  induction l generalizing w found with
  | nil => simp
  | cons n l ih =>
    have hjournal := journal_surveyNode verbose w found n
    obtain ⟨j, hj⟩ := surveyNode_eq verbose w found n
    rw [hj] at hjournal
    dsimp only at hjournal
    have hfirst := judged_singleton (hl n List.mem_cons_self) j
    have hunfit : isUnfit ⟨w.judged n, w.summaries.touch n, j⟩ = w.isUnfit := by
      funext m
      exact isUnfit_congr hfirst.remarked hfirst.summaries m
    have hnotice : verdictNotice? ⟨w.judged n, w.summaries.touch n, j⟩ = w.verdictNotice? := by
      funext m
      exact verdictNotice?_congr hfirst.remarked hfirst.summaries m
    rw [List.foldl_cons, hj, ih (w := ⟨w.judged n, w.summaries.touch n, j⟩)
      (fun m hm => by rw [hfirst.remarked.size]; exact hl m (List.mem_cons_of_mem n hm)), hunfit, hnotice, hjournal]
    simp only [Summaries.of_touch, Journal.mk.injEq, Tally.mk.injEq, and_true]
    rw [← List.singleton_append (l := l), List.countP_append, List.countP_append, List.filterMap_append]
    refine ⟨?_, by omega, by omega⟩
    cases verbose with
    | false => simp
    | true => cases h : w.verdictNotice? n <;> simp [h]

private theorem mem_surveyNodes (verbose : Bool) (found : Survey) :
    m ∈ (l.foldl (surveyNode verbose) (w, found)).1.summaries ↔ m ∈ l ∨ m ∈ w.summaries := by
  induction l generalizing w found with
  | nil => simp
  | cons n l ih =>
    obtain ⟨j, hj⟩ := surveyNode_eq verbose w found n
    rw [List.foldl_cons, hj, ih, Summaries.touch, Summaries.mem_update, List.mem_cons]
    tauto

/-! ### Removing the kernels that were found -/

theorem edges_discards (hw : w.program.Coherent) (hnodup : l.Nodup) (hlive : ∀ n ∈ l, n ∈ w.program.live) :
    (l.foldl discard w).program.edges = w.program.edges.map (·.without l) := by
  induction l generalizing w with
  | nil => simp [Program.Edge.without_nil]
  | cons n l ih =>
    obtain ⟨hcoherent, hrest⟩ := discard_next hw hnodup hlive
    rw [List.foldl_cons, ih hcoherent (List.nodup_cons.mp hnodup).2 hrest, discard,
      hw.edges_remove (hlive n List.mem_cons_self), Array.map_map]
    congr 1
    funext x
    exact x.without_without [n] l

theorem function_discards (hw : w.program.Coherent) (hnodup : l.Nodup) (hlive : ∀ n ∈ l, n ∈ w.program.live)
    (m : Node) : (l.foldl discard w).program.function m = w.program.functionWithout l m := by
  induction l generalizing w with
  | nil => exact (Program.functionWithout_nil _ _).symm
  | cons n l ih =>
    obtain ⟨hcoherent, hrest⟩ := discard_next hw hnodup hlive
    rw [List.foldl_cons, ih hcoherent (List.nodup_cons.mp hnodup).2 hrest]
    exact hw.functionWithout_remove (hlive n List.mem_cons_self) l m

private theorem mem_discards : m ∈ (l.foldl discard w).summaries ↔ m ∉ l ∧ m ∈ w.summaries := by
  induction l generalizing w with
  | nil => simp
  | cons n l ih =>
    rw [List.foldl_cons, ih, discard, Summaries.mem_forget, List.mem_cons]
    tauto

private theorem journal_discards (l : List Node) (w : Workspace) :
    (l.foldl discard w).journal =
      { w.journal with tally.removed := w.journal.tally.removed + l.length } := by
  induction l generalizing w with
  | nil => rfl
  | cons n l ih =>
    rw [List.foldl_cons, ih, discard, Journal.countRemoved, List.length_cons]
    dsimp only
    rw [Nat.add_assoc, Nat.add_comm 1]

/-! ### The whole survey -/

private theorem edges_survey (verbose : Bool) (hw : w.program.Coherent) :
    (w.survey verbose).1.program.edges = w.program.edges.map (·.without (w.survey verbose).2.removed) := by
  rw [survey_fst, edges_discards (coherent_surveyNodes verbose hw {}) (surveyed verbose w).nodup_removed
    (removed_live_walk verbose w), (remarked_walk verbose w).edges]

private theorem function_survey (verbose : Bool) (hw : w.program.Coherent) (n : Node) :
    (w.survey verbose).1.program.function n =
      { w.program.functionWithout (w.survey verbose).2.removed n with
        markers := if n ∈ w.program.definitions then w.verdictMarkers n else (w.program.function n).markers } := by
  have hedge : (w.program.definitions.foldl (surveyNode verbose) (w, {})).1.program.edge = w.program.edge := by
    funext e
    rw [Program.edge, Program.edge, (remarked_walk verbose w).edges]
  rw [survey_fst, function_discards (coherent_surveyNodes verbose hw {}) (surveyed verbose w).nodup_removed
    (removed_live_walk verbose w), Program.functionWithout, hedge, function_surveyNodes verbose
    w.program.nodup_definitions (fun _ => Program.lt_size_of_mem_definitions)]
  rfl

private theorem mem_summaries_survey (verbose : Bool) (w : Workspace) (n : Node) :
    n ∈ (w.survey verbose).1.summaries ↔
      n ∉ (w.survey verbose).2.removed ∧ (n ∈ w.program.definitions ∨ n ∈ w.summaries) := by
  rw [survey_fst, mem_discards, mem_surveyNodes]

theorem journal_survey (verbose : Bool) (w : Workspace) :
    (w.survey verbose).1.journal =
      { notices := w.journal.notices ++ if verbose then w.program.definitions.filterMap w.verdictNotice? else []
        tally := { w.journal.tally with
          considered := w.journal.tally.considered +
            w.program.definitions.countP fun n => (w.summaries.of n).bound.isNone
          rejected := w.journal.tally.rejected + w.program.definitions.countP w.isUnfit
          removed := w.journal.tally.removed + (w.survey verbose).2.removed.length } } := by
  rw [survey_fst, journal_discards, journal_surveyNodes verbose fun _ => Program.lt_size_of_mem_definitions]

private theorem Surveyed.dead_iff {found : Survey} (h : Surveyed w v found) :
    n ∈ w.program.live ∧ n ∉ v.program.live ↔ n ∈ found.removed := by
  rw [h.live, List.mem_filter, decide_eq_true_eq]
  constructor
  · rintro ⟨hn, hgone⟩
    by_contra hk
    exact hgone ⟨hn, hk⟩
  · intro hn
    exact ⟨h.removed_live hn, fun hk => hk.2 hn⟩

/-- What a survey of `w` finds and leaves, with every verdict read off `w`. -/
structure Verdicts (verbose : Bool) (w v : Workspace) (found : Survey) : Prop where
  removed : found.removed = (w.program.definitions.filter w.isUnfit).filter (w.program.hasMarker · .kernel)
  rejected : found.rejected = (w.program.definitions.filter w.isUnfit).filter (!w.program.hasMarker · .kernel)
  function : ∀ n, v.program.function n =
    { w.program.functionWithout found.removed n with
      markers := if n ∈ w.program.definitions then w.verdictMarkers n else (w.program.function n).markers }
  dead : ∀ n, n ∈ w.program.live ∧ n ∉ v.program.live ↔ n ∈ found.removed
  live : ∀ n ∈ v.program.live, n ∈ w.program.live
  edges : v.program.edges = w.program.edges.map (·.without found.removed)
  apart : ∀ x ∈ v.program.edges, x.removed = false → x.caller ∉ found.removed ∧ x.callee ∉ found.removed
  entries : ∀ n, n ∈ v.summaries ↔ n ∉ found.removed ∧ (n ∈ w.program.definitions ∨ n ∈ w.summaries)
  summaries : ∀ n ∉ found.removed, v.summaries.of n = (w.summaries.of n).without found.removed
  released : ∀ n ∈ found.removed, ∀ m, (v.summaries.of m).bound ≠ some n
  tally : v.journal.tally =
    { w.journal.tally with
      considered := w.journal.tally.considered +
        (w.program.definitions.filter fun n => (w.summaries.of n).bound.isNone).length
      rejected := w.journal.tally.rejected + (w.program.definitions.filter w.isUnfit).length
      removed := w.journal.tally.removed + found.removed.length }
  notices : v.journal.notices = w.journal.notices ++
    if verbose then w.program.definitions.filterMap w.verdictNotice? else []

/-- What a survey does is given by the program and the summaries that it starts from. -/
theorem survey_verdicts (verbose : Bool) (hw : w.program.Coherent) :
    Verdicts verbose w (w.survey verbose).1 (w.survey verbose).2 := by
  have hsurveyed := surveyed verbose w
  have hedges := edges_survey verbose hw
  constructor
  case removed =>
    rw [hsurveyed.removed, List.filter_filter]
    exact List.filter_congr fun n _ => Bool.and_comm _ _
  case rejected =>
    rw [hsurveyed.rejected, List.filter_filter]
    exact List.filter_congr fun n _ => Bool.and_comm _ _
  case function => exact function_survey verbose hw
  case dead => exact fun n => hsurveyed.dead_iff
  case live =>
    intro n hn
    rw [hsurveyed.live] at hn
    exact List.mem_of_mem_filter hn
  case edges => exact hedges
  case apart =>
    intro x hx hr
    rw [hedges, Array.mem_map] at hx
    obtain ⟨y, -, rfl⟩ := hx
    exact (Program.Edge.removed_without.mp hr).2
  case entries => exact mem_summaries_survey verbose w
  case summaries =>
    intro n hn
    rw [hsurveyed.summaries, if_neg hn]
  case released =>
    intro n hn m hb
    rw [hsurveyed.summaries] at hb
    split at hb
    · cases hb
    · exact Summary.not_mem_of_bound_without hb hn
  case tally =>
    rw [journal_survey, List.countP_eq_length_filter, List.countP_eq_length_filter]
  case notices => rw [journal_survey]

/-- A kernel with an obstacle, a function that calls it, one without an obstacle, and one that is bound to the
kernel. -/
def crowdItems : List (Source.Item String) :=
  [.function ⟨"f", [], [.declareTarget, .callable], {}, some [⟨"entry",
      [⟨none, .call "k" {}, []⟩, ⟨none, .call "g" {}, []⟩, ⟨none, .other "ret", []⟩]⟩]⟩,
   .function ⟨"k", ["p"], [.kernel, .declareTarget], {}, some [⟨"entry",
      [⟨none, .callIndirect "p" {}, []⟩, ⟨none, .call "g" {}, []⟩, ⟨none, .other "ret", []⟩]⟩]⟩,
   .function ⟨"g", [], [.declareTarget], {}, some [⟨"entry", [⟨none, .other "ret", []⟩]⟩]⟩,
   .function ⟨"d", [], [.declareTarget], { isDestructor := true }, some [⟨"entry", [⟨none, .other "ret", []⟩]⟩]⟩]

def crowd : Workspace := ⟨Source.layOut crowdItems, (∅ : Summaries).link 1 3 .kernel, {}⟩

private theorem coherent_crowd : crowd.program.Coherent :=
  Source.WellNamed.coherent_layOut ⟨by decide +kernel, by decide +kernel, by decide +kernel⟩

/-- The call of the kernel goes with it, and its caller has an obstacle because of this call. -/
theorem survey_verdicts_crowd :
    ((crowd.survey true).2 = ⟨[1], [0]⟩ ∧
      (List.range 4).map (fun n => ((crowd.survey true).1.program.function n).markers) =
        [[.callable], [.kernel], [.declareTarget, .universal], [.declareTarget]] ∧
      (crowd.survey true).1.program.edges.map (·.removed) = #[true, false, true] ∧
      ((crowd.survey true).1.summaries.of 3).bound = none ∧
      (crowd.survey true).1.journal.tally = ⟨3, 2, 1, 0, 0⟩ ∧
      (crowd.survey true).1.journal.notices.map (·.function) = ["f", "k"]) ∧
    Verdicts true crowd (crowd.survey true).1 (crowd.survey true).2 :=
  ⟨by decide +kernel, survey_verdicts true coherent_crowd⟩

end Workspace

end Accelerator
