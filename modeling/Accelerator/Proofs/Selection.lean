import Accelerator.Proofs.Obstacles
import Accelerator.Proofs.Restore
import Accelerator.Proofs.Sweep

/-!
# What the first run clones

A run is a survey, if one is asked for (`screen`), a clone sweep and a look at the calls.  With the closed forms of the
first two the whole run can be read off the workspace that it starts from (`screened`, `run_swept`).  For a fresh pass
this tells which functions of a program are cloned, into which kind of accelerator code, and what their clones are
called.
-/

namespace Accelerator

namespace Workspace

variable {w v : Workspace} {l : List Node} {n : Node} {options : Options} {found : Survey}

/-- The first part of a run. -/
def screen (options : Options) (w : Workspace) : Workspace × Survey :=
  if options.parallel then w.survey options.verbose else (w, {})

theorem run_eq_screen (options : Options) (w : Workspace) :
    w.run options =
      (((w.screen options).1.cloneSweep options (w.screen options).2.rejected).1.retarget.1,
        ⟨(w.screen options).2.removed, ((w.screen options).1.cloneSweep options (w.screen options).2.rejected).2,
          ((w.screen options).1.cloneSweep options (w.screen options).2.rejected).1.retarget.2⟩) := rfl

/-! ### Surveys keep programs coherent -/

theorem coherent_surveyNodes (verbose : Bool) (hw : w.program.Coherent) (found : Survey) :
    (l.foldl (surveyNode verbose) (w, found)).1.program.Coherent := by
  induction l generalizing w found with
  | nil => exact hw
  | cons n l ih =>
    obtain ⟨j, hj⟩ := surveyNode_eq verbose w found n
    rw [List.foldl_cons, hj]
    refine ih (w := ⟨_, _, _⟩) ?_ _
    show (w.judged n).Coherent
    unfold judged
    split_ifs
    · exact hw.modifyFunction (Program.mild_addMarker _) n
    · exact hw.modifyFunction (Program.mild_removeMarker _) n
    · exact hw

/-- After one function was removed the others are still there to be removed. -/
theorem discard_next (hw : w.program.Coherent) (hnodup : (n :: l).Nodup) (hlive : ∀ m ∈ n :: l, m ∈ w.program.live) :
    (w.discard n).program.Coherent ∧ ∀ m ∈ l, m ∈ (w.discard n).program.live := by
  have hn := hlive n List.mem_cons_self
  refine ⟨hw.remove hn, fun m hm => ?_⟩
  have hne : m ≠ n := fun h => (List.nodup_cons.mp hnodup).1 (h ▸ hm)
  exact (Program.mem_live_remove (Program.lt_size_of_mem_live hn)).mpr ⟨hne, hlive m (List.mem_cons_of_mem n hm)⟩

private theorem coherent_discards (hw : w.program.Coherent) (hl : l.Nodup) (hlive : ∀ n ∈ l, n ∈ w.program.live) :
    (l.foldl discard w).program.Coherent := by
  induction l generalizing w with
  | nil => exact hw
  | cons n l ih =>
    obtain ⟨hcoherent, hrest⟩ := discard_next hw hl hlive
    exact ih hcoherent (List.nodup_cons.mp hl).2 hrest

private theorem coherent_survey (verbose : Bool) (hw : w.program.Coherent) : (w.survey verbose).1.program.Coherent := by
  rw [survey_fst]
  exact coherent_discards (coherent_surveyNodes verbose hw {}) (surveyed verbose w).nodup_removed
    (removed_live_walk verbose w)

/-! ### What the first part of a run leaves and finds -/

/-- What a run with or without a survey has done to `w` before its clone sweep. -/
structure Screened (parallel : Bool) (w v : Workspace) (found : Survey) : Prop where
  moves : Moves w found.removed [] v
  coherent : w.program.Coherent → v.program.Coherent
  removed : ∀ n, n ∈ found.removed ↔
    parallel = true ∧ n ∈ w.program.definitions ∧ w.isUnfit n = true ∧ w.program.hasMarker n .kernel = true
  rejected : ∀ n, n ∈ found.rejected ↔
    parallel = true ∧ n ∈ w.program.definitions ∧ w.isUnfit n = true ∧ w.program.hasMarker n .kernel = false
  live : v.program.live = w.program.live.filter (· ∉ found.removed)
  universal : ∀ n, v.program.hasMarker n .universal =
    (w.program.hasMarker n .universal || (parallel && (decide (n ∈ w.program.definitions) && w.isFit n)))
  declareTarget : ∀ n, v.program.hasMarker n .declareTarget =
    (w.program.hasMarker n .declareTarget && !(parallel && (decide (n ∈ w.program.definitions) && w.isUnfit n)))
  cloneCounts : v.program.cloneCounts = w.program.cloneCounts
  summaries : ∀ n, v.summaries.of n = if n ∈ found.removed then {} else (w.summaries.of n).without found.removed

theorem Moves.size {gone made : List Node} (hm : Moves w gone made v) :
    v.program.functions.size = w.program.functions.size + made.length := by
  induction hm with
  | refl => rfl
  | step _ hmove ih => rw [hmove.size, ih, List.length_append, Nat.add_assoc]

theorem screened (options : Options) (w : Workspace) :
    Screened options.parallel w (w.screen options).1 (w.screen options).2 := by
  unfold screen
  cases options.parallel with
  | true =>
    have h := surveyed options.verbose w
    refine ⟨(moves_survey options.verbose w).1, coherent_survey options.verbose, fun n => ?_, fun n => ?_, h.live,
      h.universal, h.declareTarget, h.cloneCounts, h.summaries⟩
    · simp [h.removed]
    · simp [h.rejected]
  | false => exact ⟨.refl, id, by simp, by simp, by simp, by simp, by simp, rfl, by simp [Summary.without_nil]⟩

/-- A run, in terms of what its first part leaves and finds. -/
theorem run_swept (options : Options) (hw : w.program.Coherent) :
    (w.run options).2.removed = (w.screen options).2.removed ∧
      Swept options (w.screen options).1
        ((w.screen options).1.program.live.filter (· ∉ (w.screen options).2.rejected)) (w.run options).1
        (w.run options).2.clones := by
  rw [run_eq_screen]
  exact ⟨rfl, (swept options _ ((screened options w).coherent hw)).of_same (same_retargetNodes _ 0 _)⟩

variable {parallel : Bool}

theorem Screened.size (h : Screened parallel w v found) : v.program.functions.size = w.program.functions.size :=
  h.moves.size

/-- Only kernels are removed. -/
theorem Screened.not_mem_removed (h : Screened parallel w v found) (hk : w.program.hasMarker n .kernel = false) :
    n ∉ found.removed := by
  intro hn
  rw [((h.removed n).mp hn).2.2.2] at hk
  cases hk

theorem Screened.mem_rejected (h : Screened true w v found) (hd : n ∈ w.program.definitions)
    (hunfit : w.isUnfit n = true) (hremoved : n ∉ found.removed) : n ∈ found.rejected := by
  refine (h.rejected n).mpr ⟨rfl, hd, hunfit, ?_⟩
  by_contra hk
  exact hremoved ((h.removed n).mpr ⟨rfl, hd, hunfit, by simpa using hk⟩)

/-- In a survey a definition that is not bound and is not sorted out has no obstacle. -/
theorem Screened.isFit_of_kept (h : Screened true w v found) (hd : n ∈ w.program.definitions)
    (hb : (w.summaries.of n).bound = none) (hremoved : n ∉ found.removed) (hrejected : n ∉ found.rejected) :
    w.isFit n = true := by
  by_contra hfit
  have ho : w.program.obstacle? n ≠ none := fun ho => hfit (isFit_iff.mpr ⟨hb, ho⟩)
  exact hrejected (h.mem_rejected hd (isUnfit_iff.mpr ⟨hb, ho⟩) hremoved)

/-- Whether a function asks for an accelerator side when the clone sweep comes to it. -/
theorem Screened.needsTwin (h : Screened parallel w v found) (hn : n ∈ w.program.live) :
    (v.treatmentOf n).needsTwin = (!(v.summaries.of n).isResolved && !w.program.hasMarker n .placeholder &&
      !w.program.hasMarker n .kernel && (w.program.hasMarker n .callable || (v.summaries.of n).isParticipant ||
        v.program.hasMarker n .universal || (v.program.hasMarker n .declareTarget &&
          !w.program.hasMarker n .deviceRoutine && !(w.program.function n).traits.isArtificial))) := by
  have hkin := h.moves.kin (Program.lt_size_of_mem_live hn)
  have hartificial : (v.program.function n).traits.isArtificial = (w.program.function n).traits.isArtificial :=
    (Traits.fields_of_eq hkin.traits).2.2.2
  rw [treatmentOf, Program.needsTwin_treatment, Program.isDeviceCallable,
    hkin.hasMarker (m := .placeholder) (by decide) (by decide), hkin.hasMarker (m := .kernel) (by decide) (by decide),
    hkin.hasMarker (m := .callable) (by decide) (by decide),
    hkin.hasMarker (m := .deviceRoutine) (by decide) (by decide), hartificial]

end Workspace

/-! ### The first run of a fresh pass -/

namespace Program

variable {p : Program} {n : Node}

/-- Whether the first run of a pass gives a function of a program an accelerator side. -/
def isOffloaded (p : Program) (parallel : Bool) (n : Node) : Bool :=
  (p.function n).flags.versionable && !p.hasMarker n .placeholder && !p.hasMarker n .kernel &&
    if parallel then (p.obstacle? n).isNone
    else p.hasMarker n .callable || p.hasMarker n .universal ||
      (p.hasMarker n .declareTarget && !p.hasMarker n .deviceRoutine && !(p.function n).traits.isArtificial)

/-- The kind of accelerator code that a function of a program becomes together with its accelerator side. -/
def offloadedKind (p : Program) (parallel : Bool) (n : Node) : Kind :=
  if parallel || p.hasMarker n .callable || p.hasMarker n .universal then .function else .kernel

theorem cloneTitle_cloneSuffix (base : String) (k : Nat) :
    cloneTitle base cloneSuffix k = base ++ ".hsa." ++ toString k := by
  simp [cloneTitle, cloneSuffix, String.append_assoc]

private theorem Coherent.names_eq_none (h : p.Coherent) {t : String} :
    p.names[t]? = none ↔ ∀ n ∈ p.live, p.name n ≠ t := by
  rw [Option.eq_none_iff_forall_ne_some]
  simp only [ne_eq, h.names, not_and]

end Program

namespace Workspace

variable {w v : Workspace} {n : Node} {options : Options} {found : Survey}

/-- Where nothing is decided yet, the functions that are left over for the sweep and ask for a clone are those that the
markers and the survey name. -/
theorem Screened.asksForTwin_of_fresh {parallel : Bool} (h : Screened parallel w v found)
    (hs : ∀ m, w.summaries.of m = {}) (hn : n ∈ w.program.live) (hremoved : n ∉ found.removed)
    (hv : (w.program.function n).flags.versionable = true → n ∈ w.program.definitions) :
    (decide (n ∉ found.rejected) && v.asksForTwin n) = w.program.isOffloaded parallel n := by
  have hkin := h.moves.kin (Program.lt_size_of_mem_live hn)
  have hsummary : v.summaries.of n = {} := by rw [h.summaries, if_neg hremoved, hs, Summary.without_of_unbound rfl]
  have hasks : v.asksForTwin n = ((w.program.function n).flags.versionable && (!w.program.hasMarker n .placeholder &&
      !w.program.hasMarker n .kernel && (w.program.hasMarker n .callable || v.program.hasMarker n .universal ||
        (v.program.hasMarker n .declareTarget && !w.program.hasMarker n .deviceRoutine &&
          !(w.program.function n).traits.isArtificial)))) := by
    rw [asksForTwin, h.needsTwin hn, hsummary, hkin.flags]
    simp [Summary.isResolved, Summary.isParticipant]
  rw [hasks, Program.isOffloaded]
  cases parallel with
  | false =>
    have hrejected : n ∉ found.rejected := by simp [h.rejected]
    rw [h.universal, h.declareTarget]
    simp [hrejected, Bool.and_assoc]
  | true =>
    cases hver : (w.program.function n).flags.versionable with
    | false => simp
    | true =>
      have hd := hv hver
      cases ho : w.program.obstacle? n with
      | none =>
        have hfit := isFit_iff.mpr ⟨by rw [hs], ho⟩
        have hrejected : n ∉ found.rejected := by simp [h.rejected, not_isUnfit_of_isFit hfit]
        simp [h.universal, hrejected, hd, hfit]
      | some o =>
        -- a kernel with an obstacle is not cloned anyway, and any other function is rejected
        have hunfit : w.isUnfit n = true := isUnfit_iff.mpr ⟨by rw [hs], by simp [ho]⟩
        cases hk : w.program.hasMarker n .kernel with
        | true => simp
        | false => simp [(h.rejected n).mpr ⟨rfl, hd, hunfit, hk⟩]

private theorem Screened.twinKind_of_fresh {parallel : Bool} (h : Screened parallel w v found)
    (hs : ∀ m, w.summaries.of m = {}) (hn : n ∈ w.program.live) (hremoved : n ∉ found.removed)
    (hrejected : n ∉ found.rejected) (hv : (w.program.function n).flags.versionable = true → n ∈ w.program.definitions)
    (ha : v.asksForTwin n = true) : v.twinKind n = w.program.offloadedKind parallel n := by
  have hkin := h.moves.kin (Program.lt_size_of_mem_live hn)
  have hsummary : v.summaries.of n = {} := by rw [h.summaries, if_neg hremoved, hs, Summary.without_of_unbound rfl]
  obtain ⟨hver, hneeds⟩ := Bool.and_eq_true_iff.mp ha
  rw [hkin.flags] at hver
  rw [twinKind, treatmentOf, Program.twinKind_treatment hneeds, hsummary,
    hkin.hasMarker (m := .callable) (by decide) (by decide), h.universal, Program.offloadedKind]
  cases parallel with
  | false => cases w.program.hasMarker n .callable <;> simp [Summary.isParticipant]
  | true =>
    have hfit := h.isFit_of_kept (hv hver) (by rw [hs]) hremoved hrejected
    simp [hv hver, hfit, Summary.isParticipant]

private theorem Screened.chosen_of_fresh {parallel : Bool} (h : Screened parallel w v found)
    (hs : ∀ m, w.summaries.of m = {})
    (hdef : ∀ m ∈ w.program.live, (w.program.function m).flags.versionable = true →
      (w.program.function m).flags.definition = true) :
    (v.program.live.filter (· ∉ found.rejected)).filter v.asksForTwin =
      (w.program.live.filter (· ∉ found.removed)).filter (w.program.isOffloaded parallel) := by
  rw [List.filter_filter, h.live]
  apply List.filter_congr
  intro n hn
  obtain ⟨hn, hg⟩ := List.mem_filter.mp hn
  rw [Bool.and_comm]
  exact h.asksForTwin_of_fresh hs hn (by simpa using hg) fun hv => Program.mem_definitions.mpr ⟨hn, hdef n hn hv⟩

/-- The first clone of a function gets the least number whose name none of the functions has that are left. -/
theorem Screened.isLeast_of_uncounted {parallel : Bool} (h : Screened parallel w v found) (hw : w.program.Coherent)
    {base : String} (hc : w.program.cloneCounts.getD base 0 = 0) :
    IsLeast {k : Nat | ∀ m ∈ w.program.live.filter (· ∉ found.removed),
      w.program.name m ≠ base ++ ".hsa." ++ toString k} (v.program.cloneNumber base cloneSuffix) := by
  have hleast := Program.isLeast_cloneNumber v.program base cloneSuffix
  have hfree : ∀ k, (v.program.cloneCounts.getD base 0 ≤ k ∧
        v.program.names[Program.cloneTitle base cloneSuffix k]? = none) ↔
      ∀ m ∈ w.program.live.filter (· ∉ found.removed), w.program.name m ≠ base ++ ".hsa." ++ toString k := by
    intro k
    rw [h.cloneCounts, hc, (h.coherent hw).names_eq_none, h.live, Program.cloneTitle_cloneSuffix]
    simp only [Nat.zero_le, true_and]
    refine forall₂_congr fun m hm => ?_
    have hname : v.program.name m = w.program.name m :=
      (h.moves.kin (Program.lt_size_of_mem_live (List.mem_of_mem_filter hm))).name
    rw [hname]
  simpa only [hfree] using hleast

private theorem Screened.isLeast_cloneNumber {parallel : Bool} (h : Screened parallel w v found)
    (hw : w.program.Coherent) (hc : w.program.cloneCounts = ∅) (base : String) :
    IsLeast {k : Nat | ∀ m ∈ w.program.live.filter (· ∉ found.removed),
      w.program.name m ≠ base ++ ".hsa." ++ toString k} (v.program.cloneNumber base cloneSuffix) :=
  h.isLeast_of_uncounted hw (by rw [hc, Std.ExtTreeMap.getD_empty])

end Workspace

namespace Pass

variable {text : String} {start : Program}

/-- The first run of a fresh pass removes the kernels that cannot be offloaded, and clones in order of the table the
functions that the markers or the survey ask for.  Each clone has the least number whose name is not taken by a function
that is left. -/
theorem clones_of_execute (hparse : Program.parse text = .ok start) (options : Options) (j : Journal) :
    let first := ({ options } : Pass).execute start j
    let left := start.live.filter (· ∉ first.2.removed)
    let chosen := left.filter (start.isOffloaded options.parallel)
    (∀ n, n ∈ first.2.removed ↔ options.parallel = true ∧ n ∈ start.definitions ∧
      start.obstacle? n ≠ none ∧ start.hasMarker n .kernel = true) ∧
    first.2.clones = List.range' start.functions.size chosen.length ∧
    List.Forall₂ (fun f c =>
      IsPair first.1.2.1 first.1.1.summariesOrEmpty f c ∧
      first.1.1.summariesOrEmpty.of f = ⟨start.offloadedKind options.parallel f, false, some c⟩ ∧
      first.1.1.summariesOrEmpty.of c = ⟨start.offloadedKind options.parallel f, true, none⟩ ∧
      ∃ k, IsLeast {i : Nat | ∀ n ∈ left, start.name n ≠ start.name f ++ ".hsa." ++ toString i} k ∧
        first.1.2.1.name c = start.name f ++ ".hsa." ++ toString k) chosen first.2.clones := by
  have hco := Program.coherent_parse hparse
  obtain ⟨items, -, rfl⟩ := Program.parse_eq_ok hparse
  let w : Workspace := ⟨Source.layOut items, ∅, j⟩
  have hs : ∀ m, w.summaries.of m = {} := Summaries.of_empty
  have hdef := (Source.declares_layOut items j).versionable
  have hscreen := Workspace.screened options w
  have hpaired := (Workspace.moves_run options w).paired (Workspace.paired_start hco j)
  obtain ⟨hremoved, hswept⟩ := Workspace.run_swept options (w := w) hco
  have hexec : ({ options } : Pass).execute (Source.layOut items) j = ((({ options } : Pass).keep (w.run options).1,
    (w.run options).1.program, (w.run options).1.journal), (w.run options).2) := execute_eq _ _ _
  rw [hexec]
  -- from here on the run is known by these facts only
  generalize w.run options = r at hpaired hremoved hswept
  generalize w.screen options = screened at hscreen hremoved hswept
  obtain ⟨v, found⟩ := screened
  intro first left chosen
  have hchosen : (v.program.live.filter (· ∉ found.rejected)).filter v.asksForTwin = chosen := by
    rw [hscreen.chosen_of_fresh hs hdef, ← hremoved]
  refine ⟨fun n => ?_, ?_, ?_⟩
  · rw [hremoved, hscreen.removed, Workspace.isUnfit_iff, hs]
    simp [w]
  · have hsize : v.program.functions.size = (Source.layOut items).functions.size := hscreen.size
    rw [← hsize, ← hchosen]
    exact hswept.clones
  · have hmem : ∀ f ∈ chosen, (f ∈ v.program.live ∧ f ∉ found.rejected) ∧ v.asksForTwin f = true := fun f hf => by
      rwa [← hchosen, List.mem_filter, List.mem_filter, decide_eq_true_eq] at hf
    refine ((List.forall₂_and_left _ _).mpr ⟨hmem, hchosen ▸ hswept.twinned⟩).imp ?_
    rintro f c ⟨⟨⟨hf, hrejected⟩, hasks⟩, htwin⟩
    rw [hscreen.live, List.mem_filter, decide_eq_true_eq] at hf
    have hkind := hscreen.twinKind_of_fresh hs hf.1 hf.2 hrejected
      (fun hv => Program.mem_definitions.mpr ⟨hf.1, hdef f hf.1 hv⟩) hasks
    have hname : v.program.name f = (Source.layOut items).name f :=
      (hscreen.moves.kin (Program.lt_size_of_mem_live hf.1)).name
    have hleast := hscreen.isLeast_cloneNumber hco rfl ((Source.layOut items).name f)
    obtain ⟨hhost, htwin, htitle, -, -⟩ := htwin
    rw [← hremoved] at hleast
    rw [hkind] at hhost htwin
    rw [hname, Program.cloneTitle_cloneSuffix] at htitle
    exact ⟨hpaired.pair f c (by rw [hhost]), hhost, htwin, _, hleast, htitle⟩

/-- A function, a declaration that has the first name for a clone of it, and a kernel that cannot be offloaded with the
second one. -/
def takenItems : List (Source.Item String) :=
  [.function ⟨"f", [], [], {}, some [⟨"entry", [⟨none, .other "ret", []⟩]⟩]⟩,
   .function ⟨"f.hsa.0", [], [], {}, none⟩,
   .function ⟨"f.hsa.1", [], [.kernel], { isConstructor := true }, some [⟨"entry", [⟨none, .other "ret", []⟩]⟩]⟩]

def takenText : String :=
  "f() \x7b entry: ret \x7d\nf.hsa.0() !\nf.hsa.1() [hsa_kernel] ctor \x7b entry: ret \x7d"

private theorem parse_takenText : Program.parse takenText = .ok (Source.layOut takenItems) := by decide +kernel

def takenRun : (Pass × Program × Journal) × Report :=
  ({ options := { parallel := true } } : Pass).execute (Source.layOut takenItems) {}

/-- The kernel is removed, so its name is free for the clone. -/
theorem clones_of_execute_takenText :
    takenRun.2 = ⟨[2], [3], 0⟩ ∧ takenRun.1.2.1.name 3 = "f.hsa.1" ∧
    let left := (Source.layOut takenItems).live.filter (· ∉ takenRun.2.removed)
    let chosen := left.filter ((Source.layOut takenItems).isOffloaded true)
    (∀ n, n ∈ takenRun.2.removed ↔ true = true ∧ n ∈ (Source.layOut takenItems).definitions ∧
      (Source.layOut takenItems).obstacle? n ≠ none ∧ (Source.layOut takenItems).hasMarker n .kernel = true) ∧
    takenRun.2.clones = List.range' (Source.layOut takenItems).functions.size chosen.length ∧
    List.Forall₂ (fun f c =>
      IsPair takenRun.1.2.1 takenRun.1.1.summariesOrEmpty f c ∧
      takenRun.1.1.summariesOrEmpty.of f = ⟨(Source.layOut takenItems).offloadedKind true f, false, some c⟩ ∧
      takenRun.1.1.summariesOrEmpty.of c = ⟨(Source.layOut takenItems).offloadedKind true f, true, none⟩ ∧
      ∃ k, IsLeast {i : Nat | ∀ n ∈ left,
          (Source.layOut takenItems).name n ≠ (Source.layOut takenItems).name f ++ ".hsa." ++ toString i} k ∧
        takenRun.1.2.1.name c = (Source.layOut takenItems).name f ++ ".hsa." ++ toString k) chosen takenRun.2.clones :=
  ⟨by decide +kernel, by decide +kernel, clones_of_execute parse_takenText { parallel := true } {}⟩

end Pass

end Accelerator
