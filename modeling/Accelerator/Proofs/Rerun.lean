import Accelerator.Proofs.Selection

/-!
# Runs that change nothing

A workspace is at rest (`AtRest`) if a run finds every marker as it would set it, every function as its treatment would
leave it, and no call to send elsewhere.  A run from there changes nothing (`AtRest.run`).  A run that removes no kernel
ends in such a workspace (`Sound.atRest_run`): its markers and redirected calls do not change which functions have an
obstacle, and its clones have none.  So the next run has nothing to do.
-/

namespace Accelerator

namespace Program

variable {p : Program} {n : Node} {k : Marker}

private theorem addMarker_of_hasMarker (h : p.hasMarker n k = true) : p.addMarker n k = p := by
  apply modifyFunction_eq_self
  have hk : k ∈ (p.function n).markers := by simpa [hasMarker] using h
  simp [hk]

private theorem removeMarker_of_not_hasMarker (h : p.hasMarker n k = false) : p.removeMarker n k = p := by
  apply modifyFunction_eq_self
  have hk : k ∉ (p.function n).markers := by simpa [hasMarker] using h
  have hfilter : (p.function n).markers.filter (· != k) = (p.function n).markers := by
    rw [List.filter_eq_self]
    intro m hm
    simpa using fun e : m = k => hk (e ▸ hm)
  rw [hfilter]

end Program

namespace Workspace

variable {w u v : Workspace} {l : List Node} {n : Node} {options : Options}

/-! ### Steps that change nothing -/

/-- The workspace `v` differs from `w` in its journal and in which functions were looked at, if at all. -/
structure Same (w v : Workspace) : Prop where
  program : v.program = w.program
  summaries : ∀ n, v.summaries.of n = w.summaries.of n

private theorem Same.judged (h : Same w u) (n : Node) : u.judged n = w.judged n := by
  unfold Workspace.judged isFit isUnfit
  rw [h.program, h.summaries]

private theorem Same.treatmentOf (h : Same w u) (n : Node) : u.treatmentOf n = w.treatmentOf n := by
  simp only [Workspace.treatmentOf, h.program, h.summaries]

private theorem Same.asksForTwin (h : Same w u) (n : Node) : u.asksForTwin n = w.asksForTwin n := by
  simp only [Workspace.asksForTwin, h.treatmentOf, h.program]

private theorem same_surveyNodes (verbose : Bool) (hl : ∀ n ∈ l, w.judged n = w.program) (hu : Same w u)
    (found : Survey) : Same w (l.foldl (surveyNode verbose) (u, found)).1 := by
  induction l generalizing u found with
  | nil => exact hu
  | cons n l ih =>
    obtain ⟨j, hj⟩ := surveyNode_eq verbose u found n
    rw [List.foldl_cons, hj]
    refine ih (u := ⟨_, _, _⟩) (fun m hm => hl m (List.mem_cons_of_mem n hm)) ⟨?_, fun m => ?_⟩ _
    · exact (hu.judged n).trans (hl n List.mem_cons_self)
    · exact (Summaries.of_touch _ _ _).trans (hu.summaries m)

/-- The function is as its treatment would leave it. -/
structure Treated (w : Workspace) (n : Node) : Prop where
  asks : w.asksForTwin n = false
  change : (w.treatmentOf n).change (w.program.function n) = w.program.function n
  settle : (w.treatmentOf n).settle (w.summaries.of n) = w.summaries.of n

private theorem Treated.congr (h : w.Treated n) (hf : v.program.function n = w.program.function n)
    (hs : v.summaries.of n = w.summaries.of n) : v.Treated n := by
  have ht := treatmentOf_congr hf hs
  constructor
  · rw [asksForTwin_congr hf hs, h.asks]
  · rw [ht, hf, h.change]
  · rw [ht, hs, h.settle]

private theorem same_treatNodes (options : Options) (hl : ∀ n ∈ l, w.Treated n) (hu : Same w u) (made : List Node) :
    Same w (l.foldl (treatNode options) (u, made)).1 ∧ (l.foldl (treatNode options) (u, made)).2 = made := by
  induction l generalizing u with
  | nil => exact ⟨hu, rfl⟩
  | cons n l ih =>
    obtain ⟨hasks, hchange, hsettle⟩ := hl n List.mem_cons_self
    obtain ⟨j, hj⟩ := treat_of_not_asks options ((hu.asksForTwin n).trans hasks)
    have hsame : Same w (u.treat options n).1 := by
      rw [hj, hu.treatmentOf]
      constructor
      · rw [Program.modifyFunction_eq_self, hu.program]
        rw [hu.program]
        exact hchange
      · intro m
        rw [Summaries.of_update]
        split
        · rename_i hm
          rw [hu.summaries, hsettle, hm]
        · exact hu.summaries m
    have hnone : (u.treat options n).2 = none := by rw [hj]
    rw [List.foldl_cons, treatNode, hnone, Option.toList_none, List.append_nil]
    exact ih (fun m hm => hl m (List.mem_cons_of_mem n hm)) hsame

private theorem retarget_of_settled (h : w.Settled) : w.retarget = (w, 0) := by
  refine retarget_of_unbound fun e he => ?_
  obtain ⟨n, hn, ha, he⟩ := mem_acceleratorCalls.mp he
  exact h n hn ha e he

private theorem Settled.of_same (h : w.Settled) (hs : Same w v) : v.Settled := by
  intro n hn ha e he
  rw [hs.program] at hn he ⊢
  rw [isAccelerator, hs.summaries] at ha
  rw [Summaries.twinOf?, hs.summaries]
  exact h n hn ha e he

/-! ### Workspaces at rest -/

/-- A run of the pass with these options finds nothing to do. -/
structure AtRest (options : Options) (w : Workspace) : Prop where
  /-- A survey would set the markers as they are and find no kernel to remove. -/
  surveyed : options.parallel = true → ∀ n ∈ w.program.definitions, (w.summaries.of n).bound = none →
    (w.program.obstacle? n = none ∧ w.program.hasMarker n .universal = true) ∨
      (w.program.obstacle? n ≠ none ∧ w.program.hasMarker n .kernel = false ∧
        w.program.hasMarker n .declareTarget = false)
  /-- The functions that a survey would not reject are treated. -/
  treated : ∀ n ∈ w.program.live, w.Treated n ∨ (options.parallel = true ∧ n ∈ w.program.definitions ∧
    w.isUnfit n = true)
  settled : w.Settled

theorem AtRest.screen (h : AtRest options w) : Same w (w.screen options).1 ∧ (w.screen options).2.removed = [] := by
  have hscreened := screened options w
  have hremoved : (w.screen options).2.removed = [] := by
    rw [List.eq_nil_iff_forall_not_mem]
    intro n hn
    obtain ⟨hparallel, hd, hunfit, hk⟩ := (hscreened.removed n).mp hn
    obtain ⟨hb, hobstacle⟩ := isUnfit_iff.mp hunfit
    rcases h.surveyed hparallel n hd hb with ⟨ho, -⟩ | ⟨-, hk', -⟩
    · exact hobstacle ho
    · rw [hk] at hk'
      cases hk'
  refine ⟨?_, hremoved⟩
  cases hp : options.parallel with
  | false => rw [Workspace.screen, hp]; exact ⟨rfl, fun _ => rfl⟩
  | true =>
    have hjudged : ∀ n ∈ w.program.definitions, w.judged n = w.program := by
      intro n hd
      unfold judged
      split_ifs with hfit hunfit
      · obtain ⟨hb, hnone⟩ := isFit_iff.mp hfit
        rcases h.surveyed hp n hd hb with ⟨-, hu⟩ | ⟨ho, -⟩
        · exact Program.addMarker_of_hasMarker hu
        · exact absurd hnone ho
      · obtain ⟨hb, hobstacle⟩ := isUnfit_iff.mp hunfit
        rcases h.surveyed hp n hd hb with ⟨ho, -⟩ | ⟨-, -, hdt⟩
        · exact absurd ho hobstacle
        · exact Program.removeMarker_of_not_hasMarker hdt
      · rfl
    have hstate : (w.screen options).1 = (w.screen options).2.removed.foldl discard
        (w.program.definitions.foldl (surveyNode options.verbose) (w, {})).1 := by
      rw [Workspace.screen, hp]
      rfl
    rw [hstate, hremoved]
    exact same_surveyNodes options.verbose hjudged ⟨rfl, fun _ => rfl⟩ {}

/-- A run from a workspace at rest changes nothing. -/
theorem AtRest.run (h : AtRest options w) : Same w (w.run options).1 ∧ (w.run options).2 = ⟨[], [], 0⟩ := by
  obtain ⟨hsame, hremoved⟩ := h.screen
  have hscreened := screened options w
  have htreated : ∀ n ∈ (w.screen options).1.program.live.filter (· ∉ (w.screen options).2.rejected), w.Treated n := by
    intro n hn
    obtain ⟨hn, hrejected⟩ := List.mem_filter.mp hn
    rw [hsame.program] at hn
    rw [decide_eq_true_eq] at hrejected
    refine (h.treated n hn).resolve_right ?_
    rintro ⟨hp, hd, hunfit⟩
    rw [hp] at hscreened
    exact hrejected (hscreened.mem_rejected hd hunfit (by simp [hremoved]))
  obtain ⟨hswept, hclones⟩ := same_treatNodes options htreated hsame []
  rw [← cloneSweep_eq_filter] at hswept hclones
  have hretarget := retarget_of_settled (h.settled.of_same hswept)
  rw [run_eq_screen, hretarget, hremoved, hclones]
  exact ⟨hswept, rfl⟩

theorem AtRest.withJournal (h : AtRest options w) (j : Journal) : AtRest options { w with journal := j } :=
  ⟨h.surveyed, fun n hn => (h.treated n hn).imp_left fun ht => ht.congr rfl rfl, h.settled.withJournal j⟩

/-! ### What is treated stays so -/

private theorem treated_of_resolved (h : (w.summaries.of n).isResolved = true) : w.Treated n := by
  have ht : w.treatmentOf n = .resolved := by simp [treatmentOf, Program.treatment, h]
  constructor
  · rw [asksForTwin, ht]
    exact Bool.and_false _
  · rw [ht]
    rfl
  · rw [ht]
    rfl

/-- After a treatment the function calls for the same treatment, unless that resolved it. -/
private theorem treatment_change {p q : Program} (s : Summary)
    (hf : q.function n = (p.treatment n s).change (p.function n)) :
    q.treatment n ((p.treatment n s).settle s) = p.treatment n s ∨ ((p.treatment n s).settle s).isResolved = true := by
  have hmarker : ∀ k, k ≠ .declareTarget → q.hasMarker n k = p.hasMarker n k := by
    intro k hk
    rw [Bool.eq_iff_iff]
    simpa [Program.hasMarker, hf] using (p.treatment n s).mem_markers_change (p.function n) hk
  cases ht : p.treatment n s with
  | resolved | host | implicit | placeholder =>
    rw [ht] at hf
    have hsame : q.treatment n s = p.treatment n s := Program.treatment_congr
      (fun k => by rw [Program.hasMarker, Program.hasMarker, hf]; rfl) (by rw [hf]; rfl) s
    exact .inl (hsame.trans ht)
  | kernel =>
    right
    simp [Treatment.settle, Summary.isResolved, Summary.isParticipant]
  | function marked =>
    rw [ht] at hf
    have hsame : ∀ e, q.treatment n e = p.treatment n e := Program.treatment_congr
      (fun k => by rw [Program.hasMarker, Program.hasMarker, hf]; rfl) (by rw [hf]; rfl)
    rw [hsame]
    cases marked with
    | false => exact .inl ht
    | true =>
      by_cases hr : (Treatment.settle (.function true) s).isResolved = true
      · exact .inr hr
      · rw [Program.treatment_eq_marked] at ht
        exact .inl (Program.treatment_eq_marked.mpr ⟨by simpa using hr, ht.2⟩)
  | universal =>
    left
    have hsettle : Treatment.settle .universal s = s := rfl
    rw [hsettle, Program.treatment_eq_universal, hmarker .placeholder (by decide), hmarker .kernel (by decide),
      hmarker .callable (by decide), hmarker .universal (by decide)]
    exact Program.treatment_eq_universal.mp ht

private theorem treated_treat (options : Options) (hn : n < w.program.functions.size) :
    (w.treat options n).1.Treated n := by
  cases ha : w.asksForTwin n with
  | true =>
    apply treated_of_resolved
    rw [(twinned_treat options hn ha).host]
    rfl
  | false =>
    obtain ⟨j, h⟩ := treat_of_not_asks options ha
    have hf : (w.treat options n).1.program.function n = (w.treatmentOf n).change (w.program.function n) := by
      rw [h, Program.function_modifyFunction, if_pos ⟨rfl, hn⟩]
    have hs : (w.treat options n).1.summaries.of n = (w.treatmentOf n).settle (w.summaries.of n) := by
      rw [h, Summaries.of_update, if_pos rfl]
    by_cases hr : ((w.treatmentOf n).settle (w.summaries.of n)).isResolved = true
    · exact treated_of_resolved (hs ▸ hr)
    · have ht : (w.treat options n).1.treatmentOf n = w.treatmentOf n := by
        rw [treatmentOf, hs]
        exact (treatment_change (w.summaries.of n) hf).resolve_right hr
      constructor
      · rw [asksForTwin, ht, hf, Treatment.flags_change]
        exact ha
      · rw [ht, hf, Treatment.change_change]
      · rw [ht, hs, Treatment.settle_settle]

private theorem hasMarker_treat (options : Options) (hn : n < w.program.functions.size) {k : Marker}
    (hk : k ≠ .declareTarget) : (w.treat options n).1.program.hasMarker n k = w.program.hasMarker n k := by
  have hchange : (w.program.modifyFunction n (w.treatmentOf n).change).hasMarker n k = w.program.hasMarker n k := by
    rw [Bool.eq_iff_iff]
    simpa [Program.hasMarker, Program.function_modifyFunction, hn] using
      (w.treatmentOf n).mem_markers_change (w.program.function n) hk
  rw [← hchange]
  cases ha : w.asksForTwin n with
  | true =>
    obtain ⟨isPublic, j, h⟩ := treat_of_asks options ha
    rw [h, Program.hasMarker, Program.function_withTwin_old _ _ (by rw [Program.size_modifyFunction]; exact hn)]
    rfl
  | false =>
    obtain ⟨j, h⟩ := treat_of_not_asks options ha
    rw [h]

variable {new : List Node}

private theorem Swept.treated_of_mem (h : Swept options w l v new) (hn : n ∈ l) : v.Treated n := by
  obtain ⟨u, hlt, -, -, hf, hs⟩ := h.treated n hn
  exact (treated_treat options hlt).congr hf hs

private theorem Swept.hasMarker (h : Swept options w l v new) (hn : n < w.program.functions.size) {k : Marker}
    (hk : k ≠ .declareTarget) : v.program.hasMarker n k = w.program.hasMarker n k := by
  by_cases hnl : n ∈ l
  · obtain ⟨u, hlt, hu, -, hf, -⟩ := h.treated n hnl
    rw [Program.hasMarker, hf]
    exact (hasMarker_treat options hlt hk).trans (by rw [Program.hasMarker, Program.hasMarker, hu])
  · rw [Program.hasMarker, Program.hasMarker, (h.kept n hn hnl).1]

/-! ### Where a run that removes nothing ends -/

variable {base : Nat} {gone made : List Node} {found : Survey} {c : Node}

theorem Moves.bound_mono {made' : List Node} (hm : Moves w gone made' v) (hw : Paired base made w)
    (hb : (w.summaries.of n).bound = some c) : (v.summaries.of n).bound = some c := by
  induction hm with
  | refl => exact hb
  | step h hmove ih => exact (h.paired hw).bound_mono hmove ih

/-- A survey unbinds no function, since no kernel is bound to. -/
theorem Screened.summaries_of_paired {parallel : Bool} (h : Screened parallel w v found) (hw : Paired base made w)
    (hn : n ∉ found.removed) : v.summaries.of n = w.summaries.of n := by
  rw [h.summaries, if_neg hn]
  cases hb : (w.summaries.of n).bound with
  | none => exact Summary.without_of_unbound hb _
  | some b =>
    have hnot := (hw.not_mem_gone h.moves hb).2
    rw [Summary.without, hb]
    simp [Option.filter, hnot, ← hb]

/-- What holds of a workspace after any number of runs: the bindings pair functions with their clones, the edges follow
the bodies, and only definitions are versionable. -/
structure Sound (base : Nat) (made : List Node) (w : Workspace) : Prop extends Paired base made w, Declares base w where
  faithful : w.Faithful

private theorem Moves.sound {made' : List Node} (hm : Moves w gone made' v) (hw : Sound base made w) :
    Sound base (made ++ made') v :=
  { hm.paired hw.toPaired, hm.declares hw.toDeclares with faithful := hm.faithful hw.toPaired hw.faithful }

/-- A versionable function that is there is a definition. -/
theorem Sound.mem_definitions (hw : Sound base made w) (hn : n ∈ w.program.live)
    (hv : (w.program.function n).flags.versionable = true) : n ∈ w.program.definitions :=
  Program.mem_definitions.mpr ⟨hn, hw.versionable n hn hv⟩

/-- With a survey only functions without an obstacle are cloned. -/
theorem Screened.isFit_of_asks (h : Screened true w v found) (hw : Sound base made w) (hn : n ∈ v.program.live)
    (hrejected : n ∉ found.rejected) (ha : v.asksForTwin n = true) : w.isFit n = true := by
  obtain ⟨hl, hremoved⟩ : n ∈ w.program.live ∧ n ∉ found.removed := by simpa [h.live] using hn
  obtain ⟨hver, hneeds⟩ := Bool.and_eq_true_iff.mp ha
  rw [(h.moves.kin (Program.lt_size_of_mem_live hl)).flags] at hver
  have hunresolved : (v.summaries.of n).isResolved = false := by
    rw [treatmentOf, Program.needsTwin_treatment] at hneeds
    simp only [Bool.and_eq_true, Bool.not_eq_true'] at hneeds
    exact hneeds.1.1.1
  rw [h.summaries_of_paired hw.toPaired hremoved] at hunresolved
  exact h.isFit_of_kept (hw.mem_definitions hl hver) (Summary.bound_of_unresolved hunresolved)
    hremoved hrejected

/-- A function that is there after a run is one of those before it or one of the clones. -/
theorem mem_clones_run (options : Options) (hw : w.program.Coherent) (hn : n ∈ (w.run options).1.program.live)
    (hle : w.program.functions.size ≤ n) : n ∈ (w.run options).2.clones := by
  have hlt := Program.lt_size_of_mem_live hn
  have hclones := (run_swept options hw).2.clones
  rw [(screened options w).moves.size, List.length_nil, Nat.add_zero] at hclones
  rw [(moves_run options w).size, hclones, List.length_range'] at hlt
  rw [hclones, List.mem_range'_1]
  exact ⟨hle, hlt⟩

/-- With a survey a run clones functions without an obstacle, and the clones have none either. -/
theorem Sound.clones_run (hw : Sound base made w) (hp : options.parallel = true) (hc : c ∈ (w.run options).2.clones) :
    (w.run options).1.program.obstacle? c = none ∧ (w.run options).1.program.hasMarker c .universal = true := by
  have hscreen := screened options w
  rw [hp] at hscreen
  obtain ⟨hremoved, hswept⟩ := run_swept options hw.coherent
  have hmoves := moves_run options w
  obtain ⟨h, hl, hasks, htwin⟩ := hswept.exists_host hc
  obtain ⟨hlive, hrejected⟩ := List.mem_filter.mp hl
  have hfit := hscreen.isFit_of_asks hw hlive (by simpa using hrejected) hasks
  obtain ⟨hlive, hgone⟩ : h ∈ w.program.live ∧ h ∉ (w.screen options).2.removed := by simpa [hscreen.live] using hlive
  have hver := (Bool.and_eq_true_iff.mp hasks).1
  rw [(hscreen.moves.kin (Program.lt_size_of_mem_live hlive)).flags] at hver
  constructor
  · have ho := (isFit_iff.mp hfit).2
    have hsound := hmoves.sound hw
    exact hsound.obstacle?_twin hsound.faithful (by rw [htwin.host]) htwin.addressTaken
      (hmoves.obstacle?_mono hw.toPaired hw.faithful hlive (hremoved ▸ hgone) ho)
  · have hd := hw.mem_definitions hlive hver
    rw [htwin.markers .universal (by decide), hscreen.universal]
    simp [hd, hfit]

/-- A definition that is there and not bound after a run, and was there before, was not bound then. -/
theorem Sound.before_run (hw : Sound base made w) (hlt : n < w.program.functions.size)
    (hn : n ∈ (w.run options).1.program.definitions) (hb : ((w.run options).1.summaries.of n).bound = none) :
    n ∈ w.program.definitions ∧ n ∉ (w.run options).2.removed ∧ (w.summaries.of n).bound = none := by
  have hmoves := moves_run options w
  obtain ⟨hl, hdef⟩ := Program.mem_definitions.mp hn
  obtain ⟨hwl, hgone⟩ := (hmoves.mem_live hlt).mp hl
  rw [(hmoves.kin hlt).flags] at hdef
  refine ⟨Program.mem_definitions.mpr ⟨hwl, hdef⟩, hgone, ?_⟩
  rw [Option.eq_none_iff_forall_ne_some]
  intro c hc
  rw [hmoves.bound_mono hw.toPaired hc] at hb
  cases hb

/-- With a survey a run that removes nothing finds its markers again. -/
private theorem Sound.surveyed_run (hw : Sound base made w) (hp : options.parallel = true)
    (hnone : (w.run options).2.removed = []) (hn : n ∈ (w.run options).1.program.definitions)
    (hb : ((w.run options).1.summaries.of n).bound = none) :
    ((w.run options).1.program.obstacle? n = none ∧ (w.run options).1.program.hasMarker n .universal = true) ∨
      ((w.run options).1.program.obstacle? n ≠ none ∧ (w.run options).1.program.hasMarker n .kernel = false ∧
        (w.run options).1.program.hasMarker n .declareTarget = false) := by
  have hscreen := screened options w
  rw [hp] at hscreen
  obtain ⟨hremoved, hswept⟩ := run_swept options hw.coherent
  have hmoves := moves_run options w
  rcases Nat.lt_or_ge n w.program.functions.size with hlt | hge
  · -- a function from before the run
    obtain ⟨hwd, hgone, hwb⟩ := hw.before_run hlt hn hb
    have hwl := (Program.mem_definitions.mp hwd).1
    have hlt' : n < (w.screen options).1.program.functions.size := hscreen.size ▸ hlt
    rw [hremoved] at hgone
    rw [hnone] at hmoves
    cases ho : w.program.obstacle? n with
    | none =>
      left
      refine ⟨(hmoves.obstacle?_iff hw.toPaired hw.faithful hwl).mpr ho, ?_⟩
      rw [hswept.hasMarker hlt' (by decide), hscreen.universal]
      simp [hwd, isFit_iff.mpr ⟨hwb, ho⟩]
    | some o =>
      right
      have hunfit : w.isUnfit n = true := isUnfit_iff.mpr ⟨hwb, by simp [ho]⟩
      have hrejected := hscreen.mem_rejected hwd hunfit hgone
      have hk := ((hscreen.rejected n).mp hrejected).2.2.2
      refine ⟨?_, ?_, ?_⟩
      · rw [ne_eq, hmoves.obstacle?_iff hw.toPaired hw.faithful hwl, ho]
        simp
      · rw [(hmoves.kin hlt).hasMarker (by decide) (by decide), hk]
      · rw [Program.hasMarker, (hswept.kept n hlt' (by simp [hrejected])).1, ← Program.hasMarker, hscreen.declareTarget]
        simp [hwd, hunfit]
  · have hl := (Program.mem_definitions.mp hn).1
    exact .inl (hw.clones_run hp (mem_clones_run options hw.coherent hl hge))

/-- A run that removes nothing leaves nothing to do. -/
theorem Sound.atRest_run (hw : Sound base made w) (hnone : (w.run options).2.removed = []) :
    AtRest options (w.run options).1 := by
  refine ⟨fun hp n hn hb => hw.surveyed_run hp hnone hn hb, fun n hn => ?_, hw.settled_run options⟩
  have hscreen := screened options w
  obtain ⟨hremoved, hswept⟩ := run_swept options hw.coherent
  have hmoves := moves_run options w
  have hpaired := hmoves.paired hw.toPaired
  rw [hnone] at hremoved hmoves
  rcases Nat.lt_or_ge n w.program.functions.size with hlt | hge
  · have hwl : n ∈ w.program.live := ((hmoves.mem_live hlt).mp hn).1
    by_cases hrejected : n ∈ (w.screen options).2.rejected
    · -- what was rejected is left alone and is rejected again
      right
      obtain ⟨hp, hwd, hunfit, -⟩ := (hscreen.rejected n).mp hrejected
      obtain ⟨hb, ho⟩ := isUnfit_iff.mp hunfit
      refine ⟨hp, hmoves.definitions hwd List.not_mem_nil, isUnfit_iff.mpr ⟨?_, ?_⟩⟩
      · have hlt' : n < (w.screen options).1.program.functions.size := hscreen.size ▸ hlt
        rw [(hswept.kept n hlt' (by simp [hrejected])).2,
          hscreen.summaries_of_paired hw.toPaired (by simp [← hremoved]), hb]
      · rw [ne_eq, hmoves.obstacle?_iff hw.toPaired hw.faithful hwl]
        exact ho
    · left
      refine hswept.treated_of_mem ?_
      rw [hscreen.live, ← hremoved]
      simp [hwl, hrejected]
  · left
    have hc := mem_clones_run options hw.coherent hn hge
    obtain ⟨h, -, -, htwin⟩ := hswept.exists_host hc
    exact treated_of_resolved (hpaired.pair h n (by rw [htwin.host])).twin_resolved

end Workspace

namespace Pass

variable {text : String} {options : Options} {start p : Program} {reports : List Report} {pass : Pass}

theorem History.sound (hparse : Program.parse text = .ok start) (hist : History options start reports pass p)
    (j : Journal) : Workspace.Sound start.functions.size (reports.flatMap (·.clones)) (pass.workspace p j) := by
  obtain ⟨items, hitems, rfl⟩ := Program.parse_eq_ok hparse
  have hstart : Workspace.Sound _ [] ⟨Source.layOut items, ∅, j⟩ :=
    { Workspace.paired_start hitems.coherent_layOut j, Source.declares_layOut items j with
      faithful := Source.faithful_layOut hitems j }
  simpa using (hist.moves j j).sound hstart

theorem execute_of_atRest {j : Journal} (h : Workspace.AtRest pass.options (pass.workspace p j)) :
    (pass.execute p j).2 = ⟨[], [], 0⟩ ∧ (pass.execute p j).1.2.1 = p ∧
      ∀ n, (pass.execute p j).1.1.summariesOrEmpty.of n = pass.summariesOrEmpty.of n := by
  obtain ⟨hsame, hreport⟩ := h.run
  rw [summaries_execute, execute_eq]
  exact ⟨hreport, hsame.program, hsame.summaries⟩

/-- If a run of the pass removes no kernel, the next run changes nothing: not the program, not what is decided about any
function. -/
theorem execute_again_of_removed_nil (hparse : Program.parse text = .ok start)
    (hist : History options start reports pass p) (i j : Journal) (hnone : (pass.execute p i).2.removed = []) :
    let first := pass.execute p i
    let second := first.1.1.execute first.1.2.1 j
    second.2 = ⟨[], [], 0⟩ ∧ second.1.2.1 = first.1.2.1 ∧
      ∀ n, second.1.1.summariesOrEmpty.of n = first.1.1.summariesOrEmpty.of n := by
  have hw := hist.sound hparse i
  rw [execute_eq] at hnone
  have hrest : Workspace.AtRest (pass.execute p i).1.1.options
      ((pass.execute p i).1.1.workspace (pass.execute p i).1.2.1 j) := by
    rw [options_execute, workspace_execute]
    exact (hw.atRest_run hnone).withJournal j
  exact execute_of_atRest hrest

/-- A kernel, the function that it calls, one that cannot be offloaded although it is meant for a device, and one that
may not be cloned. -/
def restItems : List (Source.Item String) :=
  [.function ⟨"k", [], [.kernel], {}, some [⟨"entry", [⟨none, .call "g" {}, []⟩, ⟨none, .other "ret", []⟩]⟩]⟩,
   .function ⟨"g", [], [], {}, some [⟨"entry", [⟨none, .other "ret", []⟩]⟩]⟩,
   .function ⟨"d", [], [.declareTarget], { isDestructor := true }, some [⟨"entry", [⟨none, .other "ret", []⟩]⟩]⟩,
   .function ⟨"s", [], [.callable], { noClone := true }, some [⟨"entry", [⟨none, .other "ret", []⟩]⟩]⟩]

def restText : String :=
  "k() [hsa_kernel] \x7b\nentry: call @g()\nret\n\x7d\ng() \x7b entry: ret \x7d\n" ++
  "d() [\"omp declare target\"] dtor \x7b entry: ret \x7d\ns() [hsa_function] noclone \x7b entry: ret \x7d"

private theorem parse_restText : Program.parse restText = .ok (Source.layOut restItems) := by decide +kernel

/-- The first run clones the function and sends the call to the clone, the second does nothing. -/
theorem execute_again_restText :
    let first := ({ options := { parallel := true } } : Pass).execute (Source.layOut restItems) {}
    let second := first.1.1.execute first.1.2.1 {}
    first.2 = ⟨[], [4], 1⟩ ∧ second.2 = ⟨[], [], 0⟩ ∧ second.1.2.1 = first.1.2.1 ∧
      ∀ n, second.1.1.summariesOrEmpty.of n = first.1.1.summariesOrEmpty.of n :=
  ⟨by decide +kernel, execute_again_of_removed_nil parse_restText .fresh {} {} (by decide +kernel)⟩

end Pass

end Accelerator
