import Accelerator.Proofs.Moves

/-!
# What a survey finds

A survey goes through the definitions one by one and changes markers on the way, but the markers that it changes are
not among those that it looks at.  So it judges every definition by the program that it started from: the result is
given in closed form (`surveyed`), with the functions that it sorts out as parts of the list of definitions.
-/

namespace Accelerator

namespace Program

variable {p q : Program} {m n : Node} {k l : Marker}

private theorem hasMarker_addMarker (hn : n < p.functions.size) :
    (p.addMarker n k).hasMarker m l = (p.hasMarker m l || (decide (m = n) && decide (l = k))) := by
  rw [hasMarker, addMarker, function_modifyFunction, hasMarker]
  by_cases hm : m = n
  · subst hm
    rw [if_pos ⟨rfl, hn⟩, Bool.eq_iff_iff]
    dsimp only
    split
    · rename_i hk
      simp only [List.contains_iff_mem, decide_true, Bool.true_and, Bool.or_eq_true, decide_eq_true_eq, iff_self_or]
      exact fun h => h ▸ hk
    · simp
  · rw [if_neg fun h => hm h.1]
    simp [hm]

private theorem hasMarker_removeMarker :
    (p.removeMarker n k).hasMarker m l = (p.hasMarker m l && !(decide (m = n) && decide (l = k))) := by
  rw [hasMarker, removeMarker, function_modifyFunction, hasMarker]
  by_cases hm : m = n ∧ n < p.functions.size
  · rw [if_pos hm, Bool.eq_iff_iff]
    simp [hm.1]
  · rw [if_neg hm]
    by_cases hmn : m = n
    · have hd : p.function m = default := function_of_size_le (Nat.le_of_not_lt fun h => hm ⟨hmn, hmn ▸ h⟩)
      rw [hd]
      rfl
    · simp [hmn]

private theorem hasMarker_remove (hn : n < p.functions.size) : (p.remove n).hasMarker m k = p.hasMarker m k := by
  rw [hasMarker, hasMarker]
  by_cases hm : m = n
  · subst hm
    rw [function_remove_self hn]
  · rw [function_remove_of_ne hm]
    split <;> rfl

private theorem live_remove (hn : n < p.functions.size) : (p.remove n).live = p.live.filter (· ≠ n) := by
  have hmem : ∀ m ∈ List.range p.functions.size,
      (!((p.remove n).function m).removed) = (!(p.function m).removed && decide (m ≠ n)) := by
    intro m hm
    have h := mem_live_remove (m := m) hn
    rw [mem_live, mem_live, size_remove] at h
    rw [Bool.eq_iff_iff]
    simpa [List.mem_range.mp hm, and_comm] using h
  rw [live, live, size_remove, List.filter_filter, List.filter_congr hmem]
  exact List.filter_congr fun m _ => Bool.and_comm _ _

/-! ### Programs that differ in markers -/

theorem instObstacle?_congr (h : q.operands = p.operands) : q.instObstacle? = p.instObstacle? := by
  funext i
  rw [instObstacle?, instObstacle?, operandsOf, operandsOf, h]

theorem insts_congr (hb : q.blocks = p.blocks) (hi : q.insts = p.insts)
    (hbody : (q.function m).body = (p.function n).body) :
    (q.blocksOf m).flatMap q.instsOf = (p.blocksOf n).flatMap p.instsOf := by
  have hinsts : q.instsOf = p.instsOf := by
    funext b
    rw [instsOf, instsOf, hi]
  rw [blocksOf, blocksOf, hb, hbody, hinsts]

/-- The function without its markers. -/
def Function.unmarked (f : Function) : Function := { f with markers := [] }

/-- The program `q` differs from `p` in the two markers that a survey hands out or takes away. -/
structure Remarked (p q : Program) : Prop where
  blocks : q.blocks = p.blocks
  insts : q.insts = p.insts
  operands : q.operands = p.operands
  edges : q.edges = p.edges
  cloneCounts : q.cloneCounts = p.cloneCounts
  size : q.functions.size = p.functions.size
  function : ∀ m, (q.function m).unmarked = (p.function m).unmarked
  markers : ∀ m k, k ≠ .universal → k ≠ .declareTarget → q.hasMarker m k = p.hasMarker m k

private theorem Remarked.refl (p : Program) : Remarked p p :=
  ⟨rfl, rfl, rfl, rfl, rfl, rfl, fun _ => rfl, fun _ _ _ _ => rfl⟩

private theorem Remarked.trans {r : Program} (h : Remarked p q) (h' : Remarked q r) : Remarked p r where
  blocks := h'.blocks.trans h.blocks
  insts := h'.insts.trans h.insts
  operands := h'.operands.trans h.operands
  edges := h'.edges.trans h.edges
  cloneCounts := h'.cloneCounts.trans h.cloneCounts
  size := h'.size.trans h.size
  function m := (h'.function m).trans (h.function m)
  markers m k h₁ h₂ := (h'.markers m k h₁ h₂).trans (h.markers m k h₁ h₂)

private theorem remarked_addMarker (hk : k = .universal ∨ k = .declareTarget) (hn : n < p.functions.size) :
    Remarked p (p.addMarker n k) where
  blocks := rfl
  insts := rfl
  operands := rfl
  edges := rfl
  cloneCounts := rfl
  size := size_modifyFunction _ _ _
  function m := by
    apply function_modifyFunction_of_eq Function.unmarked
    intro x
    rfl
  markers m l h₁ h₂ := by
    rw [hasMarker_addMarker hn]
    have hne : l ≠ k := by rcases hk with rfl | rfl <;> assumption
    simp [hne]

private theorem remarked_removeMarker (p : Program) (n : Node) : Remarked p (p.removeMarker n .declareTarget) where
  blocks := rfl
  insts := rfl
  operands := rfl
  edges := rfl
  cloneCounts := rfl
  size := size_modifyFunction _ _ _
  function m := by
    apply function_modifyFunction_of_eq Function.unmarked
    intro x
    rfl
  markers m l _ h₂ := by
    rw [hasMarker_removeMarker]
    simp [h₂]

/-- What is read from a function without looking at its markers. -/
theorem Remarked.read {α : Type} (h : Remarked p q) (g : Function → α) (hg : ∀ f, g f.unmarked = g f) (m : Node) :
    g (q.function m) = g (p.function m) := by
  rw [← hg, h.function, hg]

private theorem Remarked.live (h : Remarked p q) : q.live = p.live :=
  live_congr h.size (h.read (·.removed) fun _ => rfl)

/-- The search for an obstacle does not look at these markers. -/
theorem Remarked.obstacle? (h : Remarked p q) (n : Node) : q.obstacle? n = p.obstacle? n := by
  have hindirect : ∀ m, q.hasIndirectCalls m = p.hasIndirectCalls m := fun m => by
    rw [hasIndirectCalls, hasIndirectCalls, h.read (·.indirectCalls) fun _ => rfl]
  have hedges : q.edgesOf n = p.edgesOf n := by
    rw [edgesOf, edgesOf, h.read (·.callees) fun _ => rfl]
    exact List.map_congr_left fun e _ => by rw [edge, edge, h.edges]
  have hedge : q.edgeObstacle? = p.edgeObstacle? := by
    funext kernel x
    rw [edgeObstacle?, edgeObstacle?, hindirect]
  have hbody := insts_congr h.blocks h.insts (h.read (·.body) (fun _ => rfl) n)
  have hname : q.name n = p.name n := h.read (·.name) (fun _ => rfl) n
  rw [Program.obstacle?, Program.obstacle?, h.read Function.obstacle? fun _ => rfl, hedges, hedge,
    h.markers n .kernel (by decide) (by decide), hname, hbody, instObstacle?_congr h.operands]

end Program

/-- The summary of a function, not bound to one of the functions `gone`. -/
def Summary.without (s : Summary) (gone : List Node) : Summary := { s with bound := s.bound.filter (· ∉ gone) }

theorem Summary.without_nil (s : Summary) : s.without [] = s := by
  cases hb : s.bound <;> simp [without, hb, Option.filter] <;> rw [← hb]

theorem Summary.without_of_unbound {s : Summary} (h : s.bound = none) (gone : List Node) : s.without gone = s := by
  cases s
  simp_all [without]

private theorem Summary.without_cons (s : Summary) (n : Node) (gone : List Node) :
    s.without (n :: gone) = { s with bound := if s.bound = some n then none else s.bound }.without gone := by
  cases hb : s.bound with
  | none => simp [without, hb]
  | some b => by_cases hn : b = n <;> simp [without, hb, hn, Option.filter]

namespace Workspace

variable {w v : Workspace} {l : List Node} {m n : Node}

/-- A function that is not bound and has no obstacle. -/
def isFit (w : Workspace) (n : Node) : Bool := (w.summaries.of n).bound.isNone && (w.program.obstacle? n).isNone

/-- A function that is not bound and has an obstacle. -/
def isUnfit (w : Workspace) (n : Node) : Bool := (w.summaries.of n).bound.isNone && (w.program.obstacle? n).isSome

theorem isFit_iff : w.isFit n = true ↔ (w.summaries.of n).bound = none ∧ w.program.obstacle? n = none := by
  simp [isFit]

theorem isUnfit_iff : w.isUnfit n = true ↔ (w.summaries.of n).bound = none ∧ w.program.obstacle? n ≠ none := by
  simp [isUnfit, Option.isSome_iff_ne_none]

/-! ### Looking at the definitions -/

/-- The program after the survey looked at one definition. -/
def judged (w : Workspace) (n : Node) : Program :=
  if w.isFit n then w.program.addMarker n .universal
  else if w.isUnfit n then w.program.removeMarker n .declareTarget
  else w.program

theorem surveyNode_eq (verbose : Bool) (w : Workspace) (found : Survey) (n : Node) :
    ∃ j, surveyNode verbose (w, found) n = (⟨w.judged n, w.summaries.touch n, j⟩,
      ⟨found.removed ++ [n].filter fun m => w.isUnfit m && w.program.hasMarker m .kernel,
        found.rejected ++ [n].filter fun m => w.isUnfit m && !w.program.hasMarker m .kernel⟩) := by
  unfold surveyNode judged isFit isUnfit
  dsimp only
  rw [Summaries.of_touch]
  cases hb : (w.summaries.of n).bound with
  | some b => exact ⟨w.journal, by simp [hb]⟩
  | none =>
    cases ho : w.program.obstacle? n with
    | none => exact ⟨w.journal.countConsidered, by simp [hb, ho]⟩
    | some o =>
      -- the marker for kernels is looked up after the other one was taken away
      have hk : (w.program.removeMarker n .declareTarget).hasMarker n .kernel = w.program.hasMarker n .kernel :=
        (Program.remarked_removeMarker w.program n).markers n .kernel (by decide) (by decide)
      refine ⟨(reject verbose { w with journal := w.journal.countConsidered } n o).journal, ?_⟩
      simp only [reject, Option.isSome_none, Bool.false_eq_true, if_false, hk]
      cases h : w.program.hasMarker n .kernel <;> simp [hb, ho, h]

private theorem remarked_judged (hn : n < w.program.functions.size) : Program.Remarked w.program (w.judged n) := by
  unfold judged
  split_ifs
  · exact Program.remarked_addMarker (.inl rfl) hn
  · exact Program.remarked_removeMarker _ _
  · exact .refl _

/-- What the survey has found and changed after it looked at the functions `l`. -/
structure Judged (w : Workspace) (l : List Node) (v : Workspace) : Prop where
  remarked : Program.Remarked w.program v.program
  summaries : ∀ m, v.summaries.of m = w.summaries.of m
  universal : ∀ m, v.program.hasMarker m .universal =
    (w.program.hasMarker m .universal || (decide (m ∈ l) && w.isFit m))
  declareTarget : ∀ m, v.program.hasMarker m .declareTarget =
    (w.program.hasMarker m .declareTarget && !(decide (m ∈ l) && w.isUnfit m))

theorem isFit_congr (hr : Program.Remarked w.program v.program) (hs : ∀ m, v.summaries.of m = w.summaries.of m)
    (n : Node) : v.isFit n = w.isFit n := by
  rw [isFit, isFit, hs, hr.obstacle?]

theorem isUnfit_congr (hr : Program.Remarked w.program v.program) (hs : ∀ m, v.summaries.of m = w.summaries.of m)
    (n : Node) : v.isUnfit n = w.isUnfit n := by
  rw [isUnfit, isUnfit, hs, hr.obstacle?]

theorem not_isUnfit_of_isFit (h : w.isFit n = true) : w.isUnfit n = false := by
  simp only [isFit, isUnfit, Bool.and_eq_true] at h ⊢
  rw [Option.isNone_iff_eq_none.mp h.2]
  simp

theorem judged_singleton (hn : n < w.program.functions.size) (j : Journal) :
    Judged w [n] ⟨w.judged n, w.summaries.touch n, j⟩ where
  remarked := remarked_judged hn
  summaries m := Summaries.of_touch w.summaries m n
  universal m := by
    show (w.judged n).hasMarker m .universal = _
    unfold judged
    split_ifs with hfit hunfit
    · rw [Program.hasMarker_addMarker hn]
      by_cases hm : m = n
      · simp [hm, hfit]
      · simp [hm]
    · rw [Program.hasMarker_removeMarker]
      by_cases hm : m = n
      · simp [hm, hfit]
      · simp [hm]
    · by_cases hm : m = n
      · simp [hm, hfit]
      · simp [hm]
  declareTarget m := by
    show (w.judged n).hasMarker m .declareTarget = _
    unfold judged
    split_ifs with hfit hunfit
    · rw [Program.hasMarker_addMarker hn]
      by_cases hm : m = n
      · simp [hm, not_isUnfit_of_isFit hfit]
      · simp [hm]
    · rw [Program.hasMarker_removeMarker]
      by_cases hm : m = n
      · simp [hm, hunfit]
      · simp [hm]
    · by_cases hm : m = n
      · simp [hm, hunfit]
      · simp [hm]

private theorem Judged.trans {u : Workspace} {l' : List Node} (h : Judged w l u) (h' : Judged u l' v) :
    Judged w (l ++ l') v where
  remarked := h.remarked.trans h'.remarked
  summaries m := (h'.summaries m).trans (h.summaries m)
  universal m := by
    rw [h'.universal, h.universal, isFit_congr h.remarked h.summaries]
    by_cases h₁ : m ∈ l <;> by_cases h₂ : m ∈ l' <;> simp [h₁, h₂]
  declareTarget m := by
    rw [h'.declareTarget, h.declareTarget, isUnfit_congr h.remarked h.summaries]
    by_cases h₁ : m ∈ l <;> by_cases h₂ : m ∈ l' <;> simp [h₁, h₂]

/-- Every function is judged by the program that the survey started from. -/
theorem judged_surveyNodes (verbose : Bool) (hl : ∀ n ∈ l, n < w.program.functions.size) (found : Survey) :
    Judged w l (l.foldl (surveyNode verbose) (w, found)).1 ∧
      (l.foldl (surveyNode verbose) (w, found)).2 =
        ⟨found.removed ++ l.filter fun m => w.isUnfit m && w.program.hasMarker m .kernel,
          found.rejected ++ l.filter fun m => w.isUnfit m && !w.program.hasMarker m .kernel⟩ := by
  induction l generalizing w found with
  | nil => exact ⟨⟨.refl _, fun _ => rfl, by simp, by simp⟩, by simp⟩
  | cons n l ih =>
    obtain ⟨j, hj⟩ := surveyNode_eq verbose w found n
    rw [List.foldl_cons, hj]
    have hfirst := judged_singleton (hl n List.mem_cons_self) j
    have hsame : ∀ m, isUnfit ⟨w.judged n, w.summaries.touch n, j⟩ m = w.isUnfit m :=
      isUnfit_congr hfirst.remarked hfirst.summaries
    have hkernel := fun m => hfirst.remarked.markers m .kernel (by decide) (by decide)
    obtain ⟨hrest, hfound⟩ := ih (w := ⟨w.judged n, w.summaries.touch n, j⟩)
      (fun m hm => by rw [hfirst.remarked.size]; exact hl m (List.mem_cons_of_mem n hm)) _
    refine ⟨hfirst.trans hrest, ?_⟩
    rw [hfound]
    simp only [hsame, hkernel, List.append_assoc, ← List.filter_append, List.singleton_append]

/-! ### Removing the kernels that were found -/

private theorem discards (hl : ∀ n ∈ l, n < w.program.functions.size) :
    (l.foldl discard w).program.live = w.program.live.filter (· ∉ l) ∧
    (∀ m k, (l.foldl discard w).program.hasMarker m k = w.program.hasMarker m k) ∧
    (l.foldl discard w).program.cloneCounts = w.program.cloneCounts ∧
    ∀ m, (l.foldl discard w).summaries.of m = if m ∈ l then {} else (w.summaries.of m).without l := by
  induction l generalizing w with
  | nil => simp [Summary.without_nil]
  | cons n l ih =>
    have hn := hl n List.mem_cons_self
    obtain ⟨hlive, hmarker, hcounts, hof⟩ := ih (w := w.discard n) fun m hm => by
      rw [discard, Program.size_remove]
      exact hl m (List.mem_cons_of_mem n hm)
    rw [List.foldl_cons]
    refine ⟨?_, fun m k => ?_, hcounts, fun m => ?_⟩
    · rw [hlive, discard, Program.live_remove hn, List.filter_filter]
      apply List.filter_congr
      intro m _
      rw [Bool.eq_iff_iff]
      simp [and_comm]
    · rw [hmarker, discard, Program.hasMarker_remove hn]
    · rw [hof, discard, Summaries.of_forget]
      by_cases hm : m = n
      · rw [if_pos hm, if_pos (List.mem_cons.mpr (.inl hm)), Summary.without_of_unbound rfl, ite_self]
      · simp only [hm, if_false, List.mem_cons, false_or]
        rw [Summary.without_cons]

/-! ### The whole survey -/

/-- What a survey of `w` leaves and finds. -/
structure Surveyed (w v : Workspace) (found : Survey) : Prop where
  removed : found.removed = w.program.definitions.filter fun n => w.isUnfit n && w.program.hasMarker n .kernel
  rejected : found.rejected = w.program.definitions.filter fun n => w.isUnfit n && !w.program.hasMarker n .kernel
  live : v.program.live = w.program.live.filter (· ∉ found.removed)
  universal : ∀ n, v.program.hasMarker n .universal =
    (w.program.hasMarker n .universal || (decide (n ∈ w.program.definitions) && w.isFit n))
  declareTarget : ∀ n, v.program.hasMarker n .declareTarget =
    (w.program.hasMarker n .declareTarget && !(decide (n ∈ w.program.definitions) && w.isUnfit n))
  cloneCounts : v.program.cloneCounts = w.program.cloneCounts
  summaries : ∀ n, v.summaries.of n = if n ∈ found.removed then {} else (w.summaries.of n).without found.removed

theorem Surveyed.removed_live {found : Survey} (h : Surveyed w v found) (hn : n ∈ found.removed) :
    n ∈ w.program.live := by
  rw [h.removed] at hn
  exact (Program.mem_definitions.mp (List.mem_of_mem_filter hn)).1

theorem Surveyed.nodup_removed {found : Survey} (h : Surveyed w v found) : found.removed.Nodup := by
  rw [h.removed]
  exact w.program.nodup_definitions.filter _

theorem surveyed (verbose : Bool) (w : Workspace) :
    Surveyed w (w.survey verbose).1 (w.survey verbose).2 := by
  have hlt : ∀ n ∈ w.program.definitions, n < w.program.functions.size := fun n => Program.lt_size_of_mem_definitions
  obtain ⟨hjudged, hfound⟩ := judged_surveyNodes verbose hlt {}
  unfold survey
  dsimp only
  generalize w.program.definitions.foldl (surveyNode verbose) (w, {}) = state at hjudged hfound
  obtain ⟨u, found⟩ := state
  dsimp only at hjudged hfound ⊢
  have hremoved : found.removed =
      w.program.definitions.filter fun n => w.isUnfit n && w.program.hasMarker n .kernel := by
    rw [hfound, List.nil_append]
  obtain ⟨hlive, hmarker, hcounts, hof⟩ := discards (w := u) (l := found.removed) fun n hn => by
    rw [hremoved] at hn
    rw [hjudged.remarked.size]
    exact hlt n (List.mem_of_mem_filter hn)
  constructor
  · exact hremoved
  · rw [hfound]
    exact List.nil_append _
  · rw [hlive, hjudged.remarked.live]
  · intro n
    rw [hmarker, hjudged.universal]
  · intro n
    rw [hmarker, hjudged.declareTarget]
  · rw [hcounts]
    exact hjudged.remarked.cloneCounts
  · intro n
    rw [hof, hjudged.summaries]

theorem survey_fst (verbose : Bool) (w : Workspace) :
    (w.survey verbose).1 = (w.survey verbose).2.removed.foldl discard
      (w.program.definitions.foldl (surveyNode verbose) (w, {})).1 := rfl

/-- The walk over the definitions changes markers only. -/
theorem remarked_walk (verbose : Bool) (w : Workspace) :
    Program.Remarked w.program (w.program.definitions.foldl (surveyNode verbose) (w, {})).1.program :=
  (judged_surveyNodes verbose (fun _ => Program.lt_size_of_mem_definitions) {}).1.remarked

/-- The kernels that a survey removes are still there after the walk. -/
theorem removed_live_walk (verbose : Bool) (w : Workspace) : ∀ n ∈ (w.survey verbose).2.removed,
    n ∈ (w.program.definitions.foldl (surveyNode verbose) (w, {})).1.program.live := by
  intro n hn
  rw [(remarked_walk verbose w).live]
  exact (surveyed verbose w).removed_live hn

end Workspace

end Accelerator
