import Accelerator.Proofs.Selection

/-!
# Runs that hear the same

A run asks the summaries only for what is decided about a function, not for which functions were looked at.  A side
that is given for a function of no kind is heard in one case only: the function is to run on both sides because of a
marker and cannot be cloned, and then the side stays when the kind is entered (`Program.keepsSide`).  In all other cases
runs from summaries that differ in such a side (`Summary.Echo`) end alike.
-/

namespace Accelerator

/-- The summary `t` says what `s` says, or gives a side where `s` decides nothing. -/
def Summary.Echo (idle : Prop) (s t : Summary) : Prop := t = s ∨ idle ∧ s = {} ∧ t = { accelerator := true }

/-- Whether a side that is given for a function of no kind is kept when the function gets its kind. -/
def Program.keepsSide (p : Program) (n : Node) : Bool :=
  !p.hasMarker n .placeholder && !p.hasMarker n .kernel && p.hasMarker n .callable &&
    !(p.function n).flags.versionable

namespace Summary.Echo

variable {idle : Prop} {s t : Summary}

private theorem refl (s : Summary) : Echo idle s s := .inl rfl

private theorem bound (h : Echo idle s t) : t.bound = s.bound := by
  rcases h with rfl | ⟨-, rfl, rfl⟩ <;> rfl

private theorem kind (h : Echo idle s t) : t.kind = s.kind := by
  rcases h with rfl | ⟨-, rfl, rfl⟩ <;> rfl

private theorem isParticipant (h : Echo idle s t) : t.isParticipant = s.isParticipant := by
  rw [Summary.isParticipant, Summary.isParticipant, h.kind]

private theorem isResolved (h : Echo idle s t) : t.isResolved = s.isResolved := by
  rcases h with rfl | ⟨-, rfl, rfl⟩ <;> rfl

private theorem treatment (h : Echo idle s t) (p : Program) (n : Node) : p.treatment n t = p.treatment n s := by
  rw [Program.treatment, Program.treatment, h.isResolved, h.isParticipant]

end Summary.Echo

namespace Workspace

open Summary (Echo)

variable {w v : Workspace} {idle : Node → Prop} {n m : Node}

/-- The workspace `v` differs from `w` in which functions were looked at, and in the sides of idle functions. -/
structure Near (idle : Node → Prop) (w v : Workspace) : Prop where
  program : v.program = w.program
  journal : v.journal = w.journal
  summaries : ∀ m, Echo (idle m) (w.summaries.of m) (v.summaries.of m)

private theorem Near.exists_eq (h : Near idle w v) :
    ∃ t : Summaries, (∀ m, Echo (idle m) (w.summaries.of m) (t.of m)) ∧ v = { w with summaries := t } := by
  obtain ⟨p, t, j⟩ := v
  obtain ⟨hp, hj, hs⟩ := h
  dsimp only at hp hj
  subst hp hj
  exact ⟨t, hs, rfl⟩

/-! ### The survey -/

private theorem Near.surveyNode {a b : Workspace × Survey} (h : Near idle a.1 b.1) (hr : b.2 = a.2) (verbose : Bool)
    (n : Node) : Near idle (surveyNode verbose a n).1 (surveyNode verbose b n).1 ∧
      (Workspace.surveyNode verbose b n).2 = (Workspace.surveyNode verbose a n).2 := by
  obtain ⟨w, found⟩ := a
  obtain ⟨v, found'⟩ := b
  obtain ⟨t, ht, rfl⟩ := h.exists_eq
  cases hr
  have htouch : ∀ m, Echo (idle m) ((w.summaries.touch n).of m) ((t.touch n).of m) := by
    intro m
    rw [Summaries.of_touch, Summaries.of_touch]
    exact ht m
  unfold Workspace.surveyNode
  dsimp only
  rw [(htouch n).bound]
  split
  · exact ⟨⟨rfl, rfl, htouch⟩, rfl⟩
  · cases w.program.obstacle? n with
    | none => exact ⟨⟨rfl, rfl, htouch⟩, rfl⟩
    | some o =>
      have hkernel : ∀ s : Summaries, (reject verbose ⟨w.program, s, w.journal.countConsidered⟩ n o).program =
          w.program.removeMarker n .declareTarget := fun _ => rfl
      dsimp only
      rw [hkernel, hkernel]
      split <;> exact ⟨⟨rfl, rfl, htouch⟩, rfl⟩

private theorem Near.discard (h : Near idle w v) (n : Node) : Near idle (w.discard n) (v.discard n) := by
  obtain ⟨t, ht, rfl⟩ := h.exists_eq
  refine ⟨rfl, rfl, fun m => ?_⟩
  show Echo (idle m) ((w.summaries.forget n).of m) ((t.forget n).of m)
  rw [Summaries.of_forget, Summaries.of_forget]
  split
  · exact .refl _
  · rcases ht m with heq | ⟨hidle, hs, ht⟩
    · rw [heq]
      exact .refl _
    · rw [hs, ht]
      exact .inr ⟨hidle, rfl, rfl⟩

theorem Near.screen (h : Near idle w v) (options : Options) :
    Near idle (w.screen options).1 (v.screen options).1 ∧ (v.screen options).2 = (w.screen options).2 := by
  unfold Workspace.screen
  split
  · have hnodes : Near idle (w.program.definitions.foldl (Workspace.surveyNode options.verbose) (w, {})).1
        (v.program.definitions.foldl (Workspace.surveyNode options.verbose) (v, {})).1 ∧
        (v.program.definitions.foldl (Workspace.surveyNode options.verbose) (v, {})).2 =
          (w.program.definitions.foldl (Workspace.surveyNode options.verbose) (w, {})).2 := by
      rw [h.program]
      exact List.foldl_rel (r := fun a b : Workspace × Survey => Near idle a.1 b.1 ∧ b.2 = a.2) ⟨h, rfl⟩
        fun n _ _ _ hab => hab.1.surveyNode hab.2 options.verbose n
    refine ⟨?_, hnodes.2⟩
    unfold Workspace.survey
    dsimp only
    rw [hnodes.2]
    exact List.foldl_rel (r := Near idle) hnodes.1 fun n _ _ _ hab => hab.discard n
  · exact ⟨h, rfl⟩

/-! ### The clones -/

private theorem addTwin_congr (options : Options) (p : Program) (j : Journal) (s t : Summaries) (kind kind' : Kind)
    (isPublic : Bool) :
    (addTwin options ⟨p, t, j⟩ n kind' isPublic).1.program = (addTwin options ⟨p, s, j⟩ n kind isPublic).1.program ∧
      (addTwin options ⟨p, t, j⟩ n kind' isPublic).1.journal = (addTwin options ⟨p, s, j⟩ n kind isPublic).1.journal ∧
      (addTwin options ⟨p, t, j⟩ n kind' isPublic).2 = (addTwin options ⟨p, s, j⟩ n kind isPublic).2 := by
  unfold addTwin
  dsimp only
  split
  · exact ⟨rfl, rfl, rfl⟩
  · split <;> exact ⟨rfl, rfl, rfl⟩

/-- What a treatment does to the program and the journal follows from what is to be done with the function. -/
private theorem treat_congr (options : Options) (hp : v.program = w.program) (hj : v.journal = w.journal)
    (ht : v.treatmentOf n = w.treatmentOf n) :
    (v.treat options n).1.program = (w.treat options n).1.program ∧
      (v.treat options n).1.journal = (w.treat options n).1.journal ∧
      (v.treat options n).2 = (w.treat options n).2 := by
  obtain ⟨p, s, j⟩ := w
  obtain ⟨p', t, j'⟩ := v
  dsimp only at hp hj
  subst hp hj
  unfold treatmentOf at ht
  dsimp only at ht
  unfold treat
  dsimp only
  rw [Summaries.of_touch, Summaries.of_touch, ht]
  cases p'.treatment n (s.of n) with
  | resolved | host | placeholder | kernel =>
    dsimp only
    exact ⟨rfl, rfl, rfl⟩
  | function marked =>
    cases marked with
    | true =>
      dsimp only
      exact addTwin_congr options _ _ _ _ _ _ _
    | false =>
      dsimp only
      exact addTwin_congr options _ _ _ _ _ _ _
  | universal | implicit =>
    dsimp only
    exact addTwin_congr options _ _ _ _ _ _ _

/-- The side that only `v` gives for the function at a node of `w` and `v` is kept in `v'`, and missing in `w'`. -/
structure SideKept (w v w' v' : Workspace) (n : Node) : Prop where
  before : w.summaries.of n = {}
  given : v.summaries.of n = { accelerator := true }
  keeps : w.program.keepsSide n = true
  host : w'.summaries.of n = ⟨.function, false, none⟩
  accelerator : v'.summaries.of n = ⟨.function, true, none⟩

/-- The summaries of a function after steps from `w` to `w'` and from `v` to `v'` that treat it: either the side is
kept, or it was nothing that could be kept. -/
def Treats (idle : Prop) (w v w' v' : Workspace) (n : Node) : Prop :=
  (idle ∧ SideKept w v w' v' n) ∨
    Echo idle (w'.summaries.of n) (v'.summaries.of n) ∧
      (v.summaries.of n = w.summaries.of n ∨ w.program.keepsSide n = false)

/-- The summaries of a function after steps from `w` to `w'` and from `v` to `v'` that do not treat it: they are as
before, unless it is a clone that was made on the way. -/
def PassesBy (w v w' v' : Workspace) (n : Node) : Prop :=
  (w'.summaries.of n = w.summaries.of n ∧ v'.summaries.of n = v.summaries.of n) ∨
    (w.program.functions.size ≤ n ∧ v'.summaries.of n = w'.summaries.of n)

private theorem keepsSide_eq_true {p : Program} : p.keepsSide n = true ↔
    p.treatment n {} = .function true ∧ (p.function n).flags.versionable = false := by
  rw [Program.treatment_eq_marked]
  simp [Program.keepsSide, Summary.isResolved, Summary.isParticipant]
  tauto

section

variable {idle : Prop} (hp : v.program = w.program) (he : Echo idle (w.summaries.of n) (v.summaries.of n))
include hp he

private theorem treatmentOf_echo : v.treatmentOf n = w.treatmentOf n := by
  rw [treatmentOf, treatmentOf, hp, he.treatment]

private theorem asksForTwin_echo : v.asksForTwin n = w.asksForTwin n := by
  rw [asksForTwin, asksForTwin, treatmentOf_echo hp he, hp]

private theorem twinKind_echo : v.twinKind n = w.twinKind n := by
  rw [twinKind, twinKind, treatmentOf_echo hp he]
  rcases he with heq | ⟨-, hnone, hside⟩
  · rw [heq]
  · rw [hnone, hside]
    generalize w.treatmentOf n = t
    unfold Treatment.twinKind
    split <;> rfl

private theorem treats_treat (options : Options) : Treats idle w v (w.treat options n).1 (v.treat options n).1 n := by
  have ht := treatmentOf_echo hp he
  have hkind := twinKind_echo hp he
  have hasks := asksForTwin_echo hp he
  cases ha : w.asksForTwin n with
  | true =>
    obtain ⟨isPublic, j, h⟩ := treat_of_asks options ha
    obtain ⟨isPublic', j', h'⟩ := treat_of_asks (w := v) options (hasks.trans ha)
    rw [h, h']
    refine .inr ⟨.inl ?_, .inr ?_⟩
    · rw [Summaries.of_link, Summaries.of_link, if_pos rfl, if_pos rfl, hkind, hp]
    · simp only [asksForTwin, Bool.and_eq_true] at ha
      simp [Program.keepsSide, ha.1]
  | false =>
    obtain ⟨j, h⟩ := treat_of_not_asks options ha
    obtain ⟨j', h'⟩ := treat_of_not_asks (w := v) options (hasks.trans ha)
    have hw : (w.treat options n).1.summaries.of n = (w.treatmentOf n).settle (w.summaries.of n) := by
      rw [h, Summaries.of_update, if_pos rfl]
    have hv : (v.treat options n).1.summaries.of n = (w.treatmentOf n).settle (v.summaries.of n) := by
      rw [h', Summaries.of_update, if_pos rfl, ht]
    rcases he with heq | ⟨hidle, hnone, hside⟩
    · refine .inr ⟨.inl ?_, .inl heq⟩
      rw [hw, hv, heq]
    · rw [hnone] at hw
      rw [hside] at hv
      cases hkeeps : w.program.keepsSide n with
      | true =>
        have hmarked : w.treatmentOf n = .function true := by
          rw [treatmentOf, hnone]
          exact (keepsSide_eq_true.mp hkeeps).1
        rw [hmarked] at hw hv
        exact .inl ⟨hidle, hnone, hside, hkeeps, hw, hv⟩
      | false =>
        refine .inr ⟨?_, .inr hkeeps⟩
        rw [hw, hv]
        cases hmarked : w.treatmentOf n with
        | kernel => exact .refl _
        | resolved | host | placeholder | universal | implicit => exact .inr ⟨hidle, rfl, rfl⟩
        | function marked =>
          cases marked with
          | false => exact .inr ⟨hidle, rfl, rfl⟩
          | true =>
            -- it would have been cloned, or else its side would be kept
            have hversionable : (w.program.function n).flags.versionable = false := by
              simpa [asksForTwin, hmarked, Treatment.needsTwin] using ha
            rw [treatmentOf, hnone] at hmarked
            rw [keepsSide_eq_true.mpr ⟨hmarked, hversionable⟩] at hkeeps
            cases hkeeps

private theorem passesBy_treat (options : Options) (hm : m ≠ n) :
    PassesBy w v (w.treat options n).1 (v.treat options n).1 m := by
  have hkind := twinKind_echo hp he
  have hasks := asksForTwin_echo hp he
  cases ha : w.asksForTwin n with
  | true =>
    obtain ⟨isPublic, j, h⟩ := treat_of_asks options ha
    obtain ⟨isPublic', j', h'⟩ := treat_of_asks (w := v) options (hasks.trans ha)
    rw [h, h']
    unfold PassesBy
    dsimp only
    rw [Summaries.of_link, Summaries.of_link, if_neg hm, if_neg hm, hkind, hp, Summaries.of_touch, Summaries.of_touch]
    by_cases hnew : m = w.program.functions.size
    · exact .inr ⟨Nat.le_of_eq hnew.symm, by simp [hnew]⟩
    · exact .inl (by simp [hnew])
  | false =>
    obtain ⟨j, h⟩ := treat_of_not_asks options ha
    obtain ⟨j', h'⟩ := treat_of_not_asks (w := v) options (hasks.trans ha)
    refine .inl ⟨?_, ?_⟩
    · rw [h, Summaries.of_update, if_neg hm]
    · rw [h', Summaries.of_update, if_neg hm]

end

/-- What two sweeps over the same functions end with. -/
structure SweptAlike (idle : Node → Prop) (l : List Node) (w v : Workspace) (a b : Workspace × List Node) : Prop where
  program : b.1.program = a.1.program
  journal : b.1.journal = a.1.journal
  clones : b.2 = a.2
  treats : ∀ m ∈ l, Treats (idle m) w v a.1 b.1 m
  passesBy : ∀ m, m ∉ l → PassesBy w v a.1 b.1 m

private theorem PassesBy.trans {w' v' w'' v'' : Workspace} (h : PassesBy w v w' v' m) (h' : PassesBy w' v' w'' v'' m)
    (hsize : w.program.functions.size ≤ w'.program.functions.size) : PassesBy w v w'' v'' m := by
  rcases h' with ⟨hw, hv⟩ | ⟨hnew, heq⟩
  · rcases h with ⟨hw', hv'⟩ | ⟨hnew, heq⟩
    · exact .inl ⟨hw.trans hw', hv.trans hv'⟩
    · exact .inr ⟨hnew, by rw [hw, hv, heq]⟩
  · exact .inr ⟨Nat.le_trans hsize hnew, heq⟩

theorem PassesBy.echo {idle : Prop} {w' v' : Workspace} (h : PassesBy w v w' v' m)
    (he : Echo idle (w.summaries.of m) (v.summaries.of m)) : Echo idle (w'.summaries.of m) (v'.summaries.of m) := by
  rcases h with ⟨hw, hv⟩ | ⟨-, heq⟩
  · rw [hw, hv]
    exact he
  · exact .inl heq

/-- What becomes of a function that is treated in the first of some steps. -/
private theorem Treats.of_passesBy {idle : Prop} {w' v' w'' v'' : Workspace} (h : Treats idle w v w' v' m)
    (h' : PassesBy w' v' w'' v'' m) (hlt : m < w'.program.functions.size) : Treats idle w v w'' v'' m := by
  rcases h' with ⟨hw, hv⟩ | ⟨hnew, -⟩
  · rcases h with ⟨hidle, hkept⟩ | ⟨he, hrest⟩
    · exact .inl ⟨hidle, hkept.before, hkept.given, hkept.keeps, hw.trans hkept.host, hv.trans hkept.accelerator⟩
    · exact .inr ⟨by rw [hw, hv]; exact he, hrest⟩
  · exact absurd hnew (Nat.not_le_of_lt hlt)

/-- What becomes of a function that the first of some steps leaves alone. -/
private theorem Treats.of_frame {idle : Prop} {w' v' w'' v'' : Workspace} (h : Treats idle w' v' w'' v'' m)
    (hf : w'.program.function m = w.program.function m) (hw : w'.summaries.of m = w.summaries.of m)
    (hv : v'.summaries.of m = v.summaries.of m) : Treats idle w v w'' v'' m := by
  have hkeeps : w'.program.keepsSide m = w.program.keepsSide m := by
    simp only [Program.keepsSide, Program.hasMarker, hf]
  rcases h with ⟨hidle, hkept⟩ | ⟨he, hrest⟩
  · exact .inl ⟨hidle, hw.symm.trans hkept.before, hv.symm.trans hkept.given, hkeeps.symm.trans hkept.keeps,
      hkept.host, hkept.accelerator⟩
  · rw [hw, hv, hkeeps] at hrest
    exact .inr ⟨he, hrest⟩

private theorem sweptAlike_treatNodes (options : Options) {l : List Node} (hl : l.Nodup)
    (hlt : ∀ m ∈ l, m < w.program.functions.size) (hp : v.program = w.program) (hj : v.journal = w.journal)
    (he : ∀ m ∈ l, Echo (idle m) (w.summaries.of m) (v.summaries.of m)) (clones : List Node) :
    SweptAlike idle l w v (l.foldl (treatNode options) (w, clones)) (l.foldl (treatNode options) (v, clones)) := by
  induction l generalizing w v clones with
  | nil => exact ⟨hp, hj, rfl, fun m hm => absurd hm List.not_mem_nil, fun m _ => .inl ⟨rfl, rfl⟩⟩
  | cons n l ih =>
    rw [List.nodup_cons] at hl
    have hn := he n List.mem_cons_self
    obtain ⟨hp', hj', hc'⟩ := treat_congr options hp hj (treatmentOf_echo hp hn)
    have htreats := treats_treat hp hn options
    have hframe : ∀ m ∈ l, (w.treat options n).1.program.function m = w.program.function m ∧
        (w.treat options n).1.summaries.of m = w.summaries.of m := fun m hm =>
      treat_frame options (hlt m (List.mem_cons_of_mem n hm)) fun e => hl.1 (e ▸ hm)
    have hframe' : ∀ m ∈ l, (v.treat options n).1.summaries.of m = v.summaries.of m := by
      intro m hm
      have hlt' : m < v.program.functions.size := by
        rw [hp]
        exact hlt m (List.mem_cons_of_mem n hm)
      have hne : m ≠ n := fun e => hl.1 (e ▸ hm)
      exact (treat_frame options hlt' hne).2
    have hsize : w.program.functions.size ≤ (w.treat options n).1.program.functions.size := by
      rw [size_treat]
      exact Nat.le_add_right _ _
    have hlt' : ∀ m ∈ l, m < (w.treat options n).1.program.functions.size := fun m hm =>
      Nat.lt_of_lt_of_le (hlt m (List.mem_cons_of_mem n hm)) hsize
    have he' : ∀ m ∈ l,
        Echo (idle m) ((w.treat options n).1.summaries.of m) ((v.treat options n).1.summaries.of m) := by
      intro m hm
      rw [(hframe m hm).2, hframe' m hm]
      exact he m (List.mem_cons_of_mem n hm)
    have hrest := ih hl.2 hlt' hp' hj' he' (clones ++ (w.treat options n).2.toList)
    have hfold : (n :: l).foldl (treatNode options) (v, clones) =
        l.foldl (treatNode options) ((v.treat options n).1, clones ++ (w.treat options n).2.toList) := by
      rw [← hc']
      rfl
    rw [hfold]
    refine ⟨hrest.program, hrest.journal, hrest.clones, fun m hm => ?_, fun m hm => ?_⟩
    · rcases List.mem_cons.mp hm with rfl | hm
      · exact htreats.of_passesBy (hrest.passesBy m hl.1) (Nat.lt_of_lt_of_le (hlt m List.mem_cons_self) hsize)
      · exact (hrest.treats m hm).of_frame (hframe m hm).1 (hframe m hm).2 (hframe' m hm)
    · rw [List.mem_cons, not_or] at hm
      exact (passesBy_treat hp hn options hm.1).trans (hrest.passesBy m hm.2) hsize

theorem sweptAlike_cloneSweep (options : Options) (hostOnly : List Node) (h : Near idle w v) :
    SweptAlike idle (w.program.live.filter (· ∉ hostOnly)) w v (w.cloneSweep options hostOnly)
      (v.cloneSweep options hostOnly) := by
  rw [cloneSweep_eq_filter, cloneSweep_eq_filter, h.program]
  refine sweptAlike_treatNodes options (w.program.nodup_live.filter _) (fun m hm => ?_) h.program h.journal
    (fun m _ => h.summaries m) []
  exact Program.lt_size_of_mem_live (List.mem_of_mem_filter hm)

private theorem Near.cloneSweep (options : Options) (hostOnly : List Node) (h : Near idle w v)
    (hquiet : ∀ m ∈ w.program.live, idle m → w.program.keepsSide m = false) :
    Near idle (w.cloneSweep options hostOnly).1 (v.cloneSweep options hostOnly).1 ∧
      (v.cloneSweep options hostOnly).2 = (w.cloneSweep options hostOnly).2 := by
  have hswept := sweptAlike_cloneSweep options hostOnly h
  refine ⟨⟨hswept.program, hswept.journal, fun m => ?_⟩, hswept.clones⟩
  by_cases hm : m ∈ w.program.live.filter (· ∉ hostOnly)
  · rcases hswept.treats m hm with ⟨hidle, hkept⟩ | ⟨he, -⟩
    · have hkeeps := hkept.keeps
      rw [hquiet m (List.mem_of_mem_filter hm) hidle] at hkeeps
      cases hkeeps
    · exact he
  · exact (hswept.passesBy m hm).echo (h.summaries m)

/-! ### The calls -/

private theorem Near.retargetEdge {a b : Workspace × Nat} (h : Near idle a.1 b.1) (hr : b.2 = a.2) (e : Nat) :
    Near idle (retargetEdge a e).1 (retargetEdge b e).1 ∧
      (Workspace.retargetEdge b e).2 = (Workspace.retargetEdge a e).2 := by
  obtain ⟨w, count⟩ := a
  obtain ⟨v, count'⟩ := b
  obtain ⟨t, ht, rfl⟩ := h.exists_eq
  cases hr
  have htwin : ∀ m, t.twinOf? m = w.summaries.twinOf? m := by
    intro m
    rw [Summaries.twinOf?, Summaries.twinOf?]
    rcases ht m with heq | ⟨-, hnone, hside⟩
    · rw [heq]
    · rw [hnone, hside]
      rfl
  unfold Workspace.retargetEdge
  dsimp only
  rw [htwin]
  cases w.summaries.twinOf? (w.program.edge e).callee with
  | none => exact ⟨⟨rfl, rfl, ht⟩, rfl⟩
  | some twin => exact ⟨⟨rfl, rfl, ht⟩, rfl⟩

private theorem Near.retargetNode {a b : Workspace × Nat} (h : Near idle a.1 b.1) (hr : b.2 = a.2) (n : Node) :
    Near idle (retargetNode a n).1 (retargetNode b n).1 ∧
      (Workspace.retargetNode b n).2 = (Workspace.retargetNode a n).2 := by
  have haccelerator : b.1.isAccelerator n = a.1.isAccelerator n := by
    rw [isAccelerator, isAccelerator]
    rcases h.summaries n with heq | ⟨-, hnone, hside⟩
    · rw [heq]
    · rw [hnone, hside]
      rfl
  unfold Workspace.retargetNode
  dsimp only
  rw [haccelerator]
  split
  · rw [h.program]
    exact List.foldl_rel (r := fun a b : Workspace × Nat => Near idle a.1 b.1 ∧ b.2 = a.2) ⟨h, hr⟩
      fun e _ _ _ hab => hab.1.retargetEdge hab.2 e
  · exact ⟨h, hr⟩

private theorem Near.retarget (h : Near idle w v) :
    Near idle w.retarget.1 v.retarget.1 ∧ v.retarget.2 = w.retarget.2 := by
  unfold Workspace.retarget
  rw [h.program]
  exact List.foldl_rel (r := fun a b : Workspace × Nat => Near idle a.1 b.1 ∧ b.2 = a.2) ⟨h, rfl⟩
    fun n _ _ _ hab => hab.1.retargetNode hab.2 n

/-! ### Runs -/

private theorem Kin.keepsSide {p q : Program} (h : Kin (p.function n) (q.function n)) :
    q.keepsSide n = p.keepsSide n := by
  simp only [Program.keepsSide, h.flags, h.hasMarker (m := .placeholder) (by decide) (by decide),
    h.hasMarker (m := .kernel) (by decide) (by decide), h.hasMarker (m := .callable) (by decide) (by decide)]

/-- Runs from workspaces that differ only in sides that are not kept end in such, and give the same report. -/
theorem Near.run (h : Near idle w v) (hquiet : ∀ m, idle m → w.program.keepsSide m = false) (options : Options) :
    Near idle (w.run options).1 (v.run options).1 ∧ (v.run options).2 = (w.run options).2 := by
  obtain ⟨hscreen, hfound⟩ := h.screen options
  have hscreened := screened options w
  have hquiet' : ∀ m ∈ (w.screen options).1.program.live, idle m →
      (w.screen options).1.program.keepsSide m = false := by
    intro m hm hidle
    have hlt := Program.lt_size_of_mem_live hm
    rw [hscreened.size] at hlt
    rw [(hscreened.moves.kin hlt).keepsSide]
    exact hquiet m hidle
  obtain ⟨hsweep, hclones⟩ := hscreen.cloneSweep options (w.screen options).2.rejected hquiet'
  obtain ⟨hcalls, hcount⟩ := hsweep.retarget
  rw [run_eq_screen, run_eq_screen, hfound]
  refine ⟨hcalls, ?_⟩
  dsimp only
  rw [hclones, hcount]

end Workspace

end Accelerator
