import Accelerator.CommandLine.Session
import Accelerator.ObjectFile.Reader
import Accelerator.Proofs.Echo
import Accelerator.Proofs.Loading
import Accelerator.Proofs.Printed
import Accelerator.Proofs.Verdicts

/-!
# Summaries that are passed over

The command line goes on after a stream that is only malformed, but what the records before the defect said stays in
force (`present_ignored`).  So the run shows something else than without the summaries, unless those records said
nothing that a run hears (`present_of_echo`).  A kind and a declaration show without a run of the pass, a function that
is bound shows in the tally of a run that looks for more functions, and a side that is kept shows in the text for the
summaries.
-/

namespace Accelerator

namespace Workspace

open Summary (Echo)

variable {w v : Workspace} {n : Node}

/-! ### How many functions are considered -/

private theorem considered_treat (options : Options) (w : Workspace) (n : Node) :
    (w.treat options n).1.journal.tally.considered = w.journal.tally.considered := by
  have hadd : ∀ (p : Program) (s : Summaries) (kind : Kind) (isPublic : Bool),
      (addTwin options ⟨p, s, w.journal⟩ n kind isPublic).1.journal.tally.considered =
        w.journal.tally.considered := by
    intro p s kind isPublic
    unfold addTwin
    dsimp only
    split
    · rfl
    · split <;> rfl
  unfold treat
  dsimp only
  cases w.program.treatment n ((w.summaries.touch n).of n) with
  | resolved | host | placeholder | kernel => rfl
  | function marked =>
    cases marked with
    | true =>
      dsimp only
      exact hadd _ _ _ _
    | false =>
      dsimp only
      exact hadd _ _ _ _
  | universal | implicit =>
    dsimp only
    exact hadd _ _ _ _

private theorem considered_retargetEdge (a : Workspace × Nat) (e : Nat) :
    (retargetEdge a e).1.journal.tally.considered = a.1.journal.tally.considered := by
  obtain ⟨w, count⟩ := a
  unfold retargetEdge
  dsimp only
  split <;> rfl

/-- What every step of a fold keeps is kept. -/
private theorem foldl_keeps {α β γ : Type} (f : α → β → α) (g : α → γ) (h : ∀ a b, g (f a b) = g a) (l : List β)
    (a : α) : g (l.foldl f a) = g a := by
  induction l generalizing a with
  | nil => rfl
  | cons b l ih => rw [List.foldl_cons, ih, h]

/-- A run that looks for more functions considers the definitions that are not bound. -/
private theorem considered_run (options : Options) (hparallel : options.parallel = true) (w : Workspace) :
    (w.run options).1.journal.tally.considered = w.journal.tally.considered +
      w.program.definitions.countP fun n => (w.summaries.of n).bound.isNone := by
  have hsweep : ∀ (hostOnly : List Node) (u : Workspace),
      (u.cloneSweep options hostOnly).1.journal.tally.considered = u.journal.tally.considered := by
    intro hostOnly u
    rw [cloneSweep_eq_filter]
    exact foldl_keeps (treatNode options) (·.1.journal.tally.considered) (fun a n => considered_treat options a.1 n) _ _
  have hcalls : ∀ u : Workspace, u.retarget.1.journal.tally.considered = u.journal.tally.considered := by
    intro u
    unfold retarget
    refine foldl_keeps retargetNode (·.1.journal.tally.considered) (fun a n => ?_) _ _
    unfold retargetNode
    dsimp only
    split
    · exact foldl_keeps retargetEdge (·.1.journal.tally.considered) considered_retargetEdge _ _
    · rfl
  have hsurvey : (w.survey options.verbose).1.journal.tally.considered = w.journal.tally.considered +
      w.program.definitions.countP fun n => (w.summaries.of n).bound.isNone := by
    rw [journal_survey]
  rw [run_eq_screen, screen, if_pos hparallel, hcalls, hsweep, hsurvey]

/-! ### The text for the summaries -/

private theorem length_render (s : Summaries) (p : Program) : (s.render p).length =
    (p.live.map fun n => if (s.of n).isParticipant then (Summaries.line p n (s.of n)).length else 0).sum := by
  rw [Summaries.render, String.length_join, List.map_map]
  induction p.live with
  | nil => rfl
  | cons n l ih =>
    cases hn : (s.of n).isParticipant with
    | true => simp [hn, ih]
    | false => simp [hn, ih]

/-- A side that is kept makes the text longer. -/
private theorem length_render_lt {p q : Program} {s t : Summaries} (hf : q.functions = p.functions)
    (h : ∀ m ∈ p.live, Echo True (s.of m) (t.of m) ∨
      (s.of m = ⟨.function, false, none⟩ ∧ t.of m = ⟨.function, true, none⟩))
    (hn : n ∈ p.live) (hs : s.of n = ⟨.function, false, none⟩) (ht : t.of n = ⟨.function, true, none⟩) :
    (s.render p).length < (t.render q).length := by
  have hlive : q.live = p.live := by simp only [Program.live, Program.function, hf]
  have hname : ∀ m, q.name m = p.name m := fun m => by simp only [Program.name, Program.function, hf]
  have hline : ∀ m e, Summaries.line q m e = Summaries.line p m e := by
    intro m e
    unfold Summaries.line
    rw [hname]
    cases e.bound with
    | none => rfl
    | some b => simp only [hname]
  have hlonger : ∀ m, (Summaries.line p m ⟨.function, false, none⟩).length <
      (Summaries.line p m ⟨.function, true, none⟩).length := by
    intro m
    simp only [Summaries.line, String.length_append, if_true, Bool.false_eq_true, if_false]
    have hword : "host".length < "accelerator".length := by decide
    omega
  rw [length_render, length_render, hlive]
  simp only [hline]
  refine List.sum_lt_sum _ _ (fun m hm => ?_) ⟨n, hn, ?_⟩
  · rcases h m hm with (heq | ⟨-, hnone, hside⟩) | ⟨hhost, hside⟩
    · rw [heq]
    · rw [hnone, if_neg (by decide)]
      exact Nat.zero_le _
    · rw [hhost, hside, if_pos (by decide), if_pos (by decide)]
      exact Nat.le_of_lt (hlonger m)
  · rw [hs, ht, if_pos (by decide), if_pos (by decide)]
    exact hlonger n

/-- If a side is kept, the runs of two workspaces that agree in all else end with different texts for the summaries. -/
private theorem length_render_run_lt {options : Options} (hparallel : options.parallel = false)
    (h : Near (fun _ => True) w v) (hn : n ∈ w.program.live) (hnone : w.summaries.of n = {})
    (hside : v.summaries.of n = { accelerator := true }) (hkeeps : w.program.keepsSide n = true) :
    ((w.run options).1.summaries.render (w.run options).1.program).length <
      ((v.run options).1.summaries.render (v.run options).1.program).length := by
  have hswept := sweptAlike_cloneSweep options [] h
  have hrun : ∀ u : Workspace, (u.run options).1 = (u.cloneSweep options []).1.retarget.1 := by
    intro u
    rw [run_eq_screen, screen, if_neg (by simp [hparallel])]
  have hends : ∀ u : Workspace, SameButEnds u u.retarget.1 := fun u => same_retargetNodes u 0 _
  have hw := hends (w.cloneSweep options []).1
  have hv := hends (v.cloneSweep options []).1
  rw [hrun, hrun, hw.summaries, hv.summaries]
  have hmoves := moves_cloneSweep options [] w
  have hkept : SideKept w v (w.cloneSweep options []).1 (v.cloneSweep options []).1 n := by
    rcases hswept.treats n (by simpa using hn) with ⟨-, hkept⟩ | ⟨-, heq | hnot⟩
    · exact hkept
    · rw [hnone, hside] at heq
      cases heq
    · rw [hkeeps] at hnot
      cases hnot
  refine length_render_lt (n := n) ?_ (fun m _ => ?_) ?_ hkept.host hkept.accelerator
  · rw [hv.functions, hw.functions, hswept.program]
  · by_cases hm : m ∈ w.program.live.filter (· ∉ ([] : List Node))
    · rcases hswept.treats m hm with ⟨-, hkept⟩ | ⟨he, -⟩
      · exact .inr ⟨hkept.host, hkept.accelerator⟩
      · exact .inl he
    · exact .inl ((hswept.passesBy m hm).echo (h.summaries m))
  · have hlive := hmoves.live hn List.not_mem_nil
    simpa only [Program.live, Program.function, hw.functions] using hlive

end Workspace

/-! ### What is read before a stream is refused -/

namespace Program

private theorem Declared.function_old {p q : Program} (h : Declared p q) {n : Node} (hn : n < p.functions.size) :
    q.function n = p.function n ∧ n < q.functions.size := by
  induction h with
  | refl => exact ⟨rfl, hn⟩
  | @declare q _ title ih =>
    unfold getOrDeclare
    split
    · exact ih
    · refine ⟨?_, ?_⟩
      · show (q.addFunction (declaration title)).function n = _
        rw [function_addFunction, if_neg (Nat.ne_of_lt ih.2)]
        exact ih.1
      · show n < (q.addFunction (declaration title)).functions.size
        rw [size_addFunction]
        exact Nat.lt_succ_of_lt ih.2

end Program

namespace Pass

/-- Reading adds declarations to the program and decides about definitions only. -/
private theorem declared_readAll (p : Program) (streams : List (List UInt8)) :
    p.Declared (readAll (Roster.ofProgram p) streams 0 (p, ∅)).1.1 ∧
      ∀ n, n ∉ p.definitions → (readAll (Roster.ofProgram p) streams 0 (p, ∅)).1.2.of n = {} := by
  refine readAll_induction (P := fun state => p.Declared state.1 ∧ ∀ n, n ∉ p.definitions → state.2.of n = {}) ?_
    ⟨.refl, fun n _ => Summaries.of_empty n⟩ streams 0
  rintro ⟨q, s⟩ r n hn hdef ⟨hq, hs⟩
  rw [nodes_ofProgram] at hn
  have hdefinition : n ∈ p.definitions := by
    rw [Program.mem_definitions, ← (hq.function_old (Program.lt_size_of_mem_live hn)).1]
    exact ⟨hn, hdef⟩
  have hother : ∀ (f : Summary → Summary) m, m ∉ p.definitions → (s.update n f).of m = {} := by
    intro f m hm
    have hne : m ≠ n := fun he => hm (he ▸ hdefinition)
    rw [Summaries.of_update, if_neg hne]
    exact hs m hm
  unfold Stream.Record.apply
  cases r.bound with
  | none => exact ⟨hq, hother _⟩
  | some title => exact ⟨hq.declare title, hother _⟩

end Pass

/-! ### What a run shows -/

namespace CommandLine

/-- What is shown once the summaries of earlier runs are taken over. -/
def present (pass : Pass) (p : Program) : Shown := .of (finish pass p)

/-- What a run of the pass in a workspace shows. -/
def presentRun (w : Workspace) (options : Options) : Shown :=
  let done := (w.run options).1
  ⟨done.program.render, done.summaries.render done.program,
    String.join (done.journal.notices.map fun n => n.render ++ "\n"), done.journal.tally⟩

private theorem tally_presentRun (w : Workspace) (options : Options) :
    (presentRun w options).tally = (w.run options).1.journal.tally := by
  unfold presentRun
  dsimp only

private theorem dump_presentRun (w : Workspace) (options : Options) :
    (presentRun w options).dump = (w.run options).1.summaries.render (w.run options).1.program := by
  unfold presentRun
  dsimp only

private theorem present_of_requested {pass : Pass} (h : pass.options.offload = true) (p : Program) :
    present pass p = presentRun (pass.workspace p {}) pass.options := by
  unfold present finish presentRun
  rw [if_pos (show pass.isRequested = true from h), Pass.execute_eq]
  generalize (pass.workspace p {}).run pass.options = done
  rfl

private theorem present_of_not_requested {pass : Pass} (h : pass.options.offload = false) (p : Program) :
    present pass p = ⟨p.render, pass.dump p, "", {}⟩ := by
  unfold present finish
  rw [if_neg (show ¬pass.isRequested = true by simp [Pass.isRequested, h])]
  rfl

/-- Reading does not depend on the options. -/
private theorem readObjects_options (lib : ObjectFile.Library) (options : Options) (p : Program) (roster : Roster)
    (objects : List (List UInt8)) :
    ({ options } : Pass).readObjects lib p roster objects =
      ((⟨options, (({} : Pass).readObjects lib p roster objects).1.1.summaries⟩,
        (({} : Pass).readObjects lib p roster objects).1.2), (({} : Pass).readObjects lib p roster objects).2) := by
  unfold Pass.readObjects
  cases lib.unwrapAll objects with
  | error why => rfl
  | ok streams => rfl

variable {lib : ObjectFile.Library} {text : String} {p p' : Program} {objects : List (List UInt8)} {pass : Pass}
  {e : Error}

/-- An error that is not fatal leaves in force what was read before it. -/
theorem present_ignored
    (hread : ({} : Pass).readObjects lib p (Roster.ofProgram p) objects = ((pass, p'), .error e))
    (he : e.isFatal = false) (hne : objects ≠ []) (a : Arguments) :
    a.present lib p objects = .ok (present ⟨a.options, pass.summaries⟩ p') := by
  have hoptions := readObjects_options lib a.options p (Roster.ofProgram p) objects
  rw [hread] at hoptions
  unfold Arguments.present Arguments.conclude takeOver
  rw [if_neg (by simpa using hne), hoptions]
  simp only [he]
  rfl

theorem present_nil (lib : ObjectFile.Library) (a : Arguments) (p : Program) :
    a.present lib p [] = .ok (present { options := a.options } p) :=
  rfl

private theorem near_workspace {s : Summaries} {idle : Node → Prop}
    (hs : ∀ n, s.of n = {} ∨ (s.of n = { accelerator := true } ∧ idle n)) (options : Options) (p : Program) :
    Workspace.Near idle (Pass.workspace { options } p {}) (Pass.workspace ⟨options, some s⟩ p {}) := by
  refine ⟨rfl, rfl, fun n => ?_⟩
  rw [Pass.summaries_workspace, Pass.summaries_workspace]
  show Summary.Echo _ ((∅ : Summaries).of n) (s.of n)
  rw [Summaries.of_empty]
  rcases hs n with heq | ⟨hside, hidle⟩
  · exact .inl heq
  · exact .inr ⟨hidle, rfl, hside⟩

/-- Nothing shows of summaries that decide nothing and give no side that is kept. -/
theorem present_of_echo {s : Summaries}
    (hs : ∀ n, s.of n = {} ∨ (s.of n = { accelerator := true } ∧ p.keepsSide n = false)) (options : Options) :
    present ⟨options, some s⟩ p = present { options } p := by
  have hnear := near_workspace hs options p
  cases hoffload : options.offload with
  | true =>
    obtain ⟨hrun, -⟩ := hnear.run (fun n hn => hn) options
    rw [present_of_requested hoffload, present_of_requested hoffload]
    unfold presentRun
    generalize (Pass.workspace { options } p {}).run options = done at hrun ⊢
    generalize (Pass.workspace ⟨options, some s⟩ p {}).run options = done' at hrun ⊢
    have hdump : done'.1.summaries.render done'.1.program = done.1.summaries.render done.1.program := by
      rw [hrun.program]
      refine Summaries.render_congr fun n _ => ?_
      rcases hrun.summaries n with heq | ⟨-, hnone, hside⟩
      · exact .inl heq
      · rw [hnone, hside]
        exact .inr ⟨rfl, rfl⟩
    dsimp only
    rw [hdump, hrun.program, hrun.journal]
  | false =>
    rw [present_of_not_requested hoffload, present_of_not_requested hoffload]
    have hdump : s.render p = (∅ : Summaries).render p := by
      refine Summaries.render_congr fun n _ => .inr ?_
      rw [Summaries.of_empty]
      rcases hs n with heq | ⟨hside, -⟩
      · rw [heq]
        exact ⟨rfl, rfl⟩
      · rw [hside]
        exact ⟨rfl, rfl⟩
    have hempty : (∅ : Summaries).render p = "" := by
      simp [Summaries.render, Summaries.of_empty, Summary.isParticipant, String.join]
    show (⟨p.render, s.render p, "", {}⟩ : Shown) = ⟨p.render, "", "", {}⟩
    rw [hdump, hempty]

/-- Without a run, declarations and participants show. -/
private theorem silent_of_present_eq {s : Summaries} (hp : p.Closed) (hdeclared : p.Declared p')
    (h : ∀ options, present ⟨options, some s⟩ p' = present { options } p) :
    p' = p ∧ ∀ n ∈ p.live, (s.of n).kind = .none := by
  have hshown := h {}
  rw [present_of_not_requested rfl, present_of_not_requested rfl] at hshown
  have hgraph : p'.render = p.render := congrArg Shown.graph hshown
  have hdump : s.render p' = "" := congrArg Shown.dump hshown
  obtain ⟨-, more, hmore, heq⟩ := hdeclared.exists_render hp
  have hempty : more = "" := by
    rw [hgraph, ← String.toList_inj, String.toList_append] at hmore
    rw [← String.toList_inj]
    simpa using hmore
  obtain rfl := heq hempty
  refine ⟨rfl, fun n hn => ?_⟩
  have hlength := Workspace.length_render s p'
  rw [hdump, String.length_empty, eq_comm, List.sum_eq_zero_iff] at hlength
  have hentry := hlength _ (List.mem_map.mpr ⟨n, hn, rfl⟩)
  cases hpart : (s.of n).isParticipant with
  | true =>
    rw [if_pos hpart] at hentry
    simp [Summaries.line] at hentry
  | false => simpa [Summary.isParticipant] using hpart

/-- A run that looks for more functions passes over bound functions, and this shows in the tally. -/
private theorem unbound_of_present_eq {s : Summaries}
    (h : ∀ options, present ⟨options, some s⟩ p = present { options } p) :
    ∀ n ∈ p.definitions, (s.of n).bound = none := by
  obtain ⟨options, hoffload, hparallel⟩ : ∃ options : Options, options.offload = true ∧ options.parallel = true :=
    ⟨{ offload := true, parallel := true }, rfl, rfl⟩
  have hshown := h options
  rw [present_of_requested hoffload, present_of_requested hoffload] at hshown
  have htally := congrArg (·.considered) (congrArg Shown.tally hshown)
  dsimp only at htally
  rw [tally_presentRun, tally_presentRun, Workspace.considered_run options hparallel,
    Workspace.considered_run options hparallel] at htally
  have hfresh : p.definitions.countP (fun n => ((∅ : Summaries).of n).bound.isNone) = p.definitions.length := by
    rw [List.countP_eq_length]
    intro n _
    rw [Summaries.of_empty]
    rfl
  have hall : p.definitions.countP (fun n => (s.of n).bound.isNone) = p.definitions.length := by
    rw [← hfresh]
    exact Nat.add_left_cancel htally
  intro n hn
  simpa using List.countP_eq_length.mp hall n hn

/-- A side that is kept shows in the text for the summaries. -/
private theorem quiet_of_present_eq {s : Summaries} (h : ∀ options, present ⟨options, some s⟩ p = present { options } p)
    (hs : ∀ n, s.of n = {} ∨ s.of n = { accelerator := true }) {n : Node} (hn : n ∈ p.live)
    (hside : s.of n = { accelerator := true }) : p.keepsSide n = false := by
  by_contra hkeeps
  obtain ⟨options, hoffload, hparallel⟩ : ∃ options : Options, options.offload = true ∧ options.parallel = false :=
    ⟨{ offload := true }, rfl, rfl⟩
  have hshown := h options
  rw [present_of_requested hoffload, present_of_requested hoffload] at hshown
  have hnear : Workspace.Near (fun _ => True) (Pass.workspace { options } p {})
      (Pass.workspace ⟨options, some s⟩ p {}) :=
    near_workspace (fun n => (hs n).imp_right fun hside => ⟨hside, trivial⟩) options p
  have hlonger := Workspace.length_render_run_lt hparallel hnear hn (Summaries.of_empty n) hside
    (Bool.not_eq_false _ ▸ hkeeps)
  have hdump := congrArg Shown.dump hshown
  rw [dump_presentRun, dump_presentRun] at hdump
  rw [hdump] at hlonger
  exact Nat.lt_irrefl _ hlonger

/-- Nothing shows of summaries that decide about definitions only if and only if nothing was declared, no function got
a kind or was bound, and no side was given that a run keeps. -/
private theorem present_eq_iff {s : Summaries} (hp : p.Closed) (hdeclared : p.Declared p')
    (hdefinitions : ∀ n, n ∉ p.definitions → s.of n = {}) :
    (∀ options, present ⟨options, some s⟩ p' = present { options } p) ↔
      p' = p ∧ ∀ n, s.of n = {} ∨ (s.of n = { accelerator := true } ∧ p.keepsSide n = false) := by
  constructor
  · intro h
    obtain ⟨rfl, hkinds⟩ := silent_of_present_eq hp hdeclared h
    have hbounds := unbound_of_present_eq h
    have hs : ∀ n, s.of n = {} ∨ s.of n = { accelerator := true } := by
      intro n
      by_cases hn : n ∈ p'.definitions
      · have hkind := hkinds n (Program.mem_definitions.mp hn).1
        have hbound := hbounds n hn
        generalize s.of n = found at hkind hbound ⊢
        obtain ⟨kind, accelerator, bound⟩ := found
        dsimp only at hkind hbound
        subst hkind hbound
        cases accelerator with
        | false => exact .inl rfl
        | true => exact .inr rfl
      · exact .inl (hdefinitions n hn)
    refine ⟨rfl, fun n => ?_⟩
    by_cases hn : n ∈ p'.definitions
    · exact (hs n).imp_right fun hside =>
        ⟨hside, quiet_of_present_eq h hs (Program.mem_definitions.mp hn).1 hside⟩
    · exact .inl (hdefinitions n hn)
  · rintro ⟨rfl, hs⟩ options
    exact present_of_echo hs options

private theorem exists_options (options : Options) : ∃ a : Arguments, a.options = options := by
  obtain ⟨offload, parallel, verbose, warn⟩ := options
  exact ⟨{ noOffload := !offload, parallel, verbose, noWarn := !warn }, by simp [Arguments.options]⟩

/-- Whatever object files are, summaries that are passed over because of an error that is not fatal have no effect,
whatever the flags, if and only if nothing was declared before the error, no function got a kind or was bound, and
no side was given that a run keeps. -/
theorem ignored_iff (hparse : Program.parse text = .ok p)
    (hread : ({} : Pass).readObjects lib p (Roster.ofProgram p) objects = ((pass, p'), .error e))
    (he : e.isFatal = false) :
    (∀ a : Arguments, a.present lib p objects = a.present lib p []) ↔
      p' = p ∧ ∀ n, pass.summariesOrEmpty.of n = {} ∨
        (pass.summariesOrEmpty.of n = { accelerator := true } ∧ p.keepsSide n = false) := by
  have hne : objects ≠ [] := by
    rintro rfl
    cases hread
  have hpresent := present_ignored hread he hne
  simp only [hpresent, present_nil, Except.ok.injEq]
  unfold Pass.readObjects at hread
  cases hunwrap : lib.unwrapAll objects with
  | error why =>
    -- a file that cannot be read stops reading before anything is decided
    rw [hunwrap] at hread
    cases hread
    exact ⟨fun _ => ⟨rfl, fun n => .inl (Summaries.of_empty n)⟩, fun _ _ => rfl⟩
  | ok streams =>
    obtain ⟨hdeclared, hdefinitions⟩ := Pass.declared_readAll p streams
    have hfresh : ({} : Pass).summariesOrEmpty = ∅ := rfl
    rw [hunwrap] at hread
    unfold Pass.readStreams at hread
    dsimp only at hread
    rw [hfresh] at hread
    generalize Pass.readAll (Roster.ofProgram p) streams 0 (p, ∅) = done at hread hdeclared hdefinitions
    obtain ⟨⟨q, s⟩, result⟩ := done
    cases hread
    refine Iff.trans ⟨fun h options => ?_, fun h a => h a.options⟩
      (present_eq_iff (Program.closed_parse hparse) hdeclared hdefinitions)
    obtain ⟨a, rfl⟩ := exists_options options
    exact h a

/-- A function that cannot be cloned, with the marker for both sides. -/
def sideItems : List (Source.Item String) :=
  [.function ⟨"g", [], [.callable], { noClone := true }, some [⟨"entry", [⟨none, .other "ret", []⟩]⟩]⟩]

def sideText : String := "g() [hsa_function] noclone \x7b entry: ret \x7d"

/-- What is read of an object file with a stream of two records, of which the second is missing.  The first one gives
only the side. -/
def sideRead : (Pass × Program) × Except Error Nat :=
  ({} : Pass).readObjects ObjectFile.elf (Source.layOut sideItems) (Roster.ofProgram (Source.layOut sideItems))
    [ObjectFile.fileWith ObjectFile.summarySection [2, 0, 4]]

/-- The error is not fatal, and the side is kept. -/
theorem ignored_sideText :
    Program.parse sideText = .ok (Source.layOut sideItems) ∧
    sideRead.2 = .error (.stream ⟨3, .unexpectedEnd⟩) ∧
    (Error.stream ⟨3, .unexpectedEnd⟩).isFatal = false ∧
    ¬∀ a : Arguments, a.present ObjectFile.elf (Source.layOut sideItems)
        [ObjectFile.fileWith ObjectFile.summarySection [2, 0, 4]] =
      a.present ObjectFile.elf (Source.layOut sideItems) [] := by
  have hparse : Program.parse sideText = .ok (Source.layOut sideItems) := by decide +kernel
  have herror : sideRead.2 = .error (.stream ⟨3, .unexpectedEnd⟩) := by decide +kernel
  have hread : sideRead = ((sideRead.1.1, sideRead.1.2), .error (.stream ⟨3, .unexpectedEnd⟩)) := by rw [← herror]
  refine ⟨hparse, herror, rfl, fun h => ?_⟩
  have hquiet := ((ignored_iff hparse hread rfl).mp h).2 0
  revert hquiet
  decide +kernel

/-- A function, and a stream of two records, of which the second is missing. -/
def cutItems : List (Source.Item String) :=
  [.function ⟨"f", [], [], {}, some [⟨"entry", [⟨none, .other "ret", []⟩]⟩]⟩]

def cutText : String := "f() \x7b entry: ret \x7d"

/-- The first record is in force although the stream is refused: the function is cloned. -/
theorem not_ignored_cutText :
    Program.parse cutText = .ok (Source.layOut cutItems) ∧
    (({} : Pass).readObjects ObjectFile.elf (Source.layOut cutItems) (Roster.ofProgram (Source.layOut cutItems))
      [ObjectFile.fileWith ObjectFile.summarySection [2, 0, 2]]).2 = .error (.stream ⟨3, .unexpectedEnd⟩) ∧
    (Error.stream ⟨3, .unexpectedEnd⟩).isFatal = false ∧
    (({} : Arguments).present ObjectFile.elf (Source.layOut cutItems)
        [ObjectFile.fileWith ObjectFile.summarySection [2, 0, 2]]).map (·.dump) =
      .ok "Summary f: kind=function role=host bound=f.hsa.0\nSummary f.hsa.0: kind=function role=accelerator\n" ∧
    (({} : Arguments).present ObjectFile.elf (Source.layOut cutItems) []).map (·.dump) = .ok "" := by
  decide +kernel

end CommandLine

end Accelerator
