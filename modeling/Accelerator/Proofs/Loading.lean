import Accelerator.Proofs.Selection

/-!
# Runs on summaries that were read

A stream may bind a function to any other.  A survey passes over functions that are bound, and if it removes the kernel
that such a function is bound to, the function comes to the clone sweep unbound and without a verdict.  These are the
only functions with an obstacle that a run with a survey clones (`Bounded.exists_clone_iff`).
-/

namespace Accelerator

/-! ### What reading keeps -/

/-- The tables of a program fit together, only definitions are versionable, and functions are bound to functions of the
program. -/
structure Workspace.Bounded (p : Program) (s : Summaries) : Prop where
  coherent : p.Coherent
  versionable : ∀ n ∈ p.live, (p.function n).flags.versionable = true → (p.function n).flags.definition = true
  bound : ∀ n b, (s.of n).bound = some b → b < p.functions.size

open Workspace (Bounded)

namespace Stream

variable {p : Program} {s : Summaries}

private theorem bounded_apply (h : Bounded p s) (r : Record) (n : Node) :
    Bounded (r.apply n (p, s)).1 (r.apply n (p, s)).2 := by
  unfold Record.apply
  cases hb : r.bound with
  | none =>
    refine ⟨h.coherent, h.versionable, fun m b hm => h.bound m b ?_⟩
    rw [Summaries.of_update] at hm
    split at hm
    · rename_i he
      rw [he]
      exact hm
    · exact hm
  | some title =>
    have hco := h.coherent.getOrDeclare title
    dsimp only
    unfold Program.getOrDeclare at hco ⊢
    cases hname : p.names[title]? with
    | some m =>
      refine ⟨h.coherent, h.versionable, fun i b hi => ?_⟩
      rw [Summaries.of_update] at hi
      split at hi
      · cases hi
        exact Program.lt_size_of_mem_live ((h.coherent.names title m).mp hname).1
      · exact h.bound i b hi
    | none =>
      rw [hname] at hco
      refine ⟨hco, fun i hi hv => ?_, fun i b hi => ?_⟩
      · rw [Program.function_addFunction] at hv ⊢
        rw [Program.mem_live, Program.size_addFunction, Program.function_addFunction] at hi
        split at hv
        · cases hv
        · rename_i hne
          rw [if_neg hne] at hi ⊢
          exact h.versionable i (Program.mem_live.mpr ⟨Nat.lt_of_le_of_ne (Nat.le_of_lt_succ hi.1) hne, hi.2⟩) hv
      · rw [Summaries.of_update] at hi
        rw [Program.size_addFunction]
        split at hi
        · cases hi
          exact Nat.lt_succ_self _
        · exact Nat.lt_succ_of_lt (h.bound i b hi)

end Stream

namespace Pass

variable {text : String} {start : Program}

private theorem options_readStreams (pass : Pass) (p : Program) (roster : Roster) (streams : List (List UInt8)) :
    (pass.readStreams p roster streams).1.1.options = pass.options := rfl

theorem readAll_induction {P : Program × Summaries → Prop} {roster : Roster}
    (hstep : ∀ (state : Program × Summaries) (r : Stream.Record), ∀ n ∈ roster.nodes,
      (state.1.function n).flags.definition = true → P state → P (r.apply n state))
    {state : Program × Summaries} (h : P state) (streams : List (List UInt8)) (count : Nat) :
    P (readAll roster streams count state).1 := by
  induction streams generalizing state count with
  | nil => exact h
  | cons bytes rest ih =>
    have hread := Stream.read_induction hstep h bytes
    unfold readAll
    generalize Stream.read roster state bytes = result at hread
    split
    · exact hread
    · exact ih hread _

/-- Whatever is read into a fresh pass binds functions to functions of the program. -/
private theorem bounded_readStreams (options : Options) (hparse : Program.parse text = .ok start) (roster : Roster)
    (streams : List (List UInt8)) :
    Bounded (({ options } : Pass).readStreams start roster streams).1.2
      (({ options } : Pass).readStreams start roster streams).1.1.summariesOrEmpty := by
  have hco := Program.coherent_parse hparse
  obtain ⟨items, -, rfl⟩ := Program.parse_eq_ok hparse
  have hfresh : Bounded (Source.layOut items) ∅ :=
    ⟨hco, (Source.declares_layOut items {}).versionable, fun n b hb => by rw [Summaries.of_empty] at hb; cases hb⟩
  exact readAll_induction (P := fun state => Bounded state.1 state.2)
    (fun state r n _ _ h => Stream.bounded_apply h r n) hfresh streams 0

end Pass

namespace Workspace

variable {w v : Workspace} {n b : Node} {options : Options} {found : Survey}

/-! ### Functions that a survey passes over -/

/-- Whether a function would get an accelerator side if it were not bound. -/
def asksUnbound (w : Workspace) (n : Node) : Bool :=
  (w.program.function n).flags.versionable &&
    (w.program.treatment n { w.summaries.of n with bound := none }).needsTwin

/-- A survey does not touch the markers of a function that is bound. -/
private theorem Screened.treatment_of_bound {parallel : Bool} (h : Screened parallel w v found)
    (hn : n ∈ w.program.live)
    (hb : (w.summaries.of n).bound = some b) (s : Summary) : v.program.treatment n s = w.program.treatment n s := by
  have hkin := h.moves.kin (Program.lt_size_of_mem_live hn)
  have hfit : w.isFit n = false := by simp [isFit, hb]
  have hunfit : w.isUnfit n = false := by simp [isUnfit, hb]
  refine Program.treatment_congr (fun k => ?_) (Traits.fields_of_eq hkin.traits).2.2.2 s
  by_cases hu : k = .universal
  · rw [hu, h.universal, hfit]
    simp
  · by_cases hd : k = .declareTarget
    · rw [hd, h.declareTarget, hunfit]
      simp
    · exact hkin.hasMarker hu hd

/-- A bound function asks for a clone after the survey if and only if what it was bound to was removed and it asks for
one without it. -/
private theorem Screened.asksForTwin_of_bound {parallel : Bool} (h : Screened parallel w v found)
    (hn : n ∈ w.program.live) (hremoved : n ∉ found.removed) (hb : (w.summaries.of n).bound = some b) :
    v.asksForTwin n = true ↔ b ∈ found.removed ∧ w.asksUnbound n = true := by
  have hkin := h.moves.kin (Program.lt_size_of_mem_live hn)
  have hsummary : v.summaries.of n = (w.summaries.of n).without found.removed := by rw [h.summaries, if_neg hremoved]
  rw [asksForTwin, asksUnbound, treatmentOf, h.treatment_of_bound hn hb, hkin.flags, hsummary]
  by_cases hgone : b ∈ found.removed
  · have hwithout : (w.summaries.of n).without found.removed = { w.summaries.of n with bound := none } := by
      simp [Summary.without, hb, Option.filter, hgone]
    rw [hwithout]
    simp [hgone]
  · have hres : ((w.summaries.of n).without found.removed).isResolved = true := by
      simp [Summary.without, hb, Option.filter, hgone, Summary.isResolved]
    rw [Program.needsTwin_treatment, hres]
    simp [hgone]

/-- The functions with an obstacle that a run with a survey clones: those that were bound to a kernel which the survey
removed, and ask for a clone without it. -/
theorem Bounded.exists_clone_iff (h : Bounded w.program w.summaries) (hp : options.parallel = true)
    (hn : n ∈ w.program.live) (ho : w.program.obstacle? n ≠ none) :
    (∃ c ∈ (w.run options).2.clones, ((w.run options).1.summaries.of n).bound = some c) ↔
      ∃ b ∈ (w.run options).2.removed, (w.summaries.of n).bound = some b ∧ w.asksUnbound n = true := by
  have hscreen := screened options w
  rw [hp] at hscreen
  obtain ⟨hremoved, hswept⟩ := run_swept options h.coherent
  have hkin := hscreen.moves.kin (Program.lt_size_of_mem_live hn)
  have hsize := hscreen.size
  rw [hremoved, hswept.exists_bound_iff (by rw [hsize]; exact Program.lt_size_of_mem_live hn) ?_]
  · cases hb : (w.summaries.of n).bound with
    | none =>
      refine iff_of_false ?_ (by simp)
      rintro ⟨hmem, hasks⟩
      -- a function that was not bound got a verdict
      obtain ⟨hlive, hrejected⟩ := List.mem_filter.mp hmem
      rw [hscreen.live, List.mem_filter, decide_eq_true_eq] at hlive
      have hver := (Bool.and_eq_true_iff.mp hasks).1
      rw [hkin.flags] at hver
      have hd := Program.mem_definitions.mpr ⟨hn, h.versionable n hn hver⟩
      have hfit := hscreen.isFit_of_kept hd hb hlive.2 (by simpa using hrejected)
      exact ho (isFit_iff.mp hfit).2
    | some b =>
      have hgone : n ∉ (w.screen options).2.removed := by simp [hscreen.removed, isUnfit_iff, hb]
      have hrejected : n ∉ (w.screen options).2.rejected := by simp [hscreen.rejected, isUnfit_iff, hb]
      rw [hscreen.asksForTwin_of_bound hn hgone hb]
      simp [hscreen.live, hn, hgone, hrejected]
  · intro b hb
    rw [hsize]
    rw [hscreen.summaries] at hb
    split at hb
    · cases hb
    · exact h.bound n b (by simp only [Summary.without, Option.filter_eq_some_iff] at hb; exact hb.1)

end Workspace

namespace Pass

variable {text : String} {options : Options} {start : Program}

private theorem exists_clone_of_bounded {pass : Pass} {p : Program} {f : Node} (h : Bounded p pass.summariesOrEmpty)
    (hp : pass.options.parallel = true) (j : Journal) (hf : f ∈ p.live) (ho : p.obstacle? f ≠ none) :
    (∃ c ∈ (pass.execute p j).2.clones, ((pass.execute p j).1.1.summariesOrEmpty.of f).bound = some c) ↔
      ∃ b ∈ (pass.execute p j).2.removed, (pass.summariesOrEmpty.of f).bound = some b ∧
        (p.function f).flags.versionable = true ∧
        (p.treatment f { pass.summariesOrEmpty.of f with bound := none }).needsTwin = true := by
  have hiff := Workspace.Bounded.exists_clone_iff (w := pass.workspace p j) h hp hf ho
  rw [Workspace.asksUnbound, Bool.and_eq_true] at hiff
  rw [summaries_execute, execute_eq]
  exact hiff

/-- A run with a survey on a program and on whatever was read into a fresh pass clones a function that has an obstacle
if and only if the function was bound to a kernel that the run removes, and is to be cloned if it is not bound. -/
theorem exists_clone_with_obstacle_iff (hparse : Program.parse text = .ok start) (hp : options.parallel = true)
    (roster : Roster) (streams : List (List UInt8)) (j : Journal) :
    let loaded := ({ options } : Pass).readStreams start roster streams
    let done := loaded.1.1.execute loaded.1.2 j
    ∀ f ∈ loaded.1.2.live, loaded.1.2.obstacle? f ≠ none →
      ((∃ c ∈ done.2.clones, (done.1.1.summariesOrEmpty.of f).bound = some c) ↔
        ∃ b ∈ done.2.removed, (loaded.1.1.summariesOrEmpty.of f).bound = some b ∧
          (loaded.1.2.function f).flags.versionable = true ∧
          (loaded.1.2.treatment f { loaded.1.1.summariesOrEmpty.of f with bound := none }).needsTwin = true) := by
  have hbounded := bounded_readStreams options hparse roster streams
  have hoptions := options_readStreams { options } start roster streams
  exact fun f hf ho => exists_clone_of_bounded hbounded (by rw [hoptions, hp]) j hf ho

/-- A virtual function, and a kernel that cannot be offloaded because it is a constructor. -/
def boundItems : List (Source.Item String) :=
  [.function ⟨"f", [], [], { isVirtual := true }, some [⟨"entry", [⟨none, .other "ret", []⟩]⟩]⟩,
   .function ⟨"k", [], [.kernel], { isConstructor := true }, some [⟨"entry", [⟨none, .other "ret", []⟩]⟩]⟩]

def boundText : String := "f() virtual \x7b entry: ret \x7d\nk() [hsa_kernel] ctor \x7b entry: ret \x7d"

theorem parse_boundText : Program.parse boundText = .ok (Source.layOut boundItems) := by decide +kernel

/-- A stream that binds the function to the kernel. -/
def boundStream : List UInt8 := [1, 0, 10, 1, 107, 0]

/-- What a fresh pass and the program are after the stream was read. -/
def boundLoaded : (Pass × Program) × Except Error Nat :=
  ({ options := { parallel := true } } : Pass).readStreams (Source.layOut boundItems)
    (Roster.ofProgram (Source.layOut boundItems)) [boundStream]

theorem exists_clone_with_obstacle_boundText :
    let done := boundLoaded.1.1.execute boundLoaded.1.2 {}
    0 ∈ boundLoaded.1.2.live ∧ boundLoaded.1.2.obstacle? 0 ≠ none ∧
    ((∃ c ∈ done.2.clones, (done.1.1.summariesOrEmpty.of 0).bound = some c) ↔
      ∃ b ∈ done.2.removed, (boundLoaded.1.1.summariesOrEmpty.of 0).bound = some b ∧
        (boundLoaded.1.2.function 0).flags.versionable = true ∧
        (boundLoaded.1.2.treatment 0 { boundLoaded.1.1.summariesOrEmpty.of 0 with bound := none }).needsTwin = true) :=
  ⟨by decide +kernel, by decide +kernel, exists_clone_with_obstacle_iff parse_boundText rfl
    (Roster.ofProgram (Source.layOut boundItems)) [boundStream] {} 0 (by decide +kernel) (by decide +kernel)⟩

/-- The stream is accepted, and the virtual function is cloned. -/
theorem cloned_with_obstacle_boundText :
    let done := boundLoaded.1.1.execute boundLoaded.1.2 {}
    Program.parse boundText = .ok (Source.layOut boundItems) ∧ boundLoaded.2 = .ok 1 ∧
    boundLoaded.1.2.obstacle? 0 = some .virtualFunction ∧ done.2 = ⟨[1], [2], 0⟩ ∧
    (done.1.1.summariesOrEmpty.of 0).bound = some 2 := by
  decide +kernel

end Pass

end Accelerator
