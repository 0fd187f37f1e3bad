import Accelerator.Proofs.Rerun

/-!
# What becomes of rejected functions

A survey rejects a function that has an obstacle, and the run leaves it alone.  Later runs judge it again.  The only
thing that a run does to the obstacles of a function is to take away its calls of the kernels that it removes, and only
the first run of a pass removes any (`History.removed_execute`).  So a function that a run rejected is cloned by a later
run if and only if calls of kernels that were removed by that same run were all that stood in its way.
-/

namespace Accelerator

namespace Workspace

variable {w v : Workspace} {base : Nat} {gone made made' : List Node} {n c : Node} {options : Options}

/-! ### Accelerator code -/

/-- Only kernels and the accelerator sides of functions are accelerator code. -/
def Accounted (w : Workspace) : Prop :=
  ∀ n, (w.summaries.of n).accelerator = true →
    w.program.hasMarker n .kernel = true ∨ ∃ h, (w.summaries.of h).bound = some n

private theorem Move.accounted (hm : Move w gone made' v) (hw : Paired base made w) (ha : w.Accounted) :
    v.Accounted := by
  -- who was accelerator code before still has its reason
  have hold : ∀ n, n ∉ gone → (w.summaries.of n).accelerator = true →
      v.program.hasMarker n .kernel = true ∨ ∃ h, (v.summaries.of h).bound = some n := by
    intro n hg hacc
    rcases ha n hacc with hk | ⟨h, hb⟩
    · left
      have hlive : n ∈ w.program.live := by
        by_contra hdead
        rw [hw.dead n hdead] at hacc
        cases hacc
      rw [hm.hasMarker_kernel (Program.lt_size_of_mem_live hlive), hk]
    · exact .inr ⟨h, hw.bound_mono hm hb⟩
  intro n hacc
  cases hm with
  | note | mark | unmark | publish => exact hold n List.not_mem_nil hacc
  | redirect => exact hold n List.not_mem_nil hacc
  | touch =>
    rw [Summaries.of_touch] at hacc
    exact hold n List.not_mem_nil hacc
  | @discard m =>
    rw [Summaries.of_forget] at hacc
    split at hacc
    · cases hacc
    · rename_i hne
      exact hold n (by simpa using hne) hacc
  | @settle m _ _ _ hk =>
    by_cases hnm : n = m
    · exact .inl (hnm ▸ hk)
    · rw [Summaries.of_markAccelerator, if_neg hnm] at hacc
      exact hold n List.not_mem_nil hacc
  | @classify m =>
    by_cases hnm : n = m
    · rw [Summaries.of_update, if_pos hnm] at hacc
      exact hold n List.not_mem_nil (hnm ▸ hacc)
    · rw [Summaries.of_update, if_neg hnm] at hacc
      exact hold n List.not_mem_nil hacc
  | @twin m kind isPublic =>
    by_cases hnm : n = m
    · rw [hnm, of_withTwin_host] at hacc
      cases hacc
    · by_cases hnew : n = w.program.functions.size
      · exact .inr ⟨m, by rw [of_withTwin_host, hnew]⟩
      · rw [of_withTwin_other kind isPublic hnm hnew] at hacc
        exact hold n List.not_mem_nil hacc

private theorem Moves.accounted (hm : Moves w gone made' v) (hw : Paired base made w) (ha : w.Accounted) :
    v.Accounted := by
  induction hm with
  | refl => exact ha
  | step h hmove ih => exact hmove.accounted (h.paired hw) ih

/-! ### One run with a survey -/

/-- The kernels that a run leaves have no obstacle. -/
private theorem Sound.obstacle?_kernel_run (hw : Sound base made w) (hp : options.parallel = true)
    (hn : n ∈ (w.run options).1.program.definitions) (hk : (w.run options).1.program.hasMarker n .kernel = true)
    (hb : ((w.run options).1.summaries.of n).bound = none) : (w.run options).1.program.obstacle? n = none := by
  have hscreen := screened options w
  rw [hp] at hscreen
  obtain ⟨hremoved, -⟩ := run_swept options hw.coherent
  have hmoves := moves_run options w
  rcases Nat.lt_or_ge n w.program.functions.size with hlt | hge
  · obtain ⟨hwd, hgone, hwb⟩ := hw.before_run hlt hn hb
    rw [(hmoves.kin hlt).hasMarker (by decide) (by decide)] at hk
    have ho : w.program.obstacle? n = none := by
      by_contra ho
      rw [hremoved] at hgone
      exact hgone ((hscreen.removed n).mpr ⟨rfl, hwd, isUnfit_iff.mpr ⟨hwb, ho⟩, hk⟩)
    exact hmoves.obstacle?_mono hw.toPaired hw.faithful (Program.mem_definitions.mp hwd).1 hgone ho
  · have hl := (Program.mem_definitions.mp hn).1
    exact (hw.clones_run hp (mem_clones_run options hw.coherent hl hge)).1

/-- After a run with a survey the next one has no kernel to remove. -/
private theorem Sound.removed_run_run (hw : Sound base made w) (hp : options.parallel = true) (j : Journal) :
    (Workspace.run options { (w.run options).1 with journal := j }).2.removed = [] := by
  have hco := ((moves_run options w).paired hw.toPaired).coherent
  have hkernels := fun n => hw.obstacle?_kernel_run (n := n) hp
  generalize (w.run options).1 = v at hco hkernels
  rw [(run_swept (w := { v with journal := j }) options hco).1, List.eq_nil_iff_forall_not_mem]
  intro n hn
  obtain ⟨-, hd, hunfit, hk⟩ := ((screened options _).removed n).mp hn
  obtain ⟨hb, ho⟩ := isUnfit_iff.mp hunfit
  exact ho (hkernels n hd hk hb)

/-- Which of the functions that are neither bound nor kernels a run with a survey clones. -/
theorem Sound.exists_clone_run_iff (hw : Sound base made w) (hp : options.parallel = true)
    (hn : n ∈ w.program.definitions) (hb : (w.summaries.of n).bound = none)
    (hk : w.program.hasMarker n .kernel = false) :
    (∃ c ∈ (w.run options).2.clones, ((w.run options).1.summaries.of n).bound = some c) ↔
      (w.program.function n).flags.versionable = true ∧ (w.summaries.of n).isResolved = false ∧
        w.program.hasMarker n .placeholder = false ∧ w.program.obstacle? n = none := by
  have hscreen := screened options w
  rw [hp] at hscreen
  obtain ⟨-, hswept⟩ := run_swept options hw.coherent
  have hl := (Program.mem_definitions.mp hn).1
  have hkin := hscreen.moves.kin (Program.lt_size_of_mem_live hl)
  have hgone := hscreen.not_mem_removed hk
  have hsummary := hscreen.summaries_of_paired hw.toPaired hgone
  have hlive : n ∈ (w.screen options).1.program.live := by simp [hscreen.live, hl, hgone]
  have hneeds := hscreen.needsTwin hl
  rw [hsummary, hk] at hneeds
  rw [hswept.exists_bound_iff (Program.lt_size_of_mem_live hlive) (by simp [hsummary, hb])]
  constructor
  · rintro ⟨hmem, hasks⟩
    have hfit := hscreen.isFit_of_asks hw hlive (by simpa using (List.mem_filter.mp hmem).2) hasks
    rw [asksForTwin, hneeds, hkin.flags] at hasks
    simp only [Bool.and_eq_true, Bool.not_eq_true'] at hasks
    exact ⟨hasks.1, hasks.2.1.1.1, hasks.2.1.1.2, (isFit_iff.mp hfit).2⟩
  · rintro ⟨hver, hresolved, hplaceholder, ho⟩
    have hfit := isFit_iff.mpr ⟨hb, ho⟩
    have hrejected : n ∉ (w.screen options).2.rejected := by simp [hscreen.rejected, not_isUnfit_of_isFit hfit]
    have huniversal : (w.screen options).1.program.hasMarker n .universal = true := by
      rw [hscreen.universal]
      simp [hn, hfit]
    refine ⟨by simp [hlive, hrejected], ?_⟩
    rw [asksForTwin, hneeds, hkin.flags]
    simp [hver, hresolved, hplaceholder, huniversal]

/-- A function that a run binds is bound to one of its clones. -/
theorem Sound.mem_clones_of_bound (hw : Sound base made w) (hb : (w.summaries.of n).bound = none)
    (hb' : ((w.run options).1.summaries.of n).bound = some c) : c ∈ (w.run options).2.clones := by
  have hmoves := moves_run options w
  have hpaired := hmoves.paired hw.toPaired
  rcases List.mem_append.mp ((hpaired.mem_made c).mpr ⟨n, hb'⟩) with hold | hnew
  · -- no other function was bound to it before
    obtain ⟨h, hh⟩ := (hw.mem_made c).mp hold
    have hhn : h = n := hpaired.inj h n c (hmoves.bound_mono hw.toPaired hh) hb'
    rw [hhn, hb] at hh
    cases hh
  · exact hnew

/-- What a run with a survey rejects it leaves alone. -/
private theorem Sound.summaries_of_rejected (hw : Sound base made w) (hn : n ∈ (w.screen options).2.rejected) :
    (w.run options).1.summaries.of n = w.summaries.of n := by
  have hscreen := screened options w
  obtain ⟨-, hd, -, hk⟩ := (hscreen.rejected n).mp hn
  have hlt := Program.lt_size_of_mem_definitions hd
  rw [((run_swept options hw.coherent).2.kept n (by rw [hscreen.size]; exact hlt) (by simp [hn])).2,
    hscreen.summaries_of_paired hw.toPaired (hscreen.not_mem_removed hk)]

/-- Nothing but calls of the functions `gone` keeps a function from being cloned. -/
def Spared (w : Workspace) (gone : List Node) (n : Node) : Prop :=
  (w.program.function n).flags.versionable = true ∧ w.program.hasMarker n .placeholder = false ∧
    w.program.obstacleBut? gone n = none

theorem Moves.spared_iff (hm : Moves w gone made' v) (hw : Sound base made w) (hn : n ∈ w.program.live)
    (hg : n ∉ gone) : v.Spared [] n ↔ w.Spared gone n := by
  have hkin := hm.kin (Program.lt_size_of_mem_live hn)
  rw [Spared, Spared, hkin.flags, hkin.hasMarker (by decide) (by decide), Program.obstacleBut?_nil,
    hm.obstacle?_eq_none hw.toPaired hw.faithful hn hg]

/-- A run from where an earlier one left a rejected function. -/
private theorem Sound.rejected_run (hw : Sound base made w) (hp : options.parallel = true)
    (hn : n ∈ w.program.definitions)
    (hb : (w.summaries.of n).bound = none) (hk : w.program.hasMarker n .kernel = false) :
    ((w.run options).1.summaries.of n).bound = none ∧ (¬w.Spared [] n ∨ (w.summaries.of n).isResolved = true) ∨
      w.Spared [] n ∧ ∃ c ∈ (w.run options).2.clones, ((w.run options).1.summaries.of n).bound = some c := by
  have hiff := hw.exists_clone_run_iff hp hn hb hk
  by_cases hclone : ∃ c ∈ (w.run options).2.clones, ((w.run options).1.summaries.of n).bound = some c
  · obtain ⟨hver, -, hplaceholder, ho⟩ := hiff.mp hclone
    exact .inr ⟨⟨hver, hplaceholder, by rw [Program.obstacleBut?_nil, ho]⟩, hclone⟩
  · left
    constructor
    · rw [Option.eq_none_iff_forall_ne_some]
      exact fun c hc => hclone ⟨c, hw.mem_clones_of_bound hb hc, hc⟩
    · by_contra hnot
      obtain ⟨hspared, hresolved⟩ := not_or.mp hnot
      obtain ⟨hver, hplaceholder, ho⟩ := not_not.mp hspared
      rw [Program.obstacleBut?_nil] at ho
      exact hclone (hiff.mpr ⟨hver, by simpa using hresolved, hplaceholder, ho⟩)

/-- The accelerator sides of functions have no obstacle. -/
def TwinsFit (w : Workspace) : Prop := ∀ h c, (w.summaries.of h).bound = some c → w.program.obstacle? c = none

private theorem TwinsFit.withJournal (h : w.TwinsFit) (j : Journal) : TwinsFit { w with journal := j } := h

private theorem Sound.twinsFit_run (hw : Sound base made w) (hp : options.parallel = true) (ht : w.TwinsFit) :
    (w.run options).1.TwinsFit := by
  have hmoves := moves_run options w
  intro h c hb
  rcases List.mem_append.mp (((hmoves.paired hw.toPaired).mem_made c).mpr ⟨h, hb⟩) with hold | hnew
  · obtain ⟨h', hb'⟩ := (hw.mem_made c).mp hold
    exact hmoves.obstacle?_mono hw.toPaired hw.faithful (hw.pair h' c hb').twin_live
      (hw.toPaired.not_mem_gone hmoves hb').2 (ht h' c hb')
  · exact (hw.clones_run hp hnew).1

/-- What is rejected is not accelerator code. -/
private theorem TwinsFit.not_resolved (ht : w.TwinsFit) (ha : w.Accounted) (hunfit : w.isUnfit n = true)
    (hk : w.program.hasMarker n .kernel = false) : (w.summaries.of n).isResolved = false := by
  obtain ⟨hunbound, ho⟩ := isUnfit_iff.mp hunfit
  have hhost : (w.summaries.of n).accelerator = false := by
    by_contra hacc
    rcases ha n (by simpa using hacc) with hkernel | ⟨h, hb⟩
    · rw [hk] at hkernel
      cases hkernel
    · exact ho (ht h n hb)
  simp [Summary.isResolved, hunbound, hhost]

end Workspace

namespace Pass

variable {text : String} {options : Options} {start p q : Program} {reports later : List Report} {pass pass' : Pass}
variable {f : Node}

theorem History.options_eq (hist : History options start reports pass p) : pass.options = options := by
  induction hist with
  | fresh => rfl
  | execute _ _ ih => exact ih

/-- Only the first run of a pass with a survey removes kernels. -/
theorem History.removed_execute (hparse : Program.parse text = .ok start) (hp : options.parallel = true)
    (hist : History options start reports pass p) (hne : reports ≠ []) (j : Journal) :
    (pass.execute p j).2.removed = [] := by
  cases hist with
  | fresh => exact absurd rfl hne
  | @execute _ pass p hist k =>
    have hparallel : pass.options.parallel = true := by rw [hist.options_eq, hp]
    rw [execute_eq, workspace_execute, options_execute]
    exact (hist.sound hparse k).removed_run_run hparallel j

private theorem History.twinsFit (hparse : Program.parse text = .ok start) (hp : options.parallel = true)
    (hist : History options start reports pass p) (j : Journal) : (pass.workspace p j).TwinsFit := by
  induction hist generalizing j with
  | fresh =>
    intro h c hb
    rw [show (({ options } : Pass).workspace start j).summaries.of h = {} from Summaries.of_empty h] at hb
    cases hb
  | @execute _ pass p hist k ih =>
    have hparallel : pass.options.parallel = true := by rw [hist.options_eq, hp]
    rw [workspace_execute]
    exact ((hist.sound hparse k).twinsFit_run hparallel (ih k)).withJournal j

theorem History.accounted (hparse : Program.parse text = .ok start) (hist : History options start reports pass p)
    (j : Journal) : (pass.workspace p j).Accounted := by
  refine (hist.moves j j).accounted (Workspace.paired_start (Program.coherent_parse hparse) j) ?_
  intro n hacc
  rw [show (∅ : Summaries).of n = {} from Summaries.of_empty n] at hacc
  cases hacc

/-- What a pass and a program become by further runs, with the reports of these runs. -/
inductive Runs (pass : Pass) (p : Program) : List Report → Pass → Program → Prop
  | refl : Runs pass p [] pass p
  | execute {reports : List Report} {pass' : Pass} {q : Program} (h : Runs pass p reports pass' q) (j : Journal) :
      Runs pass p (reports ++ [(pass'.execute q j).2]) (pass'.execute q j).1.1 (pass'.execute q j).1.2.1

private theorem History.append (hist : History options start reports pass p) (h : Runs pass p later pass' q) :
    History options start (reports ++ later) pass' q := by
  induction h with
  | refl => rwa [List.append_nil]
  | execute _ j ih =>
    rw [← List.append_assoc]
    exact ih.execute j

/-- After further runs a function that was rejected is as the rejecting run left it, or it was spared and a run has
cloned it. -/
private theorem rejected_or_cloned (hparse : Program.parse text = .ok start) (hp : options.parallel = true)
    (hist : History options start reports pass p) (j : Journal)
    (hf : f ∈ ((pass.workspace p j).screen options).2.rejected)
    (hlater : Runs (pass.execute p j).1.1 (pass.execute p j).1.2.1 later pass' q) (k : Journal) :
    (∃ made, (pass.workspace p j).Moves (pass.execute p j).2.removed made (pass'.workspace q k)) ∧
      (((pass'.summariesOrEmpty.of f).bound = none ∧
          (later = [] → pass'.summariesOrEmpty.of f = pass.summariesOrEmpty.of f) ∧
          (later ≠ [] → ¬(pass.workspace p j).Spared (pass.execute p j).2.removed f)) ∨
        ((pass.workspace p j).Spared (pass.execute p j).2.removed f ∧
          ∃ r ∈ later, ∃ c ∈ r.clones, (pass'.summariesOrEmpty.of f).bound = some c)) := by
  obtain rfl := hist.options_eq
  have hw := hist.sound hparse j
  have hscreen := Workspace.screened pass.options (pass.workspace p j)
  obtain ⟨-, hd, hunfit, hk⟩ := (hscreen.rejected f).mp hf
  have hresolved := (hist.twinsFit hparse hp j).not_resolved (hist.accounted hparse j) hunfit hk
  have hlive := (Program.mem_definitions.mp hd).1
  have hlt := Program.lt_size_of_mem_live hlive
  have hgone : f ∉ (pass.execute p j).2.removed := fun hg => by
    rw [(moves_execute pass p j k).kernel_of_mem_gone hlt hg] at hk
    cases hk
  induction hlater generalizing k with
  | refl =>
    have hsame := hw.summaries_of_rejected hf
    rw [← summaries_execute] at hsame
    refine ⟨⟨_, moves_execute pass p j k⟩, .inl ⟨?_, fun _ => hsame, fun h => absurd rfl h⟩⟩
    rw [hsame]
    exact Summary.bound_of_unresolved hresolved
  | @execute later pass' q hruns i ih =>
    obtain ⟨⟨made, hmoves⟩, hstate⟩ := ih i
    have hist' := (hist.execute j).append hruns
    have hopt := hist'.options_eq
    have hw' := hist'.sound hparse i
    have hnone := hist'.removed_execute hparse hp (by simp) i
    have hstep := moves_execute pass' q i k
    rw [hnone] at hstep
    refine ⟨⟨_, by simpa using hmoves.trans hstep⟩, ?_⟩
    rcases hstate with ⟨hb, hsame, hspared⟩ | ⟨hspared, r, hr, c, hc, hb⟩
    · have hd' := hmoves.definitions hd hgone
      have hk' : (pass'.workspace q i).program.hasMarker f .kernel = false := by
        rw [(hmoves.kin hlt).hasMarker (by decide) (by decide), hk]
      have hrun := hw'.rejected_run (hopt ▸ hp) hd' hb hk'
      rw [hmoves.spared_iff hw hlive hgone, ← summaries_execute] at hrun
      rcases hrun with ⟨hb', hwhy⟩ | ⟨hspared', c, hc, hb'⟩
      · refine .inl ⟨hb', fun h => by simp at h, fun _ => ?_⟩
        rcases hwhy with hnot | hres
        · exact hnot
        · by_cases hl : later = []
          · have hres' : (pass.summariesOrEmpty.of f).isResolved = true := hsame hl ▸ hres
            rw [show (pass.summariesOrEmpty.of f).isResolved = false from hresolved] at hres'
            cases hres'
          · exact hspared hl
      · exact .inr ⟨hspared', _, List.mem_append_right _ (List.mem_singleton_self _), c, hc, hb'⟩
    · have hb' := hstep.bound_mono hw'.toPaired hb
      rw [summaries_workspace] at hb'
      exact .inr ⟨hspared, r, List.mem_append_left _ hr, c, hc, hb'⟩

/-- A function that the survey of a run rejects is cloned by a later run if and only if there is a later run, the
function may be cloned, and it had no obstacle but calls of kernels that the rejecting run removed. -/
theorem exists_clone_of_rejected_iff (hparse : Program.parse text = .ok start) (hp : options.parallel = true)
    (hist : History options start reports pass p) (j : Journal)
    (hf : f ∈ ((pass.workspace p j).survey options.verbose).2.rejected)
    (hlater : Runs (pass.execute p j).1.1 (pass.execute p j).1.2.1 later pass' q) :
    (∃ r ∈ later, ∃ c ∈ r.clones, (pass'.summariesOrEmpty.of f).bound = some c) ↔
      later ≠ [] ∧ (p.function f).flags.versionable = true ∧ p.hasMarker f .placeholder = false ∧
        p.obstacleBut? (pass.execute p j).2.removed f = none := by
  have hscreen : ((pass.workspace p j).screen options).2.rejected =
      ((pass.workspace p j).survey options.verbose).2.rejected := by rw [Workspace.screen, if_pos hp]
  rcases (rejected_or_cloned hparse hp hist j (hscreen ▸ hf) hlater {}).2 with ⟨hb, -, hnot⟩ | ⟨hspared, hclone⟩
  · constructor
    · rintro ⟨r, -, c, -, hc⟩
      rw [hb] at hc
      cases hc
    · rintro ⟨hne, hspared⟩
      exact absurd hspared (hnot hne)
  · refine iff_of_true hclone ⟨?_, hspared⟩
    obtain ⟨r, hr, -⟩ := hclone
    exact List.ne_nil_of_mem hr

/-- A function that calls a kernel, which cannot be offloaded because it calls through a value, and a destructor. -/
def sparedItems : List (Source.Item String) :=
  [.function ⟨"f", [], [], {}, some [⟨"entry", [⟨none, .call "k" {}, []⟩, ⟨none, .other "ret", []⟩]⟩]⟩,
   .function ⟨"k", ["p"], [.kernel], {}, some [⟨"entry",
      [⟨none, .callIndirect "p" {}, []⟩, ⟨none, .other "ret", []⟩]⟩]⟩,
   .function ⟨"d", [], [], { isDestructor := true }, some [⟨"entry", [⟨none, .other "ret", []⟩]⟩]⟩]

def sparedText : String :=
  "f() \x7b\nentry: call @k()\nret\n\x7d\nk(%p) [hsa_kernel] \x7b\nentry: call_indirect %p()\nret\n\x7d\n" ++
  "d() dtor \x7b entry: ret \x7d"

private theorem parse_sparedText : Program.parse sparedText = .ok (Source.layOut sparedItems) := by decide +kernel

/-- The function is cloned by the second run. -/
theorem exists_clone_of_rejected_sparedText :
    let fresh : Pass := { options := { parallel := true } }
    let first := fresh.execute (Source.layOut sparedItems) {}
    let second := first.1.1.execute first.1.2.1 {}
    ((fresh.workspace (Source.layOut sparedItems) {}).survey false).2.rejected = [0, 2] ∧
    ((∃ r ∈ [second.2], ∃ c ∈ r.clones, (second.1.1.summariesOrEmpty.of 0).bound = some c) ↔
      [second.2] ≠ [] ∧ ((Source.layOut sparedItems).function 0).flags.versionable = true ∧
        (Source.layOut sparedItems).hasMarker 0 .placeholder = false ∧
        (Source.layOut sparedItems).obstacleBut? first.2.removed 0 = none) :=
  ⟨by decide +kernel,
    exists_clone_of_rejected_iff parse_sparedText rfl .fresh {} (by decide +kernel) (Runs.refl.execute {})⟩

/-- What the survey of one run rejects a later run may clone. -/
theorem rejected_then_cloned_sparedText :
    let fresh : Pass := { options := { parallel := true } }
    let first := fresh.execute (Source.layOut sparedItems) {}
    let second := first.1.1.execute first.1.2.1 {}
    Program.parse sparedText = .ok (Source.layOut sparedItems) ∧
    0 ∈ ((fresh.workspace (Source.layOut sparedItems) {}).survey false).2.rejected ∧
    first.2 = ⟨[1], [], 0⟩ ∧ second.2 = ⟨[], [3], 0⟩ ∧ (second.1.1.summariesOrEmpty.of 0).bound = some 3 := by
  decide +kernel

end Pass

end Accelerator
