import Accelerator.Proofs.Rejection
import Accelerator.Proofs.Tables

/-!
# Names of clones and names of globals

A text has no two items of one name, be they functions or globals.  The name of a clone is only kept apart from the
names of functions, so it may be the name of a global.  When this happens can be told from the text: all clones that
any number of runs make are those of functions of the text, one for each, and each has the least number whose name no
function of the text has that the first run leaves (`History.name_clone`).  Which functions are cloned depends on the
number of runs only in so far as calls of the kernels that the first run removes do not count in later ones
(`History.exists_bound_iff`).
-/

namespace Accelerator

namespace Program

variable {p : Program} {f n : Node} {k : Nat} {gone gone' : List Node} {parallel : Bool}

/-- The kernels that a survey removes from a program. -/
def unfitKernels (p : Program) (parallel : Bool) : List Node :=
  p.definitions.filter fun n => parallel && (p.obstacle? n).isSome && p.hasMarker n .kernel

/-- Whether runs give a function of a program an accelerator side if calls of the functions `gone` do not count. -/
def isOffloadedBut (p : Program) (parallel : Bool) (gone : List Node) (n : Node) : Bool :=
  (p.function n).flags.versionable && !p.hasMarker n .placeholder && !p.hasMarker n .kernel &&
    if parallel then (p.obstacleBut? gone n).isNone
    else p.hasMarker n .callable || p.hasMarker n .universal ||
      (p.hasMarker n .declareTarget && !p.hasMarker n .deviceRoutine && !(p.function n).traits.isArtificial)

/-- The number `k` is the first one that gives the clone of a function a name of its own, once the functions `gone` are
removed. -/
def IsCloneNumber (p : Program) (gone : List Node) (f : Node) (k : Nat) : Prop :=
  IsLeast {i : Nat | ∀ m ∈ p.live, m ∉ gone → p.name m ≠ p.name f ++ ".hsa." ++ toString i} k

private theorem isOffloadedBut_nil (p : Program) (parallel : Bool) (n : Node) :
    p.isOffloadedBut parallel [] n = p.isOffloaded parallel n := by
  rw [isOffloadedBut, isOffloaded, obstacleBut?_nil]

private theorem isOffloadedBut_kernel (hk : p.hasMarker n .kernel = true) :
    p.isOffloadedBut parallel gone n = false := by
  simp [isOffloadedBut, hk]

/-- Calls that do not count can only add to what is offloaded. -/
private theorem isOffloadedBut_of_isOffloaded (h : p.isOffloaded parallel n = true) :
    p.isOffloadedBut parallel gone n = true := by
  unfold isOffloaded at h
  unfold isOffloadedBut
  cases parallel with
  | false => exact h
  | true =>
    simp only [if_true, Bool.and_eq_true, Option.isNone_iff_eq_none] at h ⊢
    exact ⟨h.1, obstacleBut?_of_obstacle? h.2⟩

private theorem isOffloadedBut_congr (h : ∀ m, m ∈ gone ↔ m ∈ gone') :
    p.isOffloadedBut parallel gone n = p.isOffloadedBut parallel gone' n := by
  have hiff : p.obstacleBut? gone n = none ↔ p.obstacleBut? gone' n = none := by simp only [obstacleBut?_eq_none, h]
  have hnone : (p.obstacleBut? gone n).isNone = (p.obstacleBut? gone' n).isNone := by
    rw [Bool.eq_iff_iff, Option.isNone_iff_eq_none, Option.isNone_iff_eq_none, hiff]
  rw [isOffloadedBut, isOffloadedBut, hnone]

private theorem IsCloneNumber.unique {i : Nat} (h : p.IsCloneNumber gone f k) (h' : p.IsCloneNumber gone f i) : k = i :=
  IsLeast.unique h h'

/-- Functions and globals of a text have different names. -/
private theorem name_not_mem_globals {text : String} (hparse : Program.parse text = .ok p) (hn : n ∈ p.live) :
    p.name n ∉ p.globals := by
  obtain ⟨items, hitems, rfl⟩ := parse_eq_ok hparse
  have hnames := (Source.perm_names items).nodup_iff.mpr hitems.distinct
  have hlt : n < (Source.functions items).length := by rwa [Source.live_layOut] at hn
  intro hg
  rw [name, Source.function_layOut items hlt, ← Array.mem_toList_iff] at hg
  exact (List.nodup_append.mp hnames).2.2 _ (List.mem_map_of_mem (List.getElem_mem hlt)) _ hg rfl

end Program

namespace Workspace

variable {w v : Workspace} {base : Nat} {gone made made' : List Node} {n c : Node} {options : Options}

/-- Clones are counted only for functions that have one. -/
def Counted (w : Workspace) : Prop :=
  ∀ title, w.program.cloneCounts.getD title 0 ≠ 0 →
    ∃ h c, (w.summaries.of h).bound = some c ∧ w.program.name h = title

private theorem Move.counted (hm : Move w gone made' v) (hw : Paired base made w) (hc : w.Counted) : v.Counted := by
  -- who had a clone before still has it
  have hold : ∀ title, w.program.cloneCounts.getD title 0 ≠ 0 →
      ∃ h c, (v.summaries.of h).bound = some c ∧ v.program.name h = title := by
    intro title ht
    obtain ⟨h, c, hb, rfl⟩ := hc title ht
    have hlt := Program.lt_size_of_mem_live (hw.pair h c hb).host_live
    exact ⟨h, c, hw.bound_mono hm hb, (hm.kin hlt).name⟩
  cases hm with
  | @twin m kind isPublic hl =>
    intro title ht
    rw [withTwin, Program.cloneCounts_withTwin, Std.ExtTreeMap.getD_insert] at ht
    split at ht
    · rename_i htitle
      have htitle : w.program.name m = title := by simpa using htitle
      refine ⟨m, _, by rw [of_withTwin_host], ?_⟩
      rw [withTwin, Program.name, Program.function_withTwin_old _ _ (Program.lt_size_of_mem_live hl)]
      exact htitle
    · exact hold title ht
  | _ => exact hold

private theorem Moves.counted (hm : Moves w gone made' v) (hw : Paired base made w) (hc : w.Counted) : v.Counted := by
  induction hm with
  | refl => exact hc
  | step h hmove ih => exact hmove.counted (h.paired hw) ih

private theorem Counted.eq_zero (hc : w.Counted) (hw : Paired base made w) (hn : n ∈ w.program.live)
    (hb : (w.summaries.of n).bound = none) : w.program.cloneCounts.getD (w.program.name n) 0 = 0 := by
  by_contra hne
  obtain ⟨h, c, hbound, hname⟩ := hc _ hne
  rw [hw.coherent.eq_of_name_eq (hw.pair h c hbound).host_live hn hname, hb] at hbound
  cases hbound

/-- What is there after some moves was there before or was made by them. -/
private theorem Moves.mem_live_or_made (hm : Moves w gone made v) (hn : n ∈ v.program.live) :
    n ∈ w.program.live ∧ n ∉ gone ∨ n ∈ made := by
  induction hm with
  | refl => exact .inl ⟨hn, List.not_mem_nil⟩
  | step _ hmove ih =>
    rw [List.mem_append, List.mem_append]
    rcases hmove.mem_live.mp hn with ⟨hu, hg⟩ | hmade
    · rcases ih hu with ⟨hw, hg'⟩ | hmade
      · exact .inl ⟨hw, not_or.mpr ⟨hg', hg⟩⟩
      · exact .inr (.inl hmade)
    · exact .inr (.inr hmade)

/-- A clone that a run makes has the first number that is free after the run has removed kernels. -/
private theorem Sound.name_clone_run (hw : Sound base made w) (hcounted : w.Counted) (hn : n ∈ w.program.live)
    (hb : (w.summaries.of n).bound = none) (hb' : ((w.run options).1.summaries.of n).bound = some c) :
    ∃ k, w.program.IsCloneNumber (w.run options).2.removed n k ∧
      (w.run options).1.program.name c = w.program.name n ++ ".hsa." ++ toString k := by
  have hscreen := screened options w
  obtain ⟨hremoved, hswept⟩ := run_swept options hw.coherent
  obtain ⟨h, -, -, htwin⟩ := hswept.exists_host (hw.mem_clones_of_bound hb hb')
  have hpaired := (moves_run options w).paired hw.toPaired
  have hhn : h = n := hpaired.inj h n c (by rw [htwin.host]) hb'
  rw [hhn] at htwin
  have hname : (w.screen options).1.program.name n = w.program.name n :=
    (hscreen.moves.kin (Program.lt_size_of_mem_live hn)).name
  have hleast := hscreen.isLeast_of_uncounted hw.coherent (hcounted.eq_zero hw.toPaired hn hb)
  refine ⟨(w.screen options).1.program.cloneNumber (w.program.name n) cloneSuffix, ?_, ?_⟩
  · simpa [Program.IsCloneNumber, hremoved] using hleast
  · rw [htwin.name, hname, Program.cloneTitle_cloneSuffix]

/-- For a function that has no clone yet the clones of others take no number away. -/
private theorem Moves.isCloneNumber_iff {later all : List Node} {k : Nat} (hm : Moves w gone made v)
    (hw : Paired base [] w) (hn : n ∈ w.program.live) (hg : n ∉ gone) (hb : (v.summaries.of n).bound = none)
    (hall : ∀ m, m ∈ all ↔ m ∈ gone ∨ m ∈ later) :
    v.program.IsCloneNumber later n k ↔ w.program.IsCloneNumber all n k := by
  have hv := hm.paired hw
  rw [List.nil_append] at hv
  have hname : ∀ m ∈ w.program.live, v.program.name m = w.program.name m := fun m hm' =>
    (hm.kin (Program.lt_size_of_mem_live hm')).name
  have hfree : ∀ i : Nat,
      (∀ m ∈ v.program.live, m ∉ later → v.program.name m ≠ v.program.name n ++ ".hsa." ++ toString i) ↔
        ∀ m ∈ w.program.live, m ∉ all → w.program.name m ≠ w.program.name n ++ ".hsa." ++ toString i := by
    intro i
    constructor
    · intro h m hlive hleft
      rw [hall, not_or] at hleft
      have := h m (hm.live hlive hleft.1) hleft.2
      rwa [hname m hlive, hname n hn] at this
    · intro h m hlive hleft
      rcases hm.mem_live_or_made hlive with ⟨hold, hgone⟩ | hmade
      · rw [hname m hold, hname n hn]
        exact h m hold (by rw [hall, not_or]; exact ⟨hgone, hleft⟩)
      · obtain ⟨host, hbound⟩ := (hv.mem_made m).mp hmade
        have hpair := hv.pair host m hbound
        obtain ⟨k', hk'⟩ := hpair.name
        intro heq
        rw [hk', ← Program.cloneTitle_cloneSuffix, ← Program.cloneTitle_cloneSuffix] at heq
        have hhost := hv.coherent.eq_of_name_eq hpair.host_live (hm.live hn hg) (Program.base_eq_of_cloneTitle_eq heq)
        rw [hhost, hb] at hbound
        cases hbound
  simp only [Program.IsCloneNumber, hfree]

/-- Only functions that are no clones are bound. -/
private theorem Moves.host_mem_live (hm : Moves w gone made v) (hw : Paired base [] w)
    (hb : (v.summaries.of n).bound = some c) : n ∈ w.program.live ∧ n ∉ gone := by
  have hv := hm.paired hw
  rw [List.nil_append] at hv
  rcases hm.mem_live_or_made (hv.pair n c hb).host_live with hold | hmade
  · exact hold
  · obtain ⟨h, hh⟩ := (hv.mem_made n).mp hmade
    rw [(hv.pair h n hh).unbound] at hb
    cases hb

/-! ### Who is bound -/

private theorem Sound.exists_bound_run_iff (hw : Sound base made w) (hb : (w.summaries.of n).bound = none) :
    (∃ c, ((w.run options).1.summaries.of n).bound = some c) ↔
      ∃ c ∈ (w.run options).2.clones, ((w.run options).1.summaries.of n).bound = some c :=
  ⟨fun ⟨c, hc⟩ => ⟨c, hw.mem_clones_of_bound hb hc, hc⟩, fun ⟨c, _, hc⟩ => ⟨c, hc⟩⟩

/-- A run with a survey binds those of the functions left to decide on that are to be offloaded. -/
private theorem Sound.exists_bound_run_of_survey (hw : Sound base made w) (hp : options.parallel = true)
    (hn : n ∈ w.program.live) (hk : w.program.hasMarker n .kernel = false)
    (hr : (w.summaries.of n).isResolved = false) :
    (∃ c, ((w.run options).1.summaries.of n).bound = some c) ↔ w.program.isOffloaded true n = true := by
  have hb := Summary.bound_of_unresolved hr
  rw [hw.exists_bound_run_iff hb]
  cases hv : (w.program.function n).flags.versionable with
  | true =>
    rw [hw.exists_clone_run_iff hp (hw.mem_definitions hn hv) hb hk]
    simp [Program.isOffloaded, hv, hr, hk]
  | false =>
    have hscreen := screened options w
    have hkin := hscreen.moves.kin (Program.lt_size_of_mem_live hn)
    have hsummary := hscreen.summaries_of_paired hw.toPaired (hscreen.not_mem_removed hk)
    have hlt : n < (w.screen options).1.program.functions.size := hscreen.size ▸ Program.lt_size_of_mem_live hn
    rw [(run_swept options hw.coherent).2.exists_bound_iff hlt (by simp [hsummary, hb]), asksForTwin, hkin.flags, hv]
    simp [Program.isOffloaded, hv]

private theorem isOffloadedBut_iff_spared : w.program.isOffloadedBut true gone n = true ↔
    w.Spared gone n ∧ w.program.hasMarker n .kernel = false := by
  simp only [Program.isOffloadedBut, Spared, if_true, Bool.and_eq_true, Bool.not_eq_true', Option.isNone_iff_eq_none]
  constructor
  · rintro ⟨⟨⟨hv, hp⟩, hk⟩, ho⟩
    exact ⟨⟨hv, hp, ho⟩, hk⟩
  · rintro ⟨⟨hv, hp, ho⟩, hk⟩
    exact ⟨⟨⟨hv, hp⟩, hk⟩, ho⟩

/-- Moves take away the calls of removed functions and nothing else that decides on what is to be offloaded. -/
private theorem Moves.isOffloaded_iff (hm : Moves w gone made' v) (hw : Sound base made w) (hn : n ∈ w.program.live)
    (hg : n ∉ gone) : v.program.isOffloaded true n = true ↔ w.program.isOffloadedBut true gone n = true := by
  have hkin := hm.kin (Program.lt_size_of_mem_live hn)
  rw [← Program.isOffloadedBut_nil, isOffloadedBut_iff_spared, isOffloadedBut_iff_spared, hm.spared_iff hw hn hg,
    hkin.hasMarker (by decide) (by decide)]

end Workspace

namespace Pass

variable {text : String} {options : Options} {start p : Program} {reports : List Report} {pass : Pass} {f n c : Node}

private theorem History.eq_fresh (hist : History options start [] pass p) : pass = { options } ∧ p = start := by
  generalize hreports : ([] : List Report) = reports at hist
  cases hist with
  | fresh => exact ⟨rfl, rfl⟩
  | execute => simp at hreports

private theorem History.counted (hparse : Program.parse text = .ok start) (hist : History options start reports pass p)
    (j : Journal) : (pass.workspace p j).Counted := by
  refine (hist.moves j j).counted (Workspace.paired_start (Program.coherent_parse hparse) j) ?_
  obtain ⟨items, -, rfl⟩ := Program.parse_eq_ok hparse
  intro title ht
  exact absurd Std.ExtTreeMap.getD_empty ht

/-! ### What is removed -/

private theorem mem_removed_first (hparse : Program.parse text = .ok start) (options : Options) (j : Journal) :
    n ∈ (({ options } : Pass).execute start j).2.removed ↔ n ∈ start.unfitKernels options.parallel := by
  have hs : (({ options } : Pass).workspace start j).summaries.of n = {} := Summaries.of_empty n
  rw [execute_eq, (Workspace.run_swept _ (Program.coherent_parse hparse)).1, (Workspace.screened _ _).removed,
    Workspace.isUnfit_iff, hs, Program.unfitKernels, List.mem_filter, Bool.and_eq_true, Bool.and_eq_true,
    Option.isSome_iff_ne_none]
  constructor
  · rintro ⟨hp, hd, ⟨-, ho⟩, hk⟩
    exact ⟨hd, ⟨hp, ho⟩, hk⟩
  · rintro ⟨hd, ⟨hp, ho⟩, hk⟩
    exact ⟨hp, hd, ⟨rfl, ho⟩, hk⟩

private theorem History.removed_of_no_survey (hparse : Program.parse text = .ok start) (hp : options.parallel = false)
    (hist : History options start reports pass p) (j : Journal) : (pass.execute p j).2.removed = [] := by
  rw [execute_eq, (Workspace.run_swept _ (hist.sound hparse j).coherent).1, List.eq_nil_iff_forall_not_mem]
  intro n hn
  have hparallel := (((Workspace.screened _ _).removed n).mp hn).1
  rw [hist.options_eq, hp] at hparallel
  cases hparallel

/-- Only the first run of a pass removes kernels. -/
private theorem History.removed_later (hparse : Program.parse text = .ok start)
    (hist : History options start reports pass p)
    (hne : reports ≠ []) (j : Journal) : (pass.execute p j).2.removed = [] := by
  cases hp : options.parallel with
  | true => exact hist.removed_execute hparse hp hne j
  | false => exact hist.removed_of_no_survey hparse hp j

private theorem History.mem_removed_iff (hparse : Program.parse text = .ok start)
    (hist : History options start reports pass p) (hne : reports ≠ []) :
    n ∈ reports.flatMap (·.removed) ↔ n ∈ start.unfitKernels options.parallel := by
  induction hist with
  | fresh => exact absurd rfl hne
  | @execute reports pass p hist j ih =>
    rw [List.flatMap_append, List.flatMap_singleton]
    by_cases hfirst : reports = []
    · subst hfirst
      obtain ⟨rfl, rfl⟩ := hist.eq_fresh
      exact mem_removed_first hparse options j
    · rw [hist.removed_later hparse hfirst j, List.append_nil]
      exact ih hfirst

/-! ### What clones are called -/

/-- A clone has the first number that is free in the text, but for the kernels that the first run removes. -/
theorem History.name_clone (hparse : Program.parse text = .ok start) (hist : History options start reports pass p)
    (hb : (pass.summariesOrEmpty.of f).bound = some c) :
    ∃ k, start.IsCloneNumber (start.unfitKernels options.parallel) f k ∧
      p.name c = start.name f ++ ".hsa." ++ toString k := by
  induction hist with
  | fresh =>
    rw [show ({ options } : Pass).summariesOrEmpty.of f = {} from Summaries.of_empty f] at hb
    cases hb
  | @execute reports pass p hist j ih =>
    have hw := hist.sound hparse j
    have hstart := Workspace.paired_start (Program.coherent_parse hparse) j
    have hmoves := moves_execute pass p j j
    cases hold : (pass.summariesOrEmpty.of f).bound with
    | some d =>
      have hkept := hmoves.bound_mono hw.toPaired hold
      rw [summaries_workspace, hb] at hkept
      cases hkept
      obtain ⟨k, hk, hname⟩ := ih hold
      have hlt := Program.lt_size_of_mem_live (hw.pair f c hold).twin_live
      have hsame := (hmoves.kin hlt).name
      rw [program_workspace, program_workspace] at hsame
      exact ⟨k, hk, hsame.trans hname⟩
    | none =>
      rw [← summaries_workspace _ (pass.execute p j).1.2.1 j] at hb
      obtain ⟨hf, hgone⟩ := ((hist.execute j).moves j j).host_mem_live hstart hb
      have hremoved : ∀ m, m ∈ start.unfitKernels options.parallel ↔ m ∈ reports.flatMap (·.removed) ∨
          m ∈ ((pass.workspace p j).run pass.options).2.removed := by
        intro m
        rw [← (hist.execute j).mem_removed_iff hparse (by simp), List.flatMap_append, List.flatMap_singleton,
          List.mem_append, execute_eq]
      rw [List.flatMap_append, List.mem_append, not_or] at hgone
      have hsofar := hist.moves j j
      rw [summaries_workspace, summaries_execute] at hb
      obtain ⟨k, hk, hname⟩ := hw.name_clone_run (hist.counted hparse j) (hsofar.live hf hgone.1) hold hb
      rw [show (pass.workspace p j).program.name f = start.name f from
        (hsofar.kin (Program.lt_size_of_mem_live hf)).name] at hname
      refine ⟨k, (hsofar.isCloneNumber_iff hstart hf hgone.1 hold hremoved).mp hk, ?_⟩
      rw [execute_eq]
      exact hname

/-! ### Which functions are cloned -/

private theorem exists_bound_first (hparse : Program.parse text = .ok start) (options : Options) (j : Journal)
    (hf : f ∈ start.live) :
    (∃ c, ((({ options } : Pass).execute start j).1.1.summariesOrEmpty.of f).bound = some c) ↔
      start.isOffloaded options.parallel f = true := by
  have hw := (History.fresh : History options start [] { options } start).sound hparse j
  have hs : ∀ m, (({ options } : Pass).workspace start j).summaries.of m = {} := Summaries.of_empty
  rw [summaries_execute, hw.exists_bound_run_iff (by rw [hs])]
  have hscreen := Workspace.screened options (({ options } : Pass).workspace start j)
  obtain ⟨-, hswept⟩ := Workspace.run_swept options hw.coherent
  have hlt := Program.lt_size_of_mem_live hf
  rw [hswept.exists_bound_iff (hscreen.size ▸ hlt) fun b hb => ?unbound]
  case unbound =>
    rw [hscreen.summaries, hs, Summary.without_of_unbound rfl, ite_self] at hb
    cases hb
  by_cases hgone : f ∈ ((({ options } : Pass).workspace start j).screen options).2.removed
  · have hk : start.hasMarker f .kernel = true := ((hscreen.removed f).mp hgone).2.2.2
    simp [hscreen.live, hgone, Program.isOffloaded, hk]
  · have hasks := hscreen.asksForTwin_of_fresh hs hf hgone fun hv => hw.mem_definitions hf hv
    have hlive : f ∈ (({ options } : Pass).workspace start j).program.live := hf
    rw [show start.isOffloaded options.parallel f = _ from hasks.symm]
    simp [hscreen.live, hlive, hgone]

/-- A run with a survey binds a function of the text that is not bound if nothing but calls of kernels that are already
removed kept it from being offloaded. -/
private theorem History.exists_bound_execute (hparse : Program.parse text = .ok start) (hp : options.parallel = true)
    (hist : History options start reports pass p) (hf : f ∈ start.live)
    (hb : (pass.summariesOrEmpty.of f).bound = none) (j : Journal) :
    (∃ c, ((pass.execute p j).1.1.summariesOrEmpty.of f).bound = some c) ↔
      start.isOffloadedBut true (reports.flatMap (·.removed)) f = true := by
  have hw := hist.sound hparse j
  have hstart := (History.fresh : History options start [] { options } start).sound hparse j
  have hmoves := hist.moves j j
  have hlt := Program.lt_size_of_mem_live hf
  have hopt := hist.options_eq
  cases hk : start.hasMarker f .kernel with
  | true =>
    -- no kernel is bound, whether it is still there or not
    refine iff_of_false ?_ (by simp [Program.isOffloadedBut_kernel hk])
    rintro ⟨c, hc⟩
    rw [← summaries_workspace _ (pass.execute p j).1.2.1 j] at hc
    have hkernel := (((hist.execute j).sound hparse j).kernel f c hc).1
    rw [(((hist.execute j).moves j j).kin hlt).hasMarker (by decide) (by decide), hk] at hkernel
    cases hkernel
  | false =>
    have hgone : f ∉ reports.flatMap (·.removed) := fun hg => by
      rw [hmoves.kernel_of_mem_gone hlt hg] at hk
      cases hk
    have hk' : (pass.workspace p j).program.hasMarker f .kernel = false := by
      rw [(hmoves.kin hlt).hasMarker (by decide) (by decide), hk]
    -- a function of the text is no clone, so it is accelerator code only as a kernel
    have hhost : ((pass.workspace p j).summaries.of f).accelerator = false := by
      by_contra hacc
      rcases hist.accounted hparse j f (by simpa using hacc) with hkernel | ⟨h, hbound⟩
      · rw [hk'] at hkernel
        cases hkernel
      · exact Nat.not_le_of_lt hlt (hw.fresh f ((hw.mem_made f).mpr ⟨h, hbound⟩))
    have hr : ((pass.workspace p j).summaries.of f).isResolved = false := by
      rw [Summary.isResolved, hhost, summaries_workspace, hb, Bool.and_false]
      rfl
    rw [summaries_execute, hw.exists_bound_run_of_survey (hopt ▸ hp) (hmoves.live hf hgone) hk' hr,
      hmoves.isOffloaded_iff hstart hf hgone]

/-- Without a survey a second run finds nothing to do. -/
private theorem History.summaries_of_no_survey (hparse : Program.parse text = .ok start) (hp : options.parallel = false)
    (hist : History options start reports pass p) (hne : reports ≠ []) (j : Journal) (n : Node) :
    (pass.execute p j).1.1.summariesOrEmpty.of n = pass.summariesOrEmpty.of n := by
  cases hist with
  | fresh => exact absurd rfl hne
  | @execute _ pass p hist i =>
    have hnone := hist.removed_of_no_survey hparse hp i
    rw [execute_eq] at hnone
    have hrest := ((hist.sound hparse i).atRest_run hnone).withJournal j
    rw [← workspace_execute, ← options_execute pass p i] at hrest
    exact (execute_of_atRest hrest).2.2 n

/-- The functions of the text that have a clone. -/
theorem History.exists_bound_iff (hparse : Program.parse text = .ok start)
    (hist : History options start reports pass p) (hf : f ∈ start.live) :
    (∃ c, (pass.summariesOrEmpty.of f).bound = some c) ↔ reports ≠ [] ∧
      start.isOffloadedBut options.parallel
        (if reports.length = 1 then [] else start.unfitKernels options.parallel) f = true := by
  induction hist with
  | fresh =>
    rw [show ({ options } : Pass).summariesOrEmpty.of f = {} from Summaries.of_empty f]
    simp
  | @execute reports pass p hist j ih =>
    by_cases hfirst : reports = []
    · subst hfirst
      obtain ⟨rfl, rfl⟩ := hist.eq_fresh
      rw [exists_bound_first hparse options j hf]
      simp [Program.isOffloadedBut_nil]
    · have hlen : (reports ++ [(pass.execute p j).2]).length ≠ 1 := by simpa using hfirst
      rw [if_neg hlen, and_iff_right (by simp)]
      cases hp : options.parallel with
      | false =>
        rw [hist.summaries_of_no_survey hparse hp hfirst j f, ih, and_iff_right hfirst, hp]
        exact Iff.rfl
      | true =>
        cases hb : (pass.summariesOrEmpty.of f).bound with
        | some c =>
          have hkept := (moves_execute pass p j j).bound_mono (hist.sound hparse j).toPaired hb
          rw [summaries_workspace] at hkept
          refine iff_of_true ⟨c, hkept⟩ ?_
          obtain ⟨-, hoff⟩ := ih.mp ⟨c, hb⟩
          rw [hp] at hoff
          split at hoff
          · exact Program.isOffloadedBut_of_isOffloaded (Program.isOffloadedBut_nil start true f ▸ hoff)
          · exact hoff
        | none =>
          have hremoved := fun m => hist.mem_removed_iff (n := m) hparse hfirst
          rw [hist.exists_bound_execute hparse hp hf hb j, Program.isOffloadedBut_congr hremoved, hp]

/-- After any number of runs the functions of the text do not have names of globals.  A clone has one if and only if
there was a run, and the first free name for the clone of a function that is cloned is that of a global. -/
theorem clone_named_as_global_iff (hparse : Program.parse text = .ok start)
    (hist : History options start reports pass p) :
    (∀ n ∈ p.live, n < start.functions.size → p.name n ∉ p.globals) ∧
    ((∃ n ∈ p.live, p.name n ∈ p.globals) ↔ reports ≠ [] ∧ ∃ f ∈ start.live,
      start.isOffloadedBut options.parallel
        (if reports.length = 1 then [] else start.unfitKernels options.parallel) f = true ∧
      ∃ k, start.IsCloneNumber (start.unfitKernels options.parallel) f k ∧
        start.name f ++ ".hsa." ++ toString k ∈ start.globals) := by
  have hmoves := hist.moves {} {}
  have hw := hist.sound hparse {}
  have hglobals : p.globals = start.globals := hmoves.tables.1
  have hold : ∀ n ∈ start.live, p.name n ∉ p.globals := by
    intro n hn
    rw [show p.name n = start.name n from (hmoves.kin (Program.lt_size_of_mem_live hn)).name, hglobals]
    exact Program.name_not_mem_globals hparse hn
  refine ⟨fun n hn hlt => hold n ((hmoves.mem_live hlt).mp hn).1, ?_⟩
  constructor
  · rintro ⟨c, hc, hname⟩
    rcases hmoves.mem_live_or_made hc with ⟨hlive, -⟩ | hmade
    · exact absurd hname (hold c hlive)
    · obtain ⟨f, hb⟩ := (hw.mem_made c).mp hmade
      have hf := (hmoves.host_mem_live (Workspace.paired_start (Program.coherent_parse hparse) {}) hb).1
      obtain ⟨hne, hoff⟩ := (hist.exists_bound_iff hparse hf).mp ⟨c, hb⟩
      obtain ⟨k, hk, htitle⟩ := hist.name_clone hparse hb
      rw [htitle, hglobals] at hname
      exact ⟨hne, f, hf, hoff, k, hk, hname⟩
  · rintro ⟨hne, f, hf, hoff, k, hk, hname⟩
    obtain ⟨c, hb⟩ := (hist.exists_bound_iff hparse hf).mpr ⟨hne, hoff⟩
    obtain ⟨i, hi, htitle⟩ := hist.name_clone hparse hb
    rw [hk.unique hi, ← htitle, ← hglobals] at hname
    exact ⟨c, (hw.pair f c hb).twin_live, hname⟩

/-- A global that has the second name for a clone of a function, and a declaration that has the first.  The function
calls a kernel that cannot be offloaded. -/
def clashItems : List (Source.Item String) :=
  [.global "f.hsa.1",
   .function ⟨"f", [], [], {}, some [⟨"entry", [⟨none, .call "k" {}, []⟩, ⟨none, .other "ret", []⟩]⟩]⟩,
   .function ⟨"f.hsa.0", [], [], {}, none⟩,
   .function ⟨"k", ["p"], [.kernel], {}, some [⟨"entry",
      [⟨none, .callIndirect "p" {}, []⟩, ⟨none, .other "ret", []⟩]⟩]⟩]

def clashText : String :=
  "global f.hsa.1\nf() \x7b entry: call @k()\nret \x7d\nf.hsa.0() !\n" ++
  "k(%p) [hsa_kernel] \x7b entry: call_indirect %p()\nret \x7d"

private theorem parse_clashText : Program.parse clashText = .ok (Source.layOut clashItems) := by decide +kernel

/-- The second run clones the function and gives the clone the name of the global. -/
theorem clone_named_as_global_clashText :
    let start := Source.layOut clashItems
    let first := ({ options := { parallel := true } } : Pass).execute start {}
    let second := first.1.1.execute first.1.2.1 {}
    second.1.2.1.name 3 = "f.hsa.1" ∧
    (∀ n ∈ second.1.2.1.live, n < start.functions.size → second.1.2.1.name n ∉ second.1.2.1.globals) ∧
    ((∃ n ∈ second.1.2.1.live, second.1.2.1.name n ∈ second.1.2.1.globals) ↔ [first.2, second.2] ≠ [] ∧
      ∃ f ∈ start.live, start.isOffloadedBut true
        (if [first.2, second.2].length = 1 then [] else start.unfitKernels true) f = true ∧
      ∃ k, start.IsCloneNumber (start.unfitKernels true) f k ∧
        start.name f ++ ".hsa." ++ toString k ∈ start.globals) :=
  ⟨by decide +kernel,
    clone_named_as_global_iff parse_clashText (History.fresh.execute {} |>.execute {})⟩

/-- A function whose clone has the name of a global after one run. -/
theorem clone_named_as_global_first :
    let start := Source.layOut [.global "f.hsa.0",
      .function ⟨"f", [], [.callable], {}, some [⟨"entry", [⟨none, .other "ret", []⟩]⟩]⟩]
    let first := ({} : Pass).execute start {}
    Program.parse "global f.hsa.0\nf() [hsa_function] \x7b entry: ret \x7d" = .ok start ∧
    first.2.clones = [1] ∧ 1 ∈ first.1.2.1.live ∧ first.1.2.1.name 1 = "f.hsa.0" ∧
      "f.hsa.0" ∈ first.1.2.1.globals := by
  decide +kernel

end Pass

end Accelerator
