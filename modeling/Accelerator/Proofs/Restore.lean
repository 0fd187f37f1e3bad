import Accelerator.Proofs.Pairing
import Accelerator.Proofs.RoundTrip

/-!
# Giving decisions on to a fresh pass

A pass writes its decisions about a program to a stream, and a fresh pass reads them back.  The writer writes every
function that takes part, the reader refuses one that is not a definition.  A declaration takes part if and only if a
marker asks for accelerator code of it (`Program.isWanted`): the clone sweep decides about marked declarations too,
although it cannot clone them.  So the decisions come back exactly if no declaration of the program text is marked in
this way, and otherwise the reader fails.
-/

namespace Accelerator

/-- Whether a marker asks for accelerator code of the function at a node, whatever else is known of it. -/
def Program.isWanted (p : Program) (n : Node) : Bool :=
  !p.hasMarker n .placeholder && (p.hasMarker n .kernel || p.hasMarker n .callable)

namespace Workspace

variable {w v : Workspace} {base : Nat} {gone made made' : List Node} {n : Node}

private theorem Kin.isWanted {p q : Program} (h : Kin (p.function n) (q.function n)) : q.isWanted n = p.isWanted n := by
  simp only [Program.isWanted, h.hasMarker (m := .placeholder) (by decide) (by decide),
    h.hasMarker (m := .kernel) (by decide) (by decide), h.hasMarker (m := .callable) (by decide) (by decide)]

/-! ### Functions that take part go on doing so -/

private theorem Move.isParticipant_mono (hm : Move w gone made v) (hg : n ∉ gone)
    (hp : (w.summaries.of n).isParticipant = true) : (v.summaries.of n).isParticipant = true := by
  have hdecided := hm.decided n
  generalize v.summaries.of n = s at hdecided ⊢
  cases hdecided with
  | same | released => exact hp
  | removed hn => exact absurd hn hg
  | kernel | function => rfl
  | host _ _ hkind => simpa [Summary.isParticipant] using hkind
  | twin _ hkind => simpa [Summary.isParticipant] using hkind

private theorem Moves.isParticipant_mono (hm : Moves w gone made v) (hg : n ∉ gone)
    (hp : (w.summaries.of n).isParticipant = true) : (v.summaries.of n).isParticipant = true := by
  induction hm with
  | refl => exact hp
  | step _ hmove ih =>
    rw [List.mem_append, not_or] at hg
    exact hmove.isParticipant_mono hg.2 (ih hg.1)

/-- Only definitions are removed. -/
private theorem Moves.not_mem_gone (hm : Moves w gone made v) (hn : n ∈ w.program.live)
    (hd : (w.program.function n).flags.definition = false) : n ∉ gone := by
  induction hm with
  | refl => exact List.not_mem_nil
  | step h hmove ih =>
    rw [List.mem_append, not_or]
    refine ⟨ih, fun hk => ?_⟩
    cases hmove with
    | discard hdef =>
      rw [List.mem_singleton] at hk
      rw [← hk, Program.mem_definitions, (h.kin (Program.lt_size_of_mem_live hn)).flags, hd] at hdef
      exact Bool.false_ne_true hdef.2
    | _ => cases hk

/-! ### Declarations that take part -/

/-- What a function that takes part was chosen for: it did so before, a marker asks for it, or it can be cloned. -/
private theorem Move.isParticipant (hm : Move w gone made v) (hn : n ∈ w.program.live)
    (hp : (v.summaries.of n).isParticipant = true) :
    (w.summaries.of n).isParticipant = true ∨ w.program.isWanted n = true ∨
      (w.program.function n).flags.versionable = true := by
  have hdecided := hm.decided n
  generalize v.summaries.of n = s at hdecided hp
  cases hdecided with
  | same | released => exact .inl hp
  | removed => cases hp
  | kernel _ hph hk => exact .inr (.inl (by simp [Program.isWanted, hph, hk]))
  | function _ hph hc => exact .inr (.inl (by simp [Program.isWanted, hph, hc]))
  | host _ hv => exact .inr (.inr hv)
  | twin hnew => exact absurd hnew (Nat.ne_of_lt (Program.lt_size_of_mem_live hn))

/-- A declaration takes part only if a marker asks for it.  Clones, the functions from `base` on, are definitions, and
only definitions can be cloned. -/
structure Declares (base : Nat) (w : Workspace) : Prop where
  versionable : ∀ n ∈ w.program.live, (w.program.function n).flags.versionable = true →
    (w.program.function n).flags.definition = true
  clones : ∀ n ∈ w.program.live, base ≤ n → (w.program.function n).flags.definition = true
  wanted : ∀ n ∈ w.program.live, (w.program.function n).flags.definition = false →
    (w.summaries.of n).isParticipant = true → w.program.isWanted n = true

private theorem Move.declares (hm : Move w gone made v) (hw : Declares base w) : Declares base v := by
  -- a new clone has the flags of a function that can be cloned
  have hmade : ∀ n ∈ made, (v.program.function n).flags.definition = true := by
    intro n hn
    cases hm with
    | @twin m kind isPublic hl _ _ _ hv =>
      have hdef := hw.versionable m hl hv
      rw [List.mem_singleton.mp hn, withTwin, Program.function_withTwin_new]
      exact hdef
    | _ => cases hn
  have hold : ∀ {n}, n ∈ w.program.live → (v.program.function n).flags = (w.program.function n).flags := fun hn =>
    (hm.kin (Program.lt_size_of_mem_live hn)).flags
  constructor
  · intro n hn hv
    rcases hm.mem_live.mp hn with ⟨hl, -⟩ | hn
    · rw [hold hl] at hv ⊢
      exact hw.versionable n hl hv
    · exact hmade n hn
  · intro n hn hb
    rcases hm.mem_live.mp hn with ⟨hl, -⟩ | hn
    · rw [hold hl]
      exact hw.clones n hl hb
    · exact hmade n hn
  · intro n hn hd hp
    rcases hm.mem_live.mp hn with ⟨hl, -⟩ | hn
    · rw [hold hl] at hd
      rw [(hm.kin (Program.lt_size_of_mem_live hl)).isWanted]
      rcases hm.isParticipant hl hp with hp | hwant | hv
      · exact hw.wanted n hl hd hp
      · exact hwant
      · rw [hw.versionable n hl hv] at hd
        cases hd
    · rw [hmade n hn] at hd
      cases hd

theorem Moves.declares (hm : Moves w gone made v) (hw : Declares base w) : Declares base v := by
  induction hm with
  | refl => exact hw
  | step _ hmove ih => exact hmove.declares ih

/-! ### The sweep decides about every function that is wanted -/

private theorem Paired.isParticipant_of_resolved (hw : Paired base made w) (hr : (w.summaries.of n).isResolved = true) :
    (w.summaries.of n).isParticipant = true := by
  cases hb : (w.summaries.of n).bound with
  | none =>
    simp only [Summary.isResolved, hb, Option.isSome_none, Bool.false_or, Bool.and_eq_true] at hr
    exact hr.1
  | some c => simpa [Summary.isParticipant] using (hw.pair n c hb).kind_ne

private theorem isParticipant_addTwin (options : Options) {kind : Kind} (hkind : kind ≠ .none) (isPublic : Bool)
    (hp : (w.summaries.of n).isParticipant = true) :
    ((w.addTwin options n kind isPublic).1.summaries.of n).isParticipant = true := by
  cases hv : (w.program.function n).flags.versionable with
  | true =>
    rw [addTwin_eq options kind isPublic hv, Summaries.of_link, if_pos rfl]
    simpa [Summary.isParticipant] using hkind
  | false =>
    obtain ⟨j, hj⟩ := addTwin_eq_none options kind isPublic hv
    rw [hj]
    exact hp

private theorem Paired.isParticipant_treat (hw : Paired base made w) (options : Options)
    (hwant : w.program.isWanted n = true) : ((w.treat options n).1.summaries.of n).isParticipant = true := by
  simp only [Program.isWanted, Bool.and_eq_true, Bool.not_eq_true', Bool.or_eq_true] at hwant
  obtain ⟨hph, hmark⟩ := hwant
  cases hr : (w.summaries.of n).isResolved with
  | true =>
    have ht : w.program.treatment n ((w.summaries.touch n).of n) = .resolved := by
      rw [Program.treatment, Summaries.of_touch, if_pos hr]
    simp only [treat, ht]
    rw [Summaries.of_touch]
    exact hw.isParticipant_of_resolved hr
  | false =>
    cases hk : w.program.hasMarker n .kernel with
    | true =>
      have ht : w.program.treatment n ((w.summaries.touch n).of n) = .kernel := by
        simp [Program.treatment, hr, hph, hk]
      simp only [treat, ht]
      rw [Summaries.of_markAccelerator, if_pos rfl]
      rfl
    | false =>
      have hc : w.program.hasMarker n .callable = true := by simpa [hk] using hmark
      have ht : w.program.treatment n ((w.summaries.touch n).of n) = .function true := by
        simp [Program.treatment, hr, hph, hk, hc]
      simp only [treat, ht]
      refine isParticipant_addTwin options (by simp) _ ?_
      rw [Summaries.of_update, if_pos rfl]
      rfl

private theorem Paired.isParticipant_cloneSweep (hw : Paired base made w) (options : Options) {hostOnly : List Node}
    (hn : n ∈ w.program.live) (hh : n ∉ hostOnly) (hwant : w.program.isWanted n = true) :
    ((w.cloneSweep options hostOnly).1.summaries.of n).isParticipant = true := by
  -- the functions that come before, the function itself, and those that come after
  obtain ⟨before, after, hsplit⟩ := List.append_of_mem hn
  have hbefore : ∀ m ∈ before, m ∈ w.program.live := fun m hm => by simp [hsplit, hm]
  have hafter : ∀ m ∈ after, m ∈ w.program.live := fun m hm => by simp [hsplit, hm]
  obtain ⟨new₁, -, hmoves₁⟩ := moves_sweepNodes options hostOnly hbefore []
  rw [cloneSweep_eq, hsplit, List.foldl_append, List.foldl_cons]
  generalize before.foldl (sweepNode options hostOnly) (w, []) = state at hmoves₁ ⊢
  have hlive := fun m hm => hmoves₁.live (m := m) hm List.not_mem_nil
  have htreat := (hmoves₁.paired hw).isParticipant_treat options (n := n)
    (by rw [(hmoves₁.kin (Program.lt_size_of_mem_live hn)).isWanted, hwant])
  have hmoves₂ := moves_treat options (hlive n hn)
  rw [sweepNode, if_neg (by simpa using hh)]
  obtain ⟨new₃, -, hmoves₃⟩ := moves_sweepNodes options hostOnly
    (fun m hm => hmoves₂.live (hlive m (hafter m hm)) List.not_mem_nil) (state.2 ++ (state.1.treat options n).2.toList)
  exact hmoves₃.isParticipant_mono List.not_mem_nil htreat

/-- After a run a declaration that is wanted takes part. -/
private theorem Paired.isParticipant_run (hw : Paired base made w) (options : Options) (hn : n ∈ w.program.live)
    (hd : (w.program.function n).flags.definition = false) (hwant : w.program.isWanted n = true) :
    ((w.run options).1.summaries.of n).isParticipant = true := by
  have hnot : n ∉ w.program.definitions := by
    rw [Program.mem_definitions, hd]
    simp
  unfold run
  dsimp only
  split
  · obtain ⟨hmoves, hremoved, hrejected⟩ := moves_survey options.verbose w
    have hg : n ∉ (w.survey options.verbose).2.removed := fun hk => hnot (hremoved n hk)
    have hh : n ∉ (w.survey options.verbose).2.rejected := fun hk => hnot (hrejected n hk)
    refine (moves_retarget _).isParticipant_mono List.not_mem_nil ?_
    refine (hmoves.paired hw).isParticipant_cloneSweep options (hmoves.live hn hg) hh ?_
    rw [(hmoves.kin (Program.lt_size_of_mem_live hn)).isWanted, hwant]
  · refine (moves_retarget _).isParticipant_mono List.not_mem_nil ?_
    exact hw.isParticipant_cloneSweep options hn List.not_mem_nil hwant

end Workspace

theorem Summaries.render_congr {p : Program} {s t : Summaries} (h : ∀ n ∈ p.live, t.of n = s.of n ∨
    ((t.of n).isParticipant = false ∧ (s.of n).isParticipant = false)) : t.render p = s.render p := by
  have hpart : ∀ n ∈ p.live, (t.of n).isParticipant = (s.of n).isParticipant := by
    intro n hn
    rcases h n hn with he | ⟨h₁, h₂⟩
    · rw [he]
    · rw [h₁, h₂]
  rw [Summaries.render, Summaries.render, List.filter_congr hpart]
  congr 1
  apply List.map_congr_left
  intro n hn
  obtain ⟨hl, hp⟩ := List.mem_filter.mp hn
  rcases h n hl with he | ⟨-, h₂⟩
  · rw [he]
  · rw [h₂] at hp
    cases hp

theorem Source.declares_layOut (items : List (Source.Item String)) (j : Journal) :
    Workspace.Declares (Source.layOut items).functions.size ⟨Source.layOut items, ∅, j⟩ := by
  constructor
  · intro n hn hv
    have hlt := (Source.live_layOut items).mp hn
    dsimp only at hv ⊢
    rw [Source.function_layOut items hlt] at hv ⊢
    simp only [Source.Function.flags, Bool.and_eq_true] at hv ⊢
    exact hv.1
  · intro n hn hb
    exact absurd (Program.lt_size_of_mem_live hn) (Nat.not_lt.mpr hb)
  · intro n _ _ hp
    rw [Summaries.of_empty] at hp
    cases hp

namespace Pass

variable {text : String} {options : Options} {start p : Program} {reports : List Report} {pass : Pass}

/-- The declarations that take part after runs of a fresh pass are those of the text that are wanted. -/
private theorem History.exists_declaration_iff (hparse : Program.parse text = .ok start)
    (hist : History options start reports pass p) (hne : reports ≠ []) :
    (∃ n ∈ p.live, (pass.summariesOrEmpty.of n).isParticipant = true ∧ (p.function n).flags.definition = false) ↔
      ∃ n ∈ start.live, (start.function n).flags.definition = false ∧ start.isWanted n = true := by
  obtain ⟨items, hitems, rfl⟩ := Program.parse_eq_ok hparse
  have hmoves := hist.moves {} {}
  constructor
  · rintro ⟨n, hn, hp, hd⟩
    have hdeclares := hmoves.declares (Source.declares_layOut items {})
    have hlt : n < (Source.layOut items).functions.size := by
      by_contra hge
      have hdef : (p.function n).flags.definition = true := hdeclares.clones n hn (Nat.le_of_not_lt hge)
      rw [hdef] at hd
      cases hd
    have hkin := hmoves.kin hlt
    refine ⟨n, (Source.live_layOut items).mpr (Source.size_layOut items ▸ hlt), ?_, ?_⟩
    · rw [← hd]
      exact congrArg (·.definition) hkin.flags.symm
    · rw [← hkin.isWanted]
      exact hdeclares.wanted n hn hd hp
  · rintro ⟨n, hn, hd, hwant⟩
    -- runs keep declarations and their markers, and the last run decides about this one at the latest
    have hlt := Program.lt_size_of_mem_live hn
    refine ⟨n, hmoves.live hn (hmoves.not_mem_gone hn hd), ?_, ?_⟩
    · cases hist with
      | fresh => exact absurd rfl hne
      | @execute _ pass p hist k =>
        have hbefore := hist.moves {} k
        have hkin := hbefore.kin hlt
        exact (hist.paired hitems.coherent_layOut k).isParticipant_run pass.options
          (hbefore.live hn (hbefore.not_mem_gone hn hd)) (by rw [hkin.flags]; exact hd)
          (by rw [hkin.isWanted]; exact hwant)
    · rw [← hd]
      exact congrArg (·.definition) (hmoves.kin hlt).flags

/-! ### Reading what was written -/

theorem readStream_fresh (options : Options) (p : Program) (roster : Roster) (bytes : List UInt8) :
    ({ options } : Pass).readStream p roster bytes =
      (({ options, summaries := some (Stream.read roster (p, ∅) bytes).1.2 },
        (Stream.read roster (p, ∅) bytes).1.1), (Stream.read roster (p, ∅) bytes).2.mapError .stream) := by
  rcases hread : Stream.read roster (p, ∅) bytes with ⟨⟨q, t⟩, result⟩
  cases result with
  | ok count => simp [readStream, readStreams, readAll, summariesOrEmpty, hread, Except.mapError]
  | error fault => simp [readStream, readStreams, readAll, summariesOrEmpty, hread, Except.mapError]

private theorem History.summaries_eq (hist : History options start reports pass p) (hne : reports ≠ []) :
    pass.summaries = some pass.summariesOrEmpty := by
  cases hist with
  | fresh => exact absurd rfl hne
  | execute => rfl

theorem nodes_ofProgram (p : Program) : (Roster.ofProgram p).nodes = p.live := Roster.nodes_ofNodes p.nodup_live

section

variable {s : Summaries}

/-- If the functions that take part are definitions, a fresh pass gets the decisions back. -/
private theorem restored_of_definitions (hp : p.Coherent) (hs : pass.summaries = some s)
    (hdef : ∀ n ∈ p.live, (s.of n).isParticipant = true → (p.function n).flags.definition = true)
    (hlive : ∀ n b, (s.of n).bound = some b → b ∈ p.live)
    (hsize : Stream.Addressable (Roster.ofProgram p) (Stream.write p s (Roster.ofProgram p))) (other : Options) :
    ∃ q : Pass,
      ({ options := other } : Pass).readStream p (Roster.ofProgram p) (Stream.write p s (Roster.ofProgram p)) =
        ((q, p), .ok (p.live.countP fun n => (s.of n).isParticipant)) ∧
      (∀ n ∈ p.live, (s.of n).isParticipant = true → q.summariesOrEmpty.of n = s.of n) ∧
      q.dump p = pass.dump p := by
  rw [← nodes_ofProgram p] at hdef
  have hread := Stream.read_write hp hdef (fun n _ _ => hlive n) hsize
  rw [nodes_ofProgram p] at hread
  have hof : ∀ n ∈ p.live, (Stream.entered s p.live ∅).of n = if (s.of n).isParticipant then s.of n else {} := by
    intro n hn
    rw [Stream.of_entered, Summaries.of_empty]
    simp [hn]
  rw [readStream_fresh, hread]
  refine ⟨_, rfl, ?_, ?_⟩
  · intro n hn hpart
    have hn' := hof n hn
    rw [if_pos hpart] at hn'
    exact hn'
  · rw [dump, dump, hs]
    refine Summaries.render_congr fun n hn => ?_
    dsimp only
    rw [hof n hn]
    cases hpart : (s.of n).isParticipant with
    | true => exact .inl rfl
    | false => exact .inr ⟨rfl, rfl⟩

/-- If a declaration takes part, the reader fails. -/
private theorem not_restored_of_declaration (hp : p.Coherent)
    (hlive : ∀ n b, (s.of n).bound = some b → b ∈ p.live)
    (hsize : Stream.Addressable (Roster.ofProgram p) (Stream.write p s (Roster.ofProgram p)))
    (hdecl : ∃ n ∈ p.live, (s.of n).isParticipant = true ∧ (p.function n).flags.definition = false)
    (other : Options) :
    ∃ error, (({ options := other } : Pass).readStream p (Roster.ofProgram p)
      (Stream.write p s (Roster.ofProgram p))).2 = .error error ∧ error.isFatal = true := by
  rw [← nodes_ofProgram p] at hdecl
  obtain ⟨state, fault, hfail, hfatal⟩ := Stream.read_write_declaration hp (fun n _ _ => hlive n) hsize hdecl
  rw [readStream_fresh, hfail]
  exact ⟨.stream fault, rfl, hfatal⟩

end

/-- A pass that was run on a parsed program writes a stream.  A fresh pass that reads it gives the number of functions
that take part, leaves the program alone and has the same decisions about these functions, if and only if no
declaration of the text is marked as a kernel or as a function for the accelerator without being a placeholder. -/
theorem restored_iff (hparse : Program.parse text = .ok start) (hist : History options start reports pass p)
    (hne : reports ≠ []) (hsize : Stream.Addressable (Roster.ofProgram p)
      (Stream.write p pass.summariesOrEmpty (Roster.ofProgram p))) (other : Options) :
    ∃ bytes, pass.stream? p (Roster.ofProgram p) = some bytes ∧
      ((∃ q : Pass,
          ({ options := other } : Pass).readStream p (Roster.ofProgram p) bytes =
            ((q, p), .ok (p.live.countP fun n => (pass.summariesOrEmpty.of n).isParticipant)) ∧
          (∀ n ∈ p.live, (pass.summariesOrEmpty.of n).isParticipant = true →
            q.summariesOrEmpty.of n = pass.summariesOrEmpty.of n) ∧
          q.dump p = pass.dump p) ↔
        ∀ n ∈ start.live, (start.function n).flags.definition = false → start.isWanted n = false) := by
  have hs := hist.summaries_eq hne
  have hw := hist.paired (Program.coherent_parse hparse) {}
  have hp : p.Coherent := hw.coherent
  have hlive : ∀ n b, (pass.summariesOrEmpty.of n).bound = some b → b ∈ p.live := fun n b hb =>
    (hw.pair n b hb).twin_live
  have hdeclared := hist.exists_declaration_iff hparse hne
  refine ⟨Stream.write p pass.summariesOrEmpty (Roster.ofProgram p), by rw [stream?, hs]; rfl, ?_, ?_⟩
  · rintro ⟨q, hread, -, -⟩ n hn hd
    by_contra hwant
    have hdecl := hdeclared.mpr ⟨n, hn, hd, by simpa using hwant⟩
    obtain ⟨error, hfail, -⟩ := not_restored_of_declaration hp hlive hsize hdecl other
    rw [hread] at hfail
    cases hfail
  · intro hnone
    refine restored_of_definitions hp hs (fun n hn hpart => ?_) hlive hsize other
    by_contra hd
    obtain ⟨m, hm, hdm, hwant⟩ := hdeclared.mp ⟨n, hn, hpart, by simpa using hd⟩
    rw [hnone m hm hdm] at hwant
    cases hwant

/-- The declarations of this text are a placeholder and a function without a marker, so the decisions come back. -/
theorem restored_kernelText :
    (∀ n ∈ (Source.layOut kernelItems).live, ((Source.layOut kernelItems).function n).flags.definition = false →
      (Source.layOut kernelItems).isWanted n = false) ∧
    ∃ bytes, kernelRerun.1.1.stream? kernelRerun.1.2.1 (Roster.ofProgram kernelRerun.1.2.1) = some bytes ∧
      ((∃ q : Pass,
          ({ options := {} } : Pass).readStream kernelRerun.1.2.1 (Roster.ofProgram kernelRerun.1.2.1) bytes =
            ((q, kernelRerun.1.2.1), .ok (kernelRerun.1.2.1.live.countP fun n =>
              (kernelRerun.1.1.summariesOrEmpty.of n).isParticipant)) ∧
          (∀ n ∈ kernelRerun.1.2.1.live, (kernelRerun.1.1.summariesOrEmpty.of n).isParticipant = true →
            q.summariesOrEmpty.of n = kernelRerun.1.1.summariesOrEmpty.of n) ∧
          q.dump kernelRerun.1.2.1 = kernelRerun.1.1.dump kernelRerun.1.2.1) ↔
        ∀ n ∈ (Source.layOut kernelItems).live, ((Source.layOut kernelItems).function n).flags.definition = false →
          (Source.layOut kernelItems).isWanted n = false) :=
  ⟨by decide +kernel, restored_iff parse_kernelText history_kernelRerun (by simp)
    ⟨by decide +kernel, by decide +kernel⟩ {}⟩

/-! ### A declaration that is marked as a kernel -/

def declarationItems : List (Source.Item String) := [.function ⟨"k", [], [.kernel], {}, none⟩]

def declarationText : String := "k() [hsa_kernel] !"

/-- A run of a fresh pass on the declaration. -/
def declarationRun : (Pass × Program × Journal) × Report := ({} : Pass).execute (Source.layOut declarationItems) {}

/-- The run enters the declaration as a kernel and writes it, and a fresh pass refuses the stream. -/
theorem not_restored_declarationText :
    Program.parse declarationText = .ok (Source.layOut declarationItems) ∧
    declarationRun.1.1.stream? declarationRun.1.2.1 (Roster.ofProgram declarationRun.1.2.1) = some [1, 0, 5, 0] ∧
    (({} : Pass).readStream declarationRun.1.2.1 (Roster.ofProgram declarationRun.1.2.1) [1, 0, 5, 0]).2 =
      .error (.stream ⟨2, .notDefinition 0 "k"⟩) :=
  ⟨by decide +kernel, by decide +kernel, by decide +kernel⟩

end Pass

end Accelerator
