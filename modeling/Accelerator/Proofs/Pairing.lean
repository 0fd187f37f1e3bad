import Accelerator.Proofs.Moves
import Accelerator.Proofs.Reachable

/-!
# Host functions and their accelerator sides

After any number of runs of a fresh pass on a parsed program the bindings pair host functions with their accelerator
sides: a host function is bound to one clone that was made of it, and a clone has one host function.  The invariant
`Paired` also keeps the program coherent; every move keeps it (`Move.paired`).
-/

namespace Accelerator

/-- The host function `h` and the accelerator side `c` that it is bound to. -/
structure IsPair (p : Program) (s : Summaries) (h c : Node) : Prop where
  host_live : h ∈ p.live
  twin_live : c ∈ p.live
  kind : (s.of c).kind = (s.of h).kind
  kind_ne : (s.of h).kind ≠ .none
  host : (s.of h).accelerator = false
  twin : (s.of c).accelerator = true
  unbound : (s.of c).bound = none
  name : ∃ k : Nat, p.name c = p.name h ++ ".hsa." ++ toString k
  args : (p.function c).args = (p.function h).args
  body : (p.function c).body = (p.function h).body
  indirectCalls : (p.function c).indirectCalls = (p.function h).indirectCalls
  traits : { (p.function c).traits with isPublic := false } = { (p.function h).traits with isPublic := false }
  visible : (p.function c).flags.externallyVisible = (p.function h).flags.externallyVisible
  isLocal : (p.function c).flags.isLocal = !(p.function h).flags.externallyVisible
  forceOutput : (p.function c).flags.forceOutput = !(p.function h).flags.isLocal

theorem Summary.isResolved_of_bound {s : Summary} {c : Node} (hb : s.bound = some c) : s.isResolved = true := by
  simp [Summary.isResolved, hb]

theorem Summary.bound_of_unresolved {s : Summary} (hr : s.isResolved = false) : s.bound = none := by
  cases hb : s.bound with
  | none => rfl
  | some c =>
    rw [isResolved_of_bound hb] at hr
    cases hr

theorem IsPair.twin_resolved {p : Program} {s : Summaries} {h c : Node} (hp : IsPair p s h c) :
    (s.of c).isResolved = true := by
  have hk := hp.kind_ne
  rw [← hp.kind] at hk
  simp [Summary.isResolved, Summary.isParticipant, hp.twin, hk]

/-! ### A pair is kept -/

/-- A pair stays one as long as the summaries of its functions stay. -/
private theorem IsPair.move {w v : Workspace} {gone made : List Node} {h c : Node}
    (hp : IsPair w.program w.summaries h c)
    (hm : w.Move gone made v) (hh : w.program.hasMarker h .kernel = false) (hc : w.program.hasMarker c .kernel = false)
    (hsh : v.summaries.of h = w.summaries.of h) (hsc : v.summaries.of c = w.summaries.of c) :
    IsPair v.program v.summaries h c := by
  have kh := hm.kin (Program.lt_size_of_mem_live hp.host_live)
  have kc := hm.kin (Program.lt_size_of_mem_live hp.twin_live)
  constructor
  · exact hm.mem_live.mpr (.inl ⟨hp.host_live, hm.not_mem_gone hh⟩)
  · exact hm.mem_live.mpr (.inl ⟨hp.twin_live, hm.not_mem_gone hc⟩)
  · rw [hsh, hsc, hp.kind]
  · rw [hsh]; exact hp.kind_ne
  · rw [hsh, hp.host]
  · rw [hsc, hp.twin]
  · rw [hsc, hp.unbound]
  · rw [Program.name, Program.name, kc.name, kh.name]; exact hp.name
  · rw [kc.args, kh.args, hp.args]
  · rw [kc.body, kh.body, hp.body]
  · rw [kc.indirectCalls, kh.indirectCalls, hp.indirectCalls]
  · rw [kc.traits, kh.traits, hp.traits]
  · rw [kc.flags, kh.flags, hp.visible]
  · rw [kc.flags, kh.flags, hp.isLocal]
  · rw [kc.flags, kh.flags, hp.forceOutput]

theorem Program.Coherent.withTwin {p : Program} {n : Node} (hp : p.Coherent) (hn : n ∈ p.live) (isPublic : Bool) :
    (p.withTwin n isPublic).Coherent := by
  have hpublic := (hp.clone hn cloneSuffix).modifyFunction (Program.mild_setPublic isPublic) p.functions.size
  have hq := hpublic.modifyFunction
    (Program.mild_setExternallyVisible (p.function n).flags.externallyVisible) p.functions.size
  unfold Program.withTwin
  split
  · exact hq
  · exact hq.modifyFunction (Program.mild_setForceOutput true) p.functions.size

namespace Workspace

/-- The bindings of a workspace pair functions with the clones `made`, all of them outside the first `base` nodes.  No
function of a pair is marked as a kernel, so no survey removes one. -/
structure Paired (base : Nat) (made : List Node) (w : Workspace) : Prop where
  coherent : w.program.Coherent
  base_le : base ≤ w.program.functions.size
  dead : ∀ n, n ∉ w.program.live → w.summaries.of n = {}
  pair : ∀ h c, (w.summaries.of h).bound = some c → IsPair w.program w.summaries h c
  kernel : ∀ h c, (w.summaries.of h).bound = some c →
    w.program.hasMarker h .kernel = false ∧ w.program.hasMarker c .kernel = false
  inj : ∀ h h' c, (w.summaries.of h).bound = some c → (w.summaries.of h').bound = some c → h = h'
  mem_made : ∀ c, c ∈ made ↔ ∃ h, (w.summaries.of h).bound = some c
  fresh : ∀ c ∈ made, base ≤ c

variable {w v : Workspace} {base : Nat} {gone made : List Node} {h c n : Node}

theorem paired_start {p : Program} (hp : p.Coherent) (j : Journal) : Paired p.functions.size [] ⟨p, ∅, j⟩ where
  coherent := hp
  base_le := Nat.le_refl _
  dead n _ := Summaries.of_empty n
  pair h c hb := by rw [Summaries.of_empty] at hb; cases hb
  kernel h c hb := by rw [Summaries.of_empty] at hb; cases hb
  inj h h' c hb := by rw [Summaries.of_empty] at hb; cases hb
  mem_made c := by simp [Summaries.of_empty]
  fresh c hc := absurd hc List.not_mem_nil

/-! ### Moves that bind nothing -/

/-- A move that makes no clone keeps the pairs if it keeps the summaries of resolved functions and binds no
function. -/
private theorem Paired.of_kept (hw : Paired base made w) (hm : Move w gone [] v) (hco : v.program.Coherent)
    (hdead : ∀ n, n ∉ v.program.live → v.summaries.of n = {})
    (hkept : ∀ n, (w.summaries.of n).isResolved = true → n ∉ gone → v.summaries.of n = w.summaries.of n)
    (hnone : ∀ n, (w.summaries.of n).bound = none → (v.summaries.of n).bound = none) : Paired base made v := by
  -- the bindings are the old ones, and the functions of a pair keep their summaries
  have hsame : ∀ h c, (w.summaries.of h).bound = some c →
      v.summaries.of h = w.summaries.of h ∧ v.summaries.of c = w.summaries.of c := by
    intro h c hb
    obtain ⟨hkh, hkc⟩ := hw.kernel h c hb
    exact ⟨hkept h (Summary.isResolved_of_bound hb) (hm.not_mem_gone hkh),
      hkept c (hw.pair h c hb).twin_resolved (hm.not_mem_gone hkc)⟩
  have hbound : ∀ h c, (v.summaries.of h).bound = some c ↔ (w.summaries.of h).bound = some c := by
    intro h c
    cases hb : (w.summaries.of h).bound with
    | none => rw [hnone h hb]
    | some d => rw [(hsame h d hb).1, hb]
  have hsize : v.program.functions.size = w.program.functions.size := hm.size
  refine { hw with coherent := hco, base_le := ?_, dead := hdead, pair := ?_, kernel := ?_, inj := ?_, mem_made := ?_ }
  · rw [hsize]
    exact hw.base_le
  · intro h c hb
    rw [hbound] at hb
    obtain ⟨hkh, hkc⟩ := hw.kernel h c hb
    exact (hw.pair h c hb).move hm hkh hkc (hsame h c hb).1 (hsame h c hb).2
  · intro h c hb
    rw [hbound] at hb
    have hp := hw.pair h c hb
    rw [hm.hasMarker_kernel (Program.lt_size_of_mem_live hp.host_live),
      hm.hasMarker_kernel (Program.lt_size_of_mem_live hp.twin_live)]
    exact hw.kernel h c hb
  · intro h h' c hb hb'
    rw [hbound] at hb hb'
    exact hw.inj h h' c hb hb'
  · intro c
    simp only [hbound]
    exact hw.mem_made c

/-- A change of the summary of a live function that was unresolved and stays unbound. -/
private theorem Paired.of_update (hw : Paired base made w) {s : Summaries} (hm : Move w [] [] { w with summaries := s })
    (hn : n ∈ w.program.live) (hr : (w.summaries.of n).isResolved = false) (hb : (s.of n).bound = none)
    (hs : ∀ m, m ≠ n → s.of m = w.summaries.of m) : Paired base made { w with summaries := s } := by
  refine hw.of_kept hm hw.coherent ?_ ?_ ?_
  · intro m hm
    rw [← hw.dead m hm]
    exact hs m fun he => hm (he ▸ hn)
  · intro m hres _
    refine hs m fun he => ?_
    rw [he, hr] at hres
    cases hres
  · intro m hnone
    by_cases he : m = n
    · rw [he]
      exact hb
    · show (s.of m).bound = none
      rw [hs m he, hnone]

/-- A move that changes no summary and removes nothing. -/
private theorem Paired.of_same (hw : Paired base made w) (hm : Move w [] [] v) (hco : v.program.Coherent)
    (hs : ∀ n, v.summaries.of n = w.summaries.of n) : Paired base made v := by
  refine hw.of_kept hm hco ?_ (fun n _ _ => hs n) (fun n hnone => by rw [hs n, hnone])
  intro n hn
  rw [hs n]
  exact hw.dead n fun hl => hn (hm.mem_live.mpr (.inl ⟨hl, List.not_mem_nil⟩))

private theorem Paired.discard (hw : Paired base made w) (hn : n ∈ w.program.definitions)
    (hk : w.program.hasMarker n .kernel = true) :
    Paired base made { w with program := w.program.remove n, summaries := w.summaries.forget n } := by
  have hl := (Program.mem_definitions.mp hn).1
  have hlt := Program.lt_size_of_mem_live hl
  -- nothing is bound to a kernel
  have hof : ∀ m, m ≠ n → (w.summaries.forget n).of m = w.summaries.of m := by
    intro m hm
    rw [Summaries.of_forget, if_neg hm]
    have hne : (w.summaries.of m).bound ≠ some n := fun hb => by
      rw [(hw.kernel m n hb).2] at hk
      cases hk
    rw [if_neg hne]
  have hself : (w.summaries.forget n).of n = {} := by rw [Summaries.of_forget, if_pos rfl]
  refine hw.of_kept (Move.discard w hn hk) (hw.coherent.remove hl) ?_ ?_ ?_
  · intro m hm
    by_cases he : m = n
    · rw [he]
      exact hself
    · show (w.summaries.forget n).of m = {}
      rw [hof m he]
      exact hw.dead m fun hml => hm ((Program.mem_live_remove hlt).mpr ⟨he, hml⟩)
  · intro m _ hg
    exact hof m fun he => hg (he ▸ List.mem_singleton_self m)
  · intro m hnone
    by_cases he : m = n
    · rw [he]
      show ((w.summaries.forget n).of n).bound = none
      rw [hself]
    · show ((w.summaries.forget n).of m).bound = none
      rw [hof m he, hnone]

/-! ### A new pair -/

theorem of_withTwin_host (w : Workspace) (n : Node) (kind : Kind) (isPublic : Bool) :
    (w.withTwin n kind isPublic).summaries.of n = ⟨kind, false, some w.program.functions.size⟩ := by
  rw [withTwin, Summaries.of_link, if_pos rfl]

private theorem of_withTwin_new (kind : Kind) (isPublic : Bool) (hn : n < w.program.functions.size) :
    (w.withTwin n kind isPublic).summaries.of w.program.functions.size = ⟨kind, true, none⟩ := by
  rw [withTwin, Summaries.of_link, if_neg (Nat.ne_of_gt hn), if_pos rfl]

theorem of_withTwin_other {m : Node} (kind : Kind) (isPublic : Bool) (h₁ : m ≠ n)
    (h₂ : m ≠ w.program.functions.size) :
    (w.withTwin n kind isPublic).summaries.of m = w.summaries.of m := by
  rw [withTwin, Summaries.of_link, if_neg h₁, if_neg h₂]

/-- A function and the accelerator side that it gets. -/
private theorem isPair_withTwin {kind : Kind} (isPublic : Bool) (hn : n ∈ w.program.live) (hkind : kind ≠ .none) :
    IsPair (w.withTwin n kind isPublic).program (w.withTwin n kind isPublic).summaries n w.program.functions.size := by
  have hlt := Program.lt_size_of_mem_live hn
  have hfn : (w.withTwin n kind isPublic).program.function n = w.program.function n :=
    Program.function_withTwin_old n isPublic hlt
  have hfc : (w.withTwin n kind isPublic).program.function w.program.functions.size =
      w.program.twinFunction n isPublic := Program.function_withTwin_new w.program n isPublic
  have hsn := of_withTwin_host w n kind isPublic
  have hsc := of_withTwin_new kind isPublic hlt
  constructor
  · exact (Program.mem_live_withTwin _ _ _).mpr (.inr hn)
  · exact (Program.mem_live_withTwin _ _ _).mpr (.inl rfl)
  · rw [hsn, hsc]
  · rw [hsn]; exact hkind
  · rw [hsn]
  · rw [hsc]
  · rw [hsc]
  · refine ⟨w.program.cloneNumber (w.program.name n) cloneSuffix, ?_⟩
    rw [Program.name, Program.name, hfn, hfc]
    simp [Program.twinFunction, Program.copyOf, Program.cloneTitle, Program.name, cloneSuffix, String.append_assoc]
  all_goals rw [hfn, hfc]; rfl

/-- Binding an unresolved function adds one binding to those that there are. -/
private theorem Paired.bound_withTwin (hw : Paired base made w) (kind : Kind) (isPublic : Bool)
    (hr : (w.summaries.of n).isResolved = false) (h c : Node) :
    ((w.withTwin n kind isPublic).summaries.of h).bound = some c ↔
      (h = n ∧ c = w.program.functions.size) ∨ (w.summaries.of h).bound = some c := by
  by_cases hhn : h = n
  · subst hhn
    rw [of_withTwin_host, Summary.bound_of_unresolved hr]
    simp [eq_comm]
  · by_cases hhc : h = w.program.functions.size
    · have hdead : w.summaries.of h = {} := hw.dead h fun hl =>
        Nat.ne_of_lt (Program.lt_size_of_mem_live hl) hhc
      rw [hdead, withTwin, Summaries.of_link, if_neg hhn, if_pos hhc]
      simp [hhn]
    · rw [of_withTwin_other kind isPublic hhn hhc]
      simp [hhn]

/-- The functions of an old pair are neither the function that is bound, which was unresolved, nor the new clone. -/
private theorem Paired.of_withTwin (hw : Paired base made w) (kind : Kind) (isPublic : Bool)
    (hr : (w.summaries.of n).isResolved = false) (hb : (w.summaries.of h).bound = some c) :
    (w.withTwin n kind isPublic).summaries.of h = w.summaries.of h ∧
      (w.withTwin n kind isPublic).summaries.of c = w.summaries.of c := by
  have hpair := hw.pair h c hb
  have hhn : h ≠ n := by
    intro he
    rw [he, Summary.bound_of_unresolved hr] at hb
    cases hb
  have hcn : c ≠ n := by
    intro he
    have hres := hpair.twin_resolved
    rw [he, hr] at hres
    cases hres
  exact ⟨of_withTwin_other _ _ hhn (Nat.ne_of_lt (Program.lt_size_of_mem_live hpair.host_live)),
    of_withTwin_other _ _ hcn (Nat.ne_of_lt (Program.lt_size_of_mem_live hpair.twin_live))⟩

private theorem Paired.withTwin (hw : Paired base made w) {kind : Kind} {isPublic : Bool} (hn : n ∈ w.program.live)
    (hr : (w.summaries.of n).isResolved = false) (hk : w.program.hasMarker n .kernel = false) (hkind : kind ≠ .none)
    (hm : Move w [] [w.program.functions.size] (w.withTwin n kind isPublic)) :
    Paired base (made ++ [w.program.functions.size]) (w.withTwin n kind isPublic) := by
  have hlt := Program.lt_size_of_mem_live hn
  have hbound := hw.bound_withTwin kind isPublic hr
  have hnew : ∀ h c, (w.summaries.of h).bound = some c → c ≠ w.program.functions.size := fun h c hb =>
    Nat.ne_of_lt (Program.lt_size_of_mem_live (hw.pair h c hb).twin_live)
  constructor
  · exact hw.coherent.withTwin hn isPublic
  · rw [hm.size]
    exact Nat.le_add_right_of_le hw.base_le
  · intro m hml
    rw [hm.mem_live, List.mem_singleton, not_or] at hml
    have hml' : m ∉ w.program.live := fun hl => hml.1 ⟨hl, List.not_mem_nil⟩
    have hne : m ≠ n := fun he => hml' (he ▸ hn)
    rw [of_withTwin_other kind isPublic hne hml.2]
    exact hw.dead m hml'
  · intro h c hb
    rcases (hbound h c).mp hb with ⟨rfl, rfl⟩ | hb
    · exact isPair_withTwin isPublic hn hkind
    · obtain ⟨hkh, hkc⟩ := hw.kernel h c hb
      obtain ⟨hsh, hsc⟩ := hw.of_withTwin kind isPublic hr hb
      exact (hw.pair h c hb).move hm hkh hkc hsh hsc
  · intro h c hb
    rcases (hbound h c).mp hb with ⟨rfl, rfl⟩ | hb
    · refine ⟨by rw [hm.hasMarker_kernel hlt, hk], ?_⟩
      rw [Workspace.withTwin, Program.hasMarker, Program.function_withTwin_new]
      exact hk
    · have hpair := hw.pair h c hb
      rw [hm.hasMarker_kernel (Program.lt_size_of_mem_live hpair.host_live),
        hm.hasMarker_kernel (Program.lt_size_of_mem_live hpair.twin_live)]
      exact hw.kernel h c hb
  · intro h h' c hb hb'
    rcases (hbound h c).mp hb with ⟨hh, hc⟩ | hb
    · rcases (hbound h' c).mp hb' with ⟨hh', -⟩ | hb'
      · rw [hh, hh']
      · exact absurd hc (hnew h' c hb')
    · rcases (hbound h' c).mp hb' with ⟨-, hc⟩ | hb'
      · exact absurd hc (hnew h c hb)
      · exact hw.inj h h' c hb hb'
  · intro c
    simp only [hbound, List.mem_append, List.mem_singleton, hw.mem_made c, exists_or]
    constructor
    · rintro (hc | rfl)
      · exact .inr hc
      · exact .inl ⟨n, rfl, rfl⟩
    · rintro (⟨-, -, rfl⟩ | hc)
      · exact .inr rfl
      · exact .inl hc
  · intro c hc
    rcases List.mem_append.mp hc with hc | hc
    · exact hw.fresh c hc
    · rw [List.mem_singleton.mp hc]
      exact hw.base_le

/-! ### Every move and every run -/

theorem bound_of_twinOf? {s : Summaries} (ht : s.twinOf? n = some c) : (s.of n).bound = some c := by
  unfold Summaries.twinOf? at ht
  dsimp only at ht
  split at ht
  · exact ht
  · cases ht

theorem Move.paired {made' : List Node} (hm : Move w gone made' v) (hw : Paired base made w) :
    Paired base (made ++ made') v := by
  cases hm with
  | note j => simpa using hw.of_same (.note w j) hw.coherent fun _ => rfl
  | touch hn => simpa using hw.of_same (.touch w hn) hw.coherent fun n => Summaries.of_touch _ _ _
  | mark hn hk =>
    simpa using hw.of_same (.mark w hn hk) (hw.coherent.modifyFunction (Program.mild_addMarker _) _) fun _ => rfl
  | unmark hn =>
    simpa using hw.of_same (.unmark w hn) (hw.coherent.modifyFunction (Program.mild_removeMarker _) _) fun _ => rfl
  | publish hn hp =>
    simpa using hw.of_same (.publish w hn hp) (hw.coherent.modifyFunction (Program.mild_setPublic _) _) fun _ => rfl
  | discard hn hk => simpa using hw.discard hn hk
  | settle hn hr hp hk =>
    have hnone := Summary.bound_of_unresolved hr
    have := hw.of_update (.settle w hn hr hp hk) hn hr (by rw [Summaries.of_markAccelerator, if_pos rfl]; exact hnone)
      (fun m hm => by rw [Summaries.of_markAccelerator, if_neg hm])
    simpa using this
  | classify hn hr hp hk hc =>
    have hnone := Summary.bound_of_unresolved hr
    have := hw.of_update (.classify w hn hr hp hk hc) hn hr (by rw [Summaries.of_update, if_pos rfl]; exact hnone)
      (fun m hm => by rw [Summaries.of_update, if_neg hm])
    simpa using this
  | twin hn hr hp hk hv hkind => exact hw.withTwin hn hr hk hkind (.twin w hn hr hp hk hv hkind)
  | redirect hn ha he hb =>
    have hlive := (hw.pair _ _ (bound_of_twinOf? hb)).twin_live
    simpa using hw.of_same (.redirect w hn ha he hb) (hw.coherent.redirect _ hlive) fun _ => rfl

theorem Moves.paired {made' : List Node} (hm : Moves w gone made' v) (hw : Paired base made w) :
    Paired base (made ++ made') v := by
  induction hm with
  | refl => simpa using hw
  | step _ hmove ih =>
    rw [← List.append_assoc]
    exact hmove.paired ih

end Workspace

namespace Pass

variable {text : String} {options : Options} {start p : Program} {reports : List Report} {pass : Pass}

/-- The invariant holds after any number of runs. -/
theorem History.paired (hstart : start.Coherent) (hist : History options start reports pass p) (j : Journal) :
    Workspace.Paired start.functions.size (reports.flatMap (·.clones)) (pass.workspace p j) := by
  have := (hist.moves j j).paired (Workspace.paired_start hstart j)
  rwa [List.nil_append] at this

/-- After any number of runs of a fresh pass the bindings pair live host functions with live clones, no clone with two
functions, and each clone was made and reported by a run.  Conversely every clone of a report has its host function. -/
theorem bound_pairs (hparse : Program.parse text = .ok start) (hist : History options start reports pass p) :
    (∀ h c, (pass.summariesOrEmpty.of h).bound = some c →
      IsPair p pass.summariesOrEmpty h c ∧ start.functions.size ≤ c ∧ ∃ r ∈ reports, c ∈ r.clones) ∧
    (∀ h h' c, (pass.summariesOrEmpty.of h).bound = some c → (pass.summariesOrEmpty.of h').bound = some c →
      h = h') ∧
    ∀ r ∈ reports, ∀ c ∈ r.clones, ∃! h, (pass.summariesOrEmpty.of h).bound = some c := by
  have hw := hist.paired (Program.coherent_parse hparse) {}
  have hinj : ∀ h h' c, (pass.summariesOrEmpty.of h).bound = some c →
      (pass.summariesOrEmpty.of h').bound = some c → h = h' := hw.inj
  refine ⟨?_, hinj, ?_⟩
  · intro h c hb
    have hmade := (hw.mem_made c).mpr ⟨h, hb⟩
    exact ⟨hw.pair h c hb, hw.fresh c hmade, List.mem_flatMap.mp hmade⟩
  · intro r hr c hc
    obtain ⟨h, hb⟩ := (hw.mem_made c).mp (List.mem_flatMap.mpr ⟨r, hr, hc⟩)
    exact ⟨h, hb, fun h' hb' => hinj h' h c hb' hb⟩

/-! ### A kernel that is removed and a function that is cloned -/

/-- A kernel that calls a function and another kernel, which cannot be offloaded, and two declarations. -/
def kernelItems : List (Source.Item String) :=
  [.function ⟨"k", [], [.kernel], {}, some [⟨"entry",
      [⟨none, .call "g" { throws := true }, []⟩, ⟨none, .call "bad" {}, []⟩, ⟨none, .other "ret", []⟩]⟩]⟩,
   .function ⟨"g", ["x"], [], { isLocal := true }, some [⟨"entry", [⟨none, .other "ret", []⟩]⟩]⟩,
   .function ⟨"bad", [], [.kernel], { isConstructor := true }, some [⟨"entry", [⟨none, .other "ret", []⟩]⟩]⟩,
   .function ⟨"later", [], [.kernel, .placeholder], {}, none⟩,
   .function ⟨"far", [], [], {}, none⟩]

def kernelText : String :=
  "k() [hsa_kernel] \x7b\nentry: call @g() throws\ncall @bad()\nret\n\x7d\n" ++
  "g(%x) local \x7b entry: ret \x7d\nbad() [hsa_kernel] ctor \x7b entry: ret \x7d\n" ++
  "later() [hsa_kernel, hsa_placeholder] !\nfar() !"

theorem parse_kernelText : Program.parse kernelText = .ok (Source.layOut kernelItems) := by decide +kernel

/-- A run of a fresh pass that looks for more functions to offload. -/
def kernelRun : (Pass × Program × Journal) × Report :=
  ({ options := { parallel := true } } : Pass).execute (Source.layOut kernelItems) {}

/-- A second run. -/
def kernelRerun : (Pass × Program × Journal) × Report := kernelRun.1.1.execute kernelRun.1.2.1 kernelRun.1.2.2

theorem history_kernelRun :
    History { parallel := true } (Source.layOut kernelItems) [kernelRun.2] kernelRun.1.1 kernelRun.1.2.1 := by
  have h₀ : History { parallel := true } (Source.layOut kernelItems) [] _ _ := .fresh
  have h := h₀.execute {}
  rwa [List.nil_append, ← kernelRun] at h

theorem history_kernelRerun :
    History { parallel := true } (Source.layOut kernelItems) [kernelRun.2, kernelRerun.2] kernelRerun.1.1
      kernelRerun.1.2.1 := by
  have h := history_kernelRun.execute kernelRun.1.2.2
  rwa [← kernelRerun, List.singleton_append] at h

/-- The first run removes one kernel and clones the function that the other one calls. -/
theorem bound_pairs_kernelText :
    [kernelRun.2, kernelRerun.2] = [⟨[2], [5], 1⟩, ⟨[], [], 0⟩] ∧
    (∀ h c, (kernelRerun.1.1.summariesOrEmpty.of h).bound = some c →
      IsPair kernelRerun.1.2.1 kernelRerun.1.1.summariesOrEmpty h c ∧ (Source.layOut kernelItems).functions.size ≤ c ∧
        ∃ r ∈ [kernelRun.2, kernelRerun.2], c ∈ r.clones) ∧
    (∀ h h' c, (kernelRerun.1.1.summariesOrEmpty.of h).bound = some c →
      (kernelRerun.1.1.summariesOrEmpty.of h').bound = some c → h = h') ∧
    ∀ r ∈ [kernelRun.2, kernelRerun.2], ∀ c ∈ r.clones,
      ∃! h, (kernelRerun.1.1.summariesOrEmpty.of h).bound = some c :=
  ⟨by decide +kernel, bound_pairs parse_kernelText history_kernelRerun⟩

end Pass

end Accelerator
