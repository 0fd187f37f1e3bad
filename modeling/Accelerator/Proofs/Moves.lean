import Accelerator.Pass.Basic
import Accelerator.Proofs.Lookup
import Accelerator.Proofs.Summaries

/-!
# A run as a sequence of moves

Everything that a run does to the program and the summaries is one of a few moves (`Move`), each made only when its
conditions hold.  A run of the pass is a sequence of such moves (`run_moves`), so what every move keeps holds after
any number of runs.  What a move can do to a function and to its summary is said once (`Kin`, `Decided`).
`Moves w gone made w'` also lists the functions that were removed and the clones that were made on
the way from `w` to `w'`.
-/

namespace Accelerator

namespace Program

/-- The program after the function at a node got its accelerator side. -/
def withTwin (p : Program) (n : Node) (isPublic : Bool) : Program :=
  let q := ((p.clone n cloneSuffix).2.setPublic p.functions.size isPublic).setExternallyVisible p.functions.size
    (p.function n).flags.externallyVisible
  if (p.function n).flags.isLocal then q else q.setForceOutput p.functions.size true

/-- The accelerator side of the function at a node. -/
def twinFunction (p : Program) (n : Node) (isPublic : Bool) : Function :=
  { p.copyOf n cloneSuffix with
    traits.isPublic := isPublic
    flags.externallyVisible := (p.function n).flags.externallyVisible
    flags.isLocal := !(p.function n).flags.externallyVisible
    flags.forceOutput := !(p.function n).flags.isLocal }

variable (p : Program) (n : Node) (isPublic : Bool)

theorem size_withTwin : (p.withTwin n isPublic).functions.size = p.functions.size + 1 := by
  unfold withTwin
  split <;> simp [setPublic, setExternallyVisible, setForceOutput, clone_eq_extend, size_extend]

theorem function_withTwin (m : Node) :
    (p.withTwin n isPublic).function m =
      if m = p.functions.size then p.twinFunction n isPublic else p.function m := by
  have hclone : (p.clone n cloneSuffix).2.function m =
      if m = p.functions.size then p.copyOf n cloneSuffix else p.function m := by
    rw [clone_eq_extend, function_extend]
  have hsize : (p.clone n cloneSuffix).2.functions.size = p.functions.size + 1 := by
    rw [clone_eq_extend, size_extend]
  by_cases hm : m = p.functions.size
  · subst hm
    rw [if_pos rfl] at hclone ⊢
    unfold withTwin
    split <;> rename_i hl <;>
      simp only [setPublic, setExternallyVisible, setForceOutput, function_modifyFunction, size_modifyFunction,
        hsize, hclone] <;>
      simp [twinFunction, copyOf, hl]
  · rw [if_neg hm] at hclone ⊢
    unfold withTwin
    split <;> simp [setPublic, setExternallyVisible, setForceOutput, function_modifyFunction, hm, hclone]

theorem function_withTwin_new :
    (p.withTwin n isPublic).function p.functions.size = p.twinFunction n isPublic := by
  rw [function_withTwin, if_pos rfl]

variable {p} in
theorem function_withTwin_old {m : Node} (hm : m < p.functions.size) :
    (p.withTwin n isPublic).function m = p.function m := by
  rw [function_withTwin, if_neg (Nat.ne_of_lt hm)]

theorem edge_withTwin (e : Nat) : (p.withTwin n isPublic).edge e = (p.clone n cloneSuffix).2.edge e := by
  unfold withTwin
  split <;> rfl

theorem mem_live_withTwin {m : Node} : m ∈ (p.withTwin n isPublic).live ↔ m = p.functions.size ∨ m ∈ p.live := by
  rw [mem_live, mem_live, size_withTwin, function_withTwin]
  by_cases hm : m = p.functions.size
  · simp [hm, twinFunction, copyOf]
  · have hlt : m < p.functions.size + 1 ↔ m < p.functions.size := by grind
    simp [hm, hlt]

end Program

namespace Workspace

/-- The workspace after a function got its accelerator side and was bound to it. -/
def withTwin (w : Workspace) (n : Node) (kind : Kind) (isPublic : Bool) : Workspace :=
  { w with
    program := w.program.withTwin n isPublic
    summaries := w.summaries.link w.program.functions.size n kind }

/-- One move of a run, with the functions that it removes and the clones that it makes. -/
inductive Move : Workspace → List Node → List Node → Workspace → Prop
  | note (w : Workspace) (j : Journal) : Move w [] [] { w with journal := j }
  | touch (w : Workspace) {n : Node} (hn : n ∈ w.program.live) :
      Move w [] [] { w with summaries := w.summaries.touch n }
  | mark (w : Workspace) {n : Node} {m : Marker} (hn : n ∈ w.program.live)
      (hm : m = .universal ∨ m = .declareTarget) : Move w [] [] { w with program := w.program.addMarker n m }
  | unmark (w : Workspace) {n : Node} (hn : n ∈ w.program.live) :
      Move w [] [] { w with program := w.program.removeMarker n .declareTarget }
  | publish (w : Workspace) {n : Node} (hn : n ∈ w.program.live) (hp : w.program.hasMarker n .placeholder = true) :
      Move w [] [] { w with program := w.program.setPublic n true }
  | discard (w : Workspace) {n : Node} (hn : n ∈ w.program.definitions) (hk : w.program.hasMarker n .kernel = true) :
      Move w [n] [] { w with program := w.program.remove n, summaries := w.summaries.forget n }
  | settle (w : Workspace) {n : Node} (hn : n ∈ w.program.live) (hr : (w.summaries.of n).isResolved = false)
      (hp : w.program.hasMarker n .placeholder = false) (hk : w.program.hasMarker n .kernel = true) :
      Move w [] [] { w with summaries := w.summaries.markAccelerator n .kernel }
  | classify (w : Workspace) {n : Node} (hn : n ∈ w.program.live) (hr : (w.summaries.of n).isResolved = false)
      (hp : w.program.hasMarker n .placeholder = false) (hk : w.program.hasMarker n .kernel = false)
      (hc : w.program.hasMarker n .callable = true) :
      Move w [] [] { w with summaries := w.summaries.update n ({ · with kind := .function }) }
  | twin (w : Workspace) {n : Node} {kind : Kind} {isPublic : Bool} (hn : n ∈ w.program.live)
      (hr : (w.summaries.of n).isResolved = false) (hp : w.program.hasMarker n .placeholder = false)
      (hk : w.program.hasMarker n .kernel = false) (hv : (w.program.function n).flags.versionable = true)
      (hkind : kind ≠ .none) :
      Move w [] [w.program.functions.size] (w.withTwin n kind isPublic)
  | redirect (w : Workspace) {n : Node} {e : Nat} {b : Node} (hn : n ∈ w.program.definitions)
      (ha : w.isAccelerator n = true) (he : e ∈ (w.program.function n).callees)
      (hb : w.summaries.twinOf? (w.program.edge e).callee = some b) :
      Move w [] [] { w with program := w.program.redirect e b }

/-- A sequence of moves. -/
inductive Moves (w : Workspace) : List Node → List Node → Workspace → Prop
  | refl : Moves w [] [] w
  | step {gone made gone' made' : List Node} {u v : Workspace} (h : Moves w gone made u)
      (hm : Move u gone' made' v) : Moves w (gone ++ gone') (made ++ made') v

variable {w u v : Workspace} {gone made gone' made' : List Node}

private theorem Move.moves (h : Move w gone made v) : Moves w gone made v := Moves.refl.step h

theorem Moves.trans (h : Moves w gone made u) (h' : Moves u gone' made' v) :
    Moves w (gone ++ gone') (made ++ made') v := by
  induction h' with
  | refl => simpa using h
  | step _ hm ih =>
    rw [← List.append_assoc, ← List.append_assoc]
    exact ih.step hm

/-! ### What every move keeps -/

/-- The function `g` comes from `f` by moves: all but its calls, its visibility to other programs and the two markers
that the pass itself hands out is the same. -/
structure Kin (f g : Program.Function) : Prop where
  name : g.name = f.name
  args : g.args = f.args
  body : g.body = f.body
  indirectCalls : g.indirectCalls = f.indirectCalls
  flags : g.flags = f.flags
  traits : { g.traits with isPublic := false } = { f.traits with isPublic := false }
  markers : ∀ m : Marker, m ≠ .universal → m ≠ .declareTarget → (m ∈ g.markers ↔ m ∈ f.markers)

theorem Kin.refl (f : Program.Function) : Kin f f := ⟨rfl, rfl, rfl, rfl, rfl, rfl, fun _ _ _ => .rfl⟩

theorem Kin.trans {f g k : Program.Function} (h : Kin f g) (h' : Kin g k) : Kin f k where
  name := h'.name.trans h.name
  args := h'.args.trans h.args
  body := h'.body.trans h.body
  indirectCalls := h'.indirectCalls.trans h.indirectCalls
  flags := h'.flags.trans h.flags
  traits := h'.traits.trans h.traits
  markers m h₁ h₂ := (h'.markers m h₁ h₂).trans (h.markers m h₁ h₂)

private theorem kin_modifyFunction {f : Program.Function → Program.Function} (hf : ∀ x, Kin x (f x)) (p : Program)
    (n m : Node) : Kin (p.function m) ((p.modifyFunction n f).function m) := by
  rw [Program.function_modifyFunction]
  split
  · exact hf _
  · exact Kin.refl _

private theorem kin_addMarker {k : Marker} (hk : k = .universal ∨ k = .declareTarget) (p : Program) (n m : Node) :
    Kin (p.function m) ((p.addMarker n k).function m) := by
  apply kin_modifyFunction
  intro x
  refine { Kin.refl x with markers := ?_ }
  intro m h₁ h₂
  have hne : m ≠ k := by rcases hk with rfl | rfl <;> assumption
  dsimp only
  split
  · rfl
  · simp [hne]

private theorem kin_removeMarker (p : Program) (n m : Node) :
    Kin (p.function m) ((p.removeMarker n .declareTarget).function m) := by
  apply kin_modifyFunction
  intro x
  refine { Kin.refl x with markers := ?_ }
  intro m _ h₂
  simp [h₂]

private theorem kin_setPublic (p : Program) (n : Node) (value : Bool) (m : Node) :
    Kin (p.function m) ((p.setPublic n value).function m) := by
  apply kin_modifyFunction
  intro x
  exact { Kin.refl x with }

private theorem kin_remove {p : Program} {n : Node} (hn : n < p.functions.size) (m : Node) :
    Kin (p.function m) ((p.remove n).function m) := by
  by_cases hm : m = n
  · subst hm
    rw [Program.function_remove_self hn]
    exact { Kin.refl (p.function m) with }
  · rw [Program.function_remove_of_ne hm]
    split
    · exact Kin.refl _
    · exact { Kin.refl (p.function m) with }

/-- A function that is there before a move is there afterwards, changed as `Kin` allows. -/
theorem Move.kin (h : Move w gone made v) {m : Node} (hm : m < w.program.functions.size) :
    Kin (w.program.function m) (v.program.function m) := by
  cases h with
  | note | touch | settle | classify => exact Kin.refl _
  | mark _ hk => exact kin_addMarker hk _ _ _
  | unmark => exact kin_removeMarker _ _ _
  | publish => exact kin_setPublic _ _ _ _
  | discard hn =>
    exact kin_remove (Program.lt_size_of_mem_definitions hn) m
  | twin =>
    rw [withTwin, Program.function_withTwin_old _ _ hm]
    exact Kin.refl _
  | redirect => exact Kin.refl _

theorem Move.size (h : Move w gone made v) :
    v.program.functions.size = w.program.functions.size + made.length := by
  cases h with
  | note | touch | settle | classify => rfl
  | mark | unmark | publish => exact Program.size_modifyFunction _ _ _
  | discard => exact Program.size_remove _ _
  | twin => exact Program.size_withTwin _ _ _
  | redirect => rfl

/-- The functions that a move leaves: those it does not remove and those it makes. -/
theorem Move.mem_live (h : Move w gone made v) {m : Node} :
    m ∈ v.program.live ↔ (m ∈ w.program.live ∧ m ∉ gone) ∨ m ∈ made := by
  have hsame : ∀ q : Program, q.live = w.program.live →
      (m ∈ q.live ↔ (m ∈ w.program.live ∧ m ∉ ([] : List Node)) ∨ m ∈ ([] : List Node)) := by
    intro q hq
    simp [hq]
  cases h with
  | note | touch | settle | classify => exact hsame _ rfl
  | mark | unmark | publish =>
    apply hsame
    apply Program.live_modifyFunction
    intro x
    rfl
  | redirect => exact hsame _ rfl
  | discard hn =>
    have hlt := Program.lt_size_of_mem_definitions hn
    simp [Program.mem_live_remove hlt, and_comm]
  | twin => simp [withTwin, Program.mem_live_withTwin, or_comm]

/-- No move touches the tables of globals, blocks, instructions and operands. -/
theorem Move.tables (h : Move w gone made v) :
    v.program.globals = w.program.globals ∧ v.program.blocks = w.program.blocks ∧
      v.program.insts = w.program.insts ∧ v.program.operands = w.program.operands := by
  cases h with
  | twin =>
    dsimp only [withTwin]
    unfold Program.withTwin
    split <;> exact ⟨rfl, rfl, rfl, rfl⟩
  | _ => exact ⟨rfl, rfl, rfl, rfl⟩

theorem Moves.size_le (h : Moves w gone made v) : w.program.functions.size ≤ v.program.functions.size := by
  induction h with
  | refl => exact Nat.le_refl _
  | step _ hm ih =>
    have := hm.size
    omega

theorem Moves.kin (h : Moves w gone made v) {m : Node} (hm : m < w.program.functions.size) :
    Kin (w.program.function m) (v.program.function m) := by
  induction h with
  | refl => exact Kin.refl _
  | step h' hmove ih => exact ih.trans (hmove.kin (Nat.lt_of_lt_of_le hm h'.size_le))

theorem Moves.live (h : Moves w gone made v) {m : Node} (hm : m ∈ w.program.live) (hg : m ∉ gone) :
    m ∈ v.program.live := by
  induction h with
  | refl => exact hm
  | step _ hmove ih =>
    rw [List.mem_append, not_or] at hg
    exact hmove.mem_live.mpr (.inl ⟨ih hg.1, hg.2⟩)

theorem Moves.definitions (h : Moves w gone made v) {m : Node} (hm : m ∈ w.program.definitions) (hg : m ∉ gone) :
    m ∈ v.program.definitions := by
  rw [Program.mem_definitions] at hm ⊢
  refine ⟨h.live hm.1 hg, ?_⟩
  rw [(h.kin (Program.lt_size_of_mem_live hm.1)).flags]
  exact hm.2

theorem Kin.hasMarker {p q : Program} {n : Node} (h : Kin (p.function n) (q.function n)) {m : Marker}
    (h₁ : m ≠ .universal) (h₂ : m ≠ .declareTarget) : q.hasMarker n m = p.hasMarker n m := by
  rw [Bool.eq_iff_iff]
  simpa [Program.hasMarker] using h.markers m h₁ h₂

theorem Move.hasMarker_kernel (h : Move w gone made v) {n : Node} (hn : n < w.program.functions.size) :
    v.program.hasMarker n .kernel = w.program.hasMarker n .kernel :=
  (h.kin hn).hasMarker (by decide) (by decide)

/-- What a move removes is a kernel. -/
theorem Move.kernel_of_mem_gone (h : Move w gone made v) {n : Node} (hn : n ∈ gone) :
    w.program.hasMarker n .kernel = true := by
  cases h with
  | discard _ hk => exact List.mem_singleton.mp hn ▸ hk
  | _ => cases hn

theorem Move.not_mem_gone (h : Move w gone made v) {n : Node} (hk : w.program.hasMarker n .kernel = false) :
    n ∉ gone := by
  intro hn
  rw [h.kernel_of_mem_gone hn] at hk
  cases hk

variable {n : Node}

/-! ### What a move decides -/

/-- What a move may make of the summary of a function, and when. -/
inductive Decided (w : Workspace) (gone : List Node) (n : Node) : Summary → Prop
  | same : Decided w gone n (w.summaries.of n)
  | removed (hn : n ∈ gone) : Decided w gone n {}
  | released {b : Node} (hb : (w.summaries.of n).bound = some b) (hg : b ∈ gone) :
      Decided w gone n ⟨(w.summaries.of n).kind, (w.summaries.of n).accelerator, none⟩
  | kernel (hr : (w.summaries.of n).isResolved = false) (hp : w.program.hasMarker n .placeholder = false)
      (hk : w.program.hasMarker n .kernel = true) : Decided w gone n ⟨.kernel, true, (w.summaries.of n).bound⟩
  | function (hr : (w.summaries.of n).isResolved = false) (hp : w.program.hasMarker n .placeholder = false)
      (hc : w.program.hasMarker n .callable = true) :
      Decided w gone n ⟨.function, (w.summaries.of n).accelerator, (w.summaries.of n).bound⟩
  | host {kind : Kind} (hr : (w.summaries.of n).isResolved = false)
      (hv : (w.program.function n).flags.versionable = true) (hkind : kind ≠ .none) :
      Decided w gone n ⟨kind, false, some w.program.functions.size⟩
  | twin {kind : Kind} (hn : n = w.program.functions.size) (hkind : kind ≠ .none) : Decided w gone n ⟨kind, true, none⟩

theorem Move.decided (h : Move w gone made v) (n : Node) : Decided w gone n (v.summaries.of n) := by
  cases h with
  | note | mark | unmark | publish => exact .same
  | redirect => exact .same
  | touch =>
    rw [Summaries.of_touch]
    exact .same
  | @discard m =>
    rw [Summaries.of_forget]
    split
    · rename_i hn
      exact .removed (by rw [hn]; exact List.mem_singleton_self m)
    · dsimp only
      split
      · rename_i hb
        exact .released hb (List.mem_singleton_self m)
      · exact .same
  | settle _ hr hp hk =>
    rw [Summaries.of_markAccelerator]
    split
    · rename_i hn
      subst hn
      exact .kernel hr hp hk
    · exact .same
  | classify _ hr hp _ hc =>
    rw [Summaries.of_update]
    split
    · rename_i hn
      subst hn
      exact .function hr hp hc
    · exact .same
  | twin _ hr _ _ hv hkind =>
    rw [withTwin, Summaries.of_link]
    split
    · rename_i hn
      subst hn
      exact .host hr hv hkind
    · split
      · rename_i hn
        exact .twin hn hkind
      · exact .same

/-! ### The survey -/

private theorem moves_reject (verbose : Bool) (o : Obstacle) (hn : n ∈ w.program.live) :
    Moves w [] [] (w.reject verbose n o) :=
  (Move.unmark w hn).moves.step (.note _ _)

/-- The survey of one definition is a sequence of moves, and a function that it sorts out is this definition; it is a
kernel if it is to be removed. -/
private theorem moves_surveyNode (verbose : Bool) (found : Survey) (hn : n ∈ w.program.live) :
    Moves w [] [] (surveyNode verbose (w, found) n).1 ∧
      ((surveyNode verbose (w, found) n).2 = found ∨
       (surveyNode verbose (w, found) n).2 = { found with rejected := found.rejected ++ [n] } ∨
       ((surveyNode verbose (w, found) n).2 = { found with removed := found.removed ++ [n] } ∧
        w.program.hasMarker n .kernel = true)) := by
  have htouch := (Move.touch w hn).moves
  unfold surveyNode
  dsimp only
  split
  · exact ⟨htouch, .inl rfl⟩
  · have hnote := htouch.step (.note _ w.journal.countConsidered)
    split
    · exact ⟨hnote.step (.mark _ hn (.inl rfl)), .inl rfl⟩
    · rename_i o _
      have hreject := hnote.trans (moves_reject verbose o hn)
      split
      · rename_i hk
        refine ⟨hreject, .inr (.inr ⟨rfl, ?_⟩)⟩
        rw [← hk]
        exact ((hreject.kin (Program.lt_size_of_mem_live hn)).hasMarker (by decide) (by decide)).symm
      · exact ⟨hreject, .inr (.inl rfl)⟩

/-- The survey of some definitions: what is to be removed are kernels among them, what is rejected is among them. -/
private theorem moves_surveyNodes (verbose : Bool) {l : List Node} (hl : ∀ n ∈ l, n ∈ w.program.live) (found : Survey) :
    Moves w [] [] (l.foldl (surveyNode verbose) (w, found)).1 ∧
      ∃ removed rejected, (l.foldl (surveyNode verbose) (w, found)).2 =
          ⟨found.removed ++ removed, found.rejected ++ rejected⟩ ∧
        removed.Sublist l ∧ rejected.Sublist l ∧ ∀ n ∈ removed, w.program.hasMarker n .kernel = true := by
  induction l generalizing w found with
  | nil => exact ⟨.refl, [], [], by simp, .refl _, .refl _, by simp⟩
  | cons n l ih =>
    obtain ⟨hmoves, hfound⟩ := moves_surveyNode verbose found (hl n List.mem_cons_self)
    have hlive : ∀ m ∈ l, m ∈ (surveyNode verbose (w, found) n).1.program.live := fun m hm =>
      hmoves.live (hl m (List.mem_cons_of_mem n hm)) List.not_mem_nil
    obtain ⟨hmoves', removed, rejected, heq, hrem, hrej, hkernel⟩ := ih hlive (surveyNode verbose (w, found) n).2
    refine ⟨hmoves.trans hmoves', ?_⟩
    -- the survey of `n` changed no marker for kernels
    have hkernel' : ∀ m ∈ removed, w.program.hasMarker m .kernel = true := by
      intro m hm
      have hlt := Program.lt_size_of_mem_live (hl m (List.mem_cons_of_mem n (hrem.subset hm)))
      rw [← (hmoves.kin hlt).hasMarker (by decide) (by decide)]
      exact hkernel m hm
    rw [List.foldl_cons, heq]
    rcases hfound with h | h | ⟨h, hk⟩ <;> rw [h]
    · exact ⟨removed, rejected, rfl, hrem.cons n, hrej.cons n, hkernel'⟩
    · exact ⟨removed, n :: rejected, by simp, hrem.cons n, hrej.cons_cons n, hkernel'⟩
    · refine ⟨n :: removed, rejected, by simp, hrem.cons_cons n, hrej.cons n, ?_⟩
      intro m hm
      rcases List.mem_cons.mp hm with rfl | hm
      · exact hk
      · exact hkernel' m hm

private theorem moves_discard {l : List Node} (hl : l.Nodup) (hd : ∀ n ∈ l, n ∈ w.program.definitions)
    (hk : ∀ n ∈ l, w.program.hasMarker n .kernel = true) : Moves w l [] (l.foldl discard w) := by
  induction l generalizing w with
  | nil => exact .refl
  | cons n l ih =>
    rw [List.nodup_cons] at hl
    have hdn := hd n List.mem_cons_self
    have hmoves : Moves w [n] [] (w.discard n) :=
      (Move.discard w hdn (hk n List.mem_cons_self)).moves.step (.note _ w.journal.countRemoved)
    have hne : ∀ m ∈ l, m ∉ [n] := fun m hm hmn => hl.1 (List.mem_singleton.mp hmn ▸ hm)
    refine hmoves.trans (ih hl.2 ?_ ?_)
    · exact fun m hm => hmoves.definitions (hd m (List.mem_cons_of_mem n hm)) (hne m hm)
    · intro m hm
      have hlt := Program.lt_size_of_mem_definitions (hd m (List.mem_cons_of_mem n hm))
      rw [(hmoves.kin hlt).hasMarker (by decide) (by decide)]
      exact hk m (List.mem_cons_of_mem n hm)

/-- A survey removes the kernels that it lists, all of them definitions. -/
theorem moves_survey (verbose : Bool) (w : Workspace) :
    Moves w (w.survey verbose).2.removed [] (w.survey verbose).1 ∧
      (∀ n ∈ (w.survey verbose).2.removed, n ∈ w.program.definitions) ∧
      ∀ n ∈ (w.survey verbose).2.rejected, n ∈ w.program.definitions := by
  obtain ⟨hmoves, removed, rejected, heq, hrem, hrej, hkernel⟩ := moves_surveyNodes verbose (w := w)
    (fun n hn => (Program.mem_definitions.mp hn).1) {}
  have hfound : (w.survey verbose).2 = ⟨removed, rejected⟩ := heq
  have hstate : (w.survey verbose).1 =
      removed.foldl discard (w.program.definitions.foldl (surveyNode verbose) (w, {})).1 := by
    unfold survey
    dsimp only
    rw [heq]
    rfl
  have hlt : ∀ n ∈ removed, n < w.program.functions.size := fun n hn =>
    Program.lt_size_of_mem_definitions (hrem.subset hn)
  rw [hfound, hstate]
  refine ⟨hmoves.trans (moves_discard (w.program.nodup_definitions.sublist hrem) ?_ ?_), hrem.subset, hrej.subset⟩
  · exact fun n hn => hmoves.definitions (hrem.subset hn) List.not_mem_nil
  · intro n hn
    rw [(hmoves.kin (hlt n hn)).hasMarker (by decide) (by decide)]
    exact hkernel n hn

/-! ### The clones -/

/-- A function that is unresolved and neither a placeholder nor a kernel may get an accelerator side. -/
structure Unsettled (w : Workspace) (n : Node) : Prop where
  live : n ∈ w.program.live
  unresolved : (w.summaries.of n).isResolved = false
  placeholder : w.program.hasMarker n .placeholder = false
  kernel : w.program.hasMarker n .kernel = false

theorem addTwin_eq (options : Options) (kind : Kind) (isPublic : Bool)
    (hv : (w.program.function n).flags.versionable = true) :
    w.addTwin options n kind isPublic =
      (⟨w.program.withTwin n isPublic, w.summaries.link w.program.functions.size n kind, w.journal.countClone⟩,
        some w.program.functions.size) := by
  unfold addTwin
  dsimp only
  rw [if_pos hv]
  rfl

theorem addTwin_eq_none (options : Options) (kind : Kind) (isPublic : Bool)
    (hv : (w.program.function n).flags.versionable = false) :
    ∃ j, w.addTwin options n kind isPublic = ({ w with journal := j }, none) := by
  unfold addTwin
  dsimp only
  rw [if_neg (by simp [hv])]
  split
  · exact ⟨_, rfl⟩
  · exact ⟨w.journal, rfl⟩

private theorem moves_addTwin (options : Options) {kind : Kind} (isPublic : Bool) (h : w.Unsettled n)
    (hkind : kind ≠ .none) :
    Moves w [] (w.addTwin options n kind isPublic).2.toList (w.addTwin options n kind isPublic).1 := by
  cases hv : (w.program.function n).flags.versionable with
  | true =>
    rw [addTwin_eq options kind isPublic hv]
    exact (Move.twin w h.live h.unresolved h.placeholder h.kernel hv hkind).moves.step (.note _ w.journal.countClone)
  | false =>
    obtain ⟨j, hj⟩ := addTwin_eq_none options kind isPublic hv
    rw [hj]
    exact (Move.note w j).moves

/-- A function that carries the marker for it becomes accelerator code, also if it may not be cloned. -/
private theorem moves_classify (options : Options) (isPublic : Bool) (h : w.Unsettled n)
    (hc : w.program.hasMarker n .callable = true) :
    let u := { w with summaries := w.summaries.update n ({ · with kind := .function }) }
    Moves w [] (u.addTwin options n .function isPublic).2.toList (u.addTwin options n .function isPublic).1 := by
  intro u
  cases hv : (w.program.function n).flags.versionable with
  | true =>
    -- the kind that was entered first is replaced when the function is bound
    have hlink := w.summaries.link_update n w.program.functions.size .function ({ · with kind := .function })
    rw [addTwin_eq (w := u) options .function isPublic hv, show u.summaries.link _ n .function = _ from hlink]
    exact (Move.twin w h.live h.unresolved h.placeholder h.kernel hv (by simp)).moves.step
      (.note _ w.journal.countClone)
  | false =>
    obtain ⟨j, hj⟩ := addTwin_eq_none (w := u) options .function isPublic hv
    rw [hj]
    exact (Move.classify w h.live h.unresolved h.placeholder h.kernel hc).moves.step (.note _ j)

/-- What a treatment says about the markers and the summary of a function. -/
private theorem treatment_spec (p : Program) (n : Node) (s : Summary) :
    (p.treatment n s ≠ .resolved → s.isResolved = false) ∧
    (p.treatment n s ≠ .resolved → p.treatment n s ≠ .placeholder → p.hasMarker n .placeholder = false) ∧
    (p.treatment n s = .placeholder → p.hasMarker n .placeholder = true) ∧
    (p.treatment n s = .kernel → p.hasMarker n .kernel = true) ∧
    (p.treatment n s ≠ .resolved → p.treatment n s ≠ .placeholder → p.treatment n s ≠ .kernel →
      p.hasMarker n .kernel = false) ∧
    (p.treatment n s = .function true → p.hasMarker n .callable = true) ∧
    (p.treatment n s = .function false → s.kind ≠ .none) := by
  unfold Program.treatment
  split_ifs with h₁ h₂ h₃ h₄ h₅ <;> simp_all [Summary.isParticipant]

/-- The treatment of a function is a sequence of moves that makes the clone it names. -/
theorem moves_treat (options : Options) (hn : n ∈ w.program.live) :
    Moves w [] (w.treat options n).2.toList (w.treat options n).1 := by
  obtain ⟨hres, hplace, hplaced, hkernel, hnokernel, hcall, hpart⟩ :=
    treatment_spec w.program n ((w.summaries.touch n).of n)
  have htouch := (Move.touch w hn).moves
  unfold treat
  dsimp only
  cases ht : w.program.treatment n ((w.summaries.touch n).of n) with
  | resolved | host => exact htouch
  | placeholder => exact htouch.step (.publish _ hn (hplaced ht))
  | kernel =>
    rw [ht] at hres hplace
    exact htouch.step (.settle _ hn (hres (by simp)) (hplace (by simp) (by simp)) (hkernel ht))
  | function marked =>
    rw [ht] at hres hplace hnokernel
    have hu : Unsettled { w with summaries := w.summaries.touch n } n :=
      ⟨hn, hres (by simp), hplace (by simp) (by simp), hnokernel (by simp) (by simp) (by simp)⟩
    cases marked with
    | true => exact htouch.trans (moves_classify options _ hu (hcall ht))
    | false => exact htouch.trans (moves_addTwin options _ hu (hpart ht))
  | universal =>
    rw [ht] at hres hplace hnokernel
    -- the marker that is added is neither of those that are looked at
    have hmark := htouch.step (.mark _ hn (.inr rfl))
    have hkin := hmark.kin (Program.lt_size_of_mem_live hn)
    refine hmark.trans (moves_addTwin options _ ⟨hmark.live hn List.not_mem_nil, hres (by simp), ?_, ?_⟩ (by simp))
    · rw [hkin.hasMarker (by decide) (by decide)]
      exact hplace (by simp) (by simp)
    · rw [hkin.hasMarker (by decide) (by decide)]
      exact hnokernel (by simp) (by simp) (by simp)
  | implicit =>
    rw [ht] at hres hplace hnokernel
    have hu : Unsettled { w with summaries := w.summaries.touch n } n :=
      ⟨hn, hres (by simp), hplace (by simp) (by simp), hnokernel (by simp) (by simp) (by simp)⟩
    exact htouch.trans (moves_addTwin options _ hu (by simp))

/-- One step of the clone sweep. -/
def sweepNode (options : Options) (hostOnly : List Node) (state : Workspace × List Node) (n : Node) :
    Workspace × List Node :=
  if hostOnly.contains n then state
  else ((state.1.treat options n).1, state.2 ++ (state.1.treat options n).2.toList)

theorem cloneSweep_eq (options : Options) (hostOnly : List Node) (w : Workspace) :
    w.cloneSweep options hostOnly = w.program.live.foldl (sweepNode options hostOnly) (w, []) := rfl

theorem moves_sweepNodes (options : Options) (hostOnly : List Node) {l : List Node}
    (hl : ∀ n ∈ l, n ∈ w.program.live) (clones : List Node) :
    ∃ new, (l.foldl (sweepNode options hostOnly) (w, clones)).2 = clones ++ new ∧
      Moves w [] new (l.foldl (sweepNode options hostOnly) (w, clones)).1 := by
  induction l generalizing w clones with
  | nil => exact ⟨[], by simp, .refl⟩
  | cons n l ih =>
    rw [List.foldl_cons]
    by_cases hh : hostOnly.contains n = true
    · rw [sweepNode, if_pos hh]
      exact ih (fun m hm => hl m (List.mem_cons_of_mem n hm)) clones
    · rw [sweepNode, if_neg hh]
      have hmoves := moves_treat options (hl n List.mem_cons_self)
      obtain ⟨new, heq, hmoves'⟩ := ih
        (fun m hm => hmoves.live (hl m (List.mem_cons_of_mem n hm)) List.not_mem_nil)
        (clones ++ (w.treat options n).2.toList)
      exact ⟨(w.treat options n).2.toList ++ new, by rw [heq, List.append_assoc], hmoves.trans hmoves'⟩

theorem moves_cloneSweep (options : Options) (hostOnly : List Node) (w : Workspace) :
    Moves w [] (w.cloneSweep options hostOnly).2 (w.cloneSweep options hostOnly).1 := by
  obtain ⟨new, heq, hmoves⟩ := moves_sweepNodes (w := w) options hostOnly (fun n hn => hn) []
  rw [List.nil_append] at heq
  rw [cloneSweep_eq, heq]
  exact hmoves

/-! ### The calls -/

/-- The workspaces `w` and `v` differ in the ends of edges and the journal only. -/
structure SameButEnds (w v : Workspace) : Prop where
  functions : v.program.functions = w.program.functions
  edges : v.program.edges.size = w.program.edges.size
  summaries : v.summaries = w.summaries

namespace SameButEnds

private theorem refl (w : Workspace) : SameButEnds w w := ⟨rfl, rfl, rfl⟩

private theorem trans (h : SameButEnds w u) (h' : SameButEnds u v) : SameButEnds w v :=
  ⟨h'.functions.trans h.functions, h'.edges.trans h.edges, h'.summaries.trans h.summaries⟩

theorem function (h : SameButEnds w v) (m : Node) : v.program.function m = w.program.function m := by
  rw [Program.function, Program.function, h.functions]

theorem definitions (h : SameButEnds w v) : v.program.definitions = w.program.definitions := by
  simp only [Program.definitions, Program.live, h.function, h.functions]

theorem isAccelerator (h : SameButEnds w v) (m : Node) : v.isAccelerator m = w.isAccelerator m := by
  rw [Workspace.isAccelerator, Workspace.isAccelerator, h.summaries]

end SameButEnds

private theorem same_retargetEdge (w : Workspace) (count e : Nat) : SameButEnds w (retargetEdge (w, count) e).1 := by
  unfold retargetEdge
  dsimp only
  split
  · exact .refl w
  · exact ⟨rfl, Program.size_edges_redirect _ _ _, rfl⟩

private theorem same_retargetEdges (w : Workspace) (count : Nat) (l : List Nat) :
    SameButEnds w (l.foldl retargetEdge (w, count)).1 := by
  induction l generalizing w count with
  | nil => exact .refl w
  | cons e l ih => exact (same_retargetEdge w count e).trans (ih _ _)

theorem same_retargetNode (w : Workspace) (count : Nat) (n : Node) :
    SameButEnds w (retargetNode (w, count) n).1 := by
  unfold retargetNode
  dsimp only
  split
  · exact same_retargetEdges w count _
  · exact .refl w

theorem same_retargetNodes (w : Workspace) (count : Nat) (l : List Node) :
    SameButEnds w (l.foldl retargetNode (w, count)).1 := by
  induction l generalizing w count with
  | nil => exact .refl w
  | cons n l ih => exact (same_retargetNode w count n).trans (ih _ _)

private theorem moves_retargetEdge (count : Nat) {e : Nat} (hn : n ∈ w.program.definitions)
    (ha : w.isAccelerator n = true)
    (he : e ∈ (w.program.function n).callees) : Moves w [] [] (retargetEdge (w, count) e).1 := by
  unfold retargetEdge
  dsimp only
  split
  · exact .refl
  · rename_i twin htwin
    exact (Move.redirect w hn ha he htwin).moves.step (.note _ w.journal.countRedirected)

private theorem moves_retargetEdges (count : Nat) {l : List Nat} (hn : n ∈ w.program.definitions)
    (ha : w.isAccelerator n = true) (hl : ∀ e ∈ l, e ∈ (w.program.function n).callees) :
    Moves w [] [] (l.foldl retargetEdge (w, count)).1 := by
  induction l generalizing w count with
  | nil => exact .refl
  | cons e l ih =>
    have hsame := same_retargetEdge w count e
    refine (moves_retargetEdge count hn ha (hl e List.mem_cons_self)).trans (ih _ ?_ ?_ ?_)
    · rw [hsame.definitions]
      exact hn
    · rw [hsame.isAccelerator, ha]
    · intro i hi
      rw [hsame.function]
      exact hl i (List.mem_cons_of_mem e hi)

private theorem moves_retargetNodes (count : Nat) {l : List Node} (hl : ∀ n ∈ l, n ∈ w.program.definitions) :
    Moves w [] [] (l.foldl retargetNode (w, count)).1 := by
  induction l generalizing w count with
  | nil => exact .refl
  | cons n l ih =>
    have hnode : Moves w [] [] (retargetNode (w, count) n).1 := by
      unfold retargetNode
      dsimp only
      split
      · rename_i ha
        exact moves_retargetEdges count (hl n List.mem_cons_self) ha fun e he => he
      · exact .refl
    refine hnode.trans (ih _ ?_)
    intro m hm
    rw [(same_retargetNode w count n).definitions]
    exact hl m (List.mem_cons_of_mem n hm)

theorem moves_retarget (w : Workspace) : Moves w [] [] w.retarget.1 :=
  moves_retargetNodes 0 fun _ hn => hn

/-! ### Runs -/

/-- A run makes what its report says, and at its end goes through the calls. -/
theorem run_eq (options : Options) (w : Workspace) :
    ∃ u, Moves w (w.run options).2.removed (w.run options).2.clones u ∧ (w.run options).1 = u.retarget.1 := by
  unfold run
  dsimp only
  split
  · have h := (moves_survey options.verbose w).1.trans
      (moves_cloneSweep options (w.survey options.verbose).2.rejected _)
    rw [List.append_nil] at h
    exact ⟨_, h, rfl⟩
  · exact ⟨_, moves_cloneSweep options _ w, rfl⟩

/-- A run of the pass is a sequence of moves that removes and makes what its report says. -/
theorem moves_run (options : Options) (w : Workspace) :
    Moves w (w.run options).2.removed (w.run options).2.clones (w.run options).1 := by
  obtain ⟨u, hu, heq⟩ := run_eq options w
  rw [heq]
  simpa only [List.append_nil] using hu.trans (moves_retarget u)

end Workspace

namespace Pass

/-- What a fresh pass and a program become by runs of the pass on it, with the reports of these runs. -/
inductive History (options : Options) (start : Program) : List Report → Pass → Program → Prop
  | fresh : History options start [] { options } start
  | execute {reports : List Report} {pass : Pass} {p : Program} (h : History options start reports pass p)
      (j : Journal) : History options start (reports ++ [(pass.execute p j).2]) (pass.execute p j).1.1
        (pass.execute p j).1.2.1

theorem program_workspace (pass : Pass) (p : Program) (j : Journal) : (pass.workspace p j).program = p := rfl

theorem summaries_workspace (pass : Pass) (p : Program) (j : Journal) :
    (pass.workspace p j).summaries = pass.summariesOrEmpty := rfl

/-- A run of the pass is one in its workspace. -/
theorem execute_eq (pass : Pass) (p : Program) (j : Journal) :
    pass.execute p j =
      ((pass.keep ((pass.workspace p j).run pass.options).1, ((pass.workspace p j).run pass.options).1.program,
        ((pass.workspace p j).run pass.options).1.journal), ((pass.workspace p j).run pass.options).2) := by
  unfold execute
  -- as a variable the run is not computed
  generalize (pass.workspace p j).run pass.options = r
  rfl

theorem options_execute (pass : Pass) (p : Program) (j : Journal) :
    (pass.execute p j).1.1.options = pass.options := by
  rw [execute_eq]
  rfl

theorem summaries_execute (pass : Pass) (p : Program) (j : Journal) :
    (pass.execute p j).1.1.summariesOrEmpty = ((pass.workspace p j).run pass.options).1.summaries := by
  rw [execute_eq]
  rfl

/-- What the next run starts from. -/
theorem workspace_execute (pass : Pass) (p : Program) (i j : Journal) :
    (pass.execute p i).1.1.workspace (pass.execute p i).1.2.1 j =
      { ((pass.workspace p i).run pass.options).1 with journal := j } := by
  rw [execute_eq]
  rfl

theorem moves_execute (pass : Pass) (p : Program) (i j : Journal) :
    (pass.workspace p i).Moves (pass.execute p i).2.removed (pass.execute p i).2.clones
      ((pass.execute p i).1.1.workspace (pass.execute p i).1.2.1 j) := by
  have hstep := (Workspace.moves_run pass.options (pass.workspace p i)).step (.note _ j)
  rw [List.append_nil, List.append_nil] at hstep
  rw [workspace_execute, execute_eq]
  exact hstep

/-- Any number of runs is a sequence of moves that removes and makes what the reports say. -/
theorem History.moves {options : Options} {start p : Program} {reports : List Report} {pass : Pass}
    (h : History options start reports pass p) (i j : Journal) :
    Workspace.Moves ⟨start, ∅, i⟩ (reports.flatMap (·.removed)) (reports.flatMap (·.clones))
      (pass.workspace p j) := by
  induction h generalizing j with
  | fresh => exact (Workspace.Move.note ⟨start, ∅, i⟩ j).moves
  | @execute _ pass p _ k ih =>
    rw [List.flatMap_append, List.flatMap_append, List.flatMap_singleton, List.flatMap_singleton]
    exact (ih k).trans (moves_execute pass p k j)

end Pass

end Accelerator
