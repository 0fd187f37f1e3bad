import Accelerator.Proofs.Loading

/-!
# Summaries of functions that are there

A node is only a place in a table, so a summary could outlive its function, and a function could be bound to one that
was removed.  Neither happens (`Anchored`): runs look at live functions only and forget what they remove, and a stream
can name a function only through the roster of the program or by a name, which leads to a live function.  This holds
after any runs and any streams, in any order, also if streams are refused half-way.
-/

namespace Accelerator

namespace Workspace

/-- The tables of a program fit together, and what the summaries speak of is there: the functions that were looked at,
and those that functions are bound to. -/
structure Anchored (p : Program) (s : Summaries) : Prop where
  coherent : p.Coherent
  entry : ∀ n ∈ s, n ∈ p.live
  bound : ∀ n b, (s.of n).bound = some b → b ∈ p.live

variable {p q : Program} {s : Summaries} {w v : Workspace} {gone made : List Node} {n : Node}

private theorem anchored_empty (hp : p.Coherent) : Anchored p ∅ := by
  refine ⟨hp, fun n hn => ?_, fun n b hb => ?_⟩
  · exact absurd hn Std.ExtTreeMap.not_mem_empty
  · rw [Summaries.of_empty] at hb
    cases hb

private theorem Anchored.of_live (h : Anchored p s) (hq : q.Coherent) (hl : ∀ n ∈ p.live, n ∈ q.live) : Anchored q s :=
  ⟨hq, fun n hn => hl n (h.entry n hn), fun n b hb => hl b (h.bound n b hb)⟩

private theorem Anchored.modifyFunction (h : Anchored p s) {f : Program.Function → Program.Function}
    (hf : Program.Mild f) (n : Node) : Anchored (p.modifyFunction n f) s := by
  refine h.of_live (h.coherent.modifyFunction hf n) fun m hm => ?_
  rw [Program.live_modifyFunction hf.removed]
  exact hm

/-- The summary of a live function may be replaced by one that is bound to a live function, if at all. -/
private theorem Anchored.update_of_live (h : Anchored p s) (hn : n ∈ p.live) {f : Summary → Summary}
    (hf : ∀ b, (f (s.of n)).bound = some b → b ∈ p.live) : Anchored p (s.update n f) := by
  refine ⟨h.coherent, fun m hm => ?_, fun m b hb => ?_⟩
  · rcases (Summaries.mem_update s m n f).mp hm with rfl | hm
    · exact hn
    · exact h.entry m hm
  · rw [Summaries.of_update] at hb
    split at hb
    · exact hf b hb
    · exact h.bound m b hb

private theorem Anchored.update (h : Anchored p s) (hn : n ∈ p.live) {f : Summary → Summary}
    (hf : ∀ e, (f e).bound = e.bound) : Anchored p (s.update n f) := by
  refine h.update_of_live hn fun b hb => ?_
  rw [hf] at hb
  exact h.bound n b hb

/-! ### Moves -/

private theorem Anchored.discard (h : Anchored p s) (hn : n ∈ p.live) : Anchored (p.remove n) (s.forget n) := by
  have hlive : ∀ m, m ∈ (p.remove n).live ↔ m ≠ n ∧ m ∈ p.live := fun m =>
    Program.mem_live_remove (Program.lt_size_of_mem_live hn)
  refine ⟨h.coherent.remove hn, fun m hm => ?_, fun m b hb => ?_⟩
  · obtain ⟨hne, hm⟩ := (Summaries.mem_forget s m n).mp hm
    exact (hlive m).mpr ⟨hne, h.entry m hm⟩
  · rw [Summaries.of_forget] at hb
    split at hb
    · cases hb
    · -- a binding to the removed function would have been cleared
      dsimp only at hb
      split at hb
      · cases hb
      · rename_i hne
        refine (hlive b).mpr ⟨fun he => hne (he ▸ hb), h.bound m b hb⟩

private theorem Anchored.withTwin (h : Anchored w.program w.summaries) (hn : n ∈ w.program.live) (kind : Kind)
    (isPublic : Bool) : Anchored (w.withTwin n kind isPublic).program (w.withTwin n kind isPublic).summaries := by
  have hlive : ∀ m, m ∈ (w.withTwin n kind isPublic).program.live ↔ m = w.program.functions.size ∨ m ∈ w.program.live :=
    fun m => Program.mem_live_withTwin _ _ _
  refine ⟨h.coherent.withTwin hn isPublic, fun m hm => ?_, fun m b hb => ?_⟩
  · rw [hlive]
    rcases (Summaries.mem_link _ _ _ _ _).mp hm with rfl | rfl | hm
    · exact .inr hn
    · exact .inl rfl
    · exact .inr (h.entry m hm)
  · rw [hlive]
    rw [Workspace.withTwin, Summaries.of_link] at hb
    split at hb
    · cases hb
      exact .inl rfl
    · split at hb
      · cases hb
      · exact .inr (h.bound m b hb)

private theorem Move.anchored (hm : Move w gone made v) (h : Anchored w.program w.summaries) :
    Anchored v.program v.summaries := by
  cases hm with
  | note => exact h
  | touch hn => exact h.update hn fun e => rfl
  | mark => exact h.modifyFunction (Program.mild_addMarker _) _
  | unmark => exact h.modifyFunction (Program.mild_removeMarker _) _
  | publish => exact h.modifyFunction (Program.mild_setPublic _) _
  | discard hn => exact h.discard (Program.mem_definitions.mp hn).1
  | settle hn =>
    dsimp only
    exact h.update hn fun e => rfl
  | classify hn =>
    dsimp only
    exact h.update hn fun e => rfl
  | twin hn => exact h.withTwin hn _ _
  | redirect _ _ _ hb =>
    exact h.of_live (h.coherent.redirect _ (h.bound _ _ (bound_of_twinOf? hb))) fun _ hn => hn

private theorem Moves.anchored (hm : Moves w gone made v) (h : Anchored w.program w.summaries) :
    Anchored v.program v.summaries := by
  induction hm with
  | refl => exact h
  | step _ hmove ih => exact hmove.anchored ih

end Workspace

open Workspace (Anchored)

/-! ### Streams -/

/-- A record about a live function: the function that it is bound to is found under its name or declared. -/
private theorem Stream.anchored_apply {p : Program} {s : Summaries} {n : Node} (h : Anchored p s) (hn : n ∈ p.live)
    (r : Record) :
    Anchored (r.apply n (p, s)).1 (r.apply n (p, s)).2 ∧ ∀ m ∈ p.live, m ∈ (r.apply n (p, s)).1.live := by
  unfold Record.apply
  cases r.bound with
  | none =>
    dsimp only
    exact ⟨h.update hn fun e => rfl, fun m hm => hm⟩
  | some title =>
    dsimp only
    obtain ⟨hb, hl⟩ := h.coherent.live_getOrDeclare title
    have hdeclared := h.of_live (h.coherent.getOrDeclare title) hl
    refine ⟨hdeclared.update_of_live (hl n hn) fun b hbound => ?_, hl⟩
    cases hbound
    exact hb

namespace Pass

variable {text : String} {options : Options} {start p : Program} {pass : Pass}

/-- What a fresh pass and a program become by runs and by streams, in any order.  A stream is read with the roster of
the program as it is, and whether it is accepted does not matter. -/
inductive Usage (options : Options) (start : Program) : Pass → Program → Prop
  | fresh : Usage options start { options } start
  | execute {pass : Pass} {p : Program} (h : Usage options start pass p) (j : Journal) :
      Usage options start (pass.execute p j).1.1 (pass.execute p j).1.2.1
  | readStream {pass : Pass} {p : Program} (h : Usage options start pass p) (bytes : List UInt8) :
      Usage options start (pass.readStream p (Roster.ofProgram p) bytes).1.1
        (pass.readStream p (Roster.ofProgram p) bytes).1.2

private theorem anchored_readStream (h : Anchored p pass.summariesOrEmpty) (bytes : List UInt8) :
    Anchored (pass.readStream p (Roster.ofProgram p) bytes).1.2
      (pass.readStream p (Roster.ofProgram p) bytes).1.1.summariesOrEmpty := by
  -- the functions on the roster stay live while the stream is read
  let P : Program × Summaries → Prop := fun state =>
    Anchored state.1 state.2 ∧ ∀ n ∈ (Roster.ofProgram p).nodes, n ∈ state.1.live
  have hstep : ∀ (state : Program × Summaries) (r : Stream.Record), ∀ n ∈ (Roster.ofProgram p).nodes,
      (state.1.function n).flags.definition = true → P state → P (r.apply n state) := by
    intro state r n hn _ hstate
    obtain ⟨happly, hkeep⟩ := Stream.anchored_apply hstate.1 (hstate.2 n hn) r
    exact ⟨happly, fun m hm => hkeep m (hstate.2 m hm)⟩
  have hstart : P (p, pass.summariesOrEmpty) := ⟨h, fun n hn => nodes_ofProgram p ▸ hn⟩
  exact (readAll_induction hstep hstart [bytes] 0).1

private theorem Usage.anchored (hstart : start.Coherent) (h : Usage options start pass p) :
    Anchored p pass.summariesOrEmpty := by
  induction h with
  | fresh => exact Workspace.anchored_empty hstart
  | @execute pass p _ j ih =>
    have hmoves := moves_execute pass p j j
    generalize pass.execute p j = done at hmoves ⊢
    exact hmoves.anchored ih
  | readStream _ bytes ih => exact anchored_readStream ih bytes

/-- After any runs and any streams, each function that has an entry in the summaries is live, and so is each function
that another one is bound to. -/
theorem entries_live (hparse : Program.parse text = .ok start) (h : Usage options start pass p) :
    (∀ n ∈ pass.summariesOrEmpty, n ∈ p.live) ∧
    ∀ (n : Node) (e : Summary), pass.summariesOrEmpty[n]? = some e → ∀ b, e.bound = some b → b ∈ p.live := by
  have hanchored := h.anchored (Program.coherent_parse hparse)
  refine ⟨hanchored.entry, fun n e he b hb => hanchored.bound n b ?_⟩
  rw [Summaries.of, Std.ExtTreeMap.getD_eq_getD_getElem?, he]
  exact hb

/-- A run after a function was bound to a kernel, which the run removes. -/
def boundRun : (Pass × Program × Journal) × Report := boundLoaded.1.1.execute boundLoaded.1.2 {}

/-- A stream that binds the function to one that is declared for it, and is then refused. -/
def boundCut : (Pass × Program) × Except Error Nat :=
  boundRun.1.1.readStream boundRun.1.2.1 (Roster.ofProgram boundRun.1.2.1) [2, 0, 10, 3, 110, 101, 119, 9]

private theorem usage_boundCut : Usage { parallel := true } (Source.layOut boundItems) boundCut.1.1 boundCut.1.2 := by
  have hloaded : Usage { parallel := true } (Source.layOut boundItems) boundLoaded.1.1 boundLoaded.1.2 :=
    Usage.fresh.readStream boundStream
  have hrun := hloaded.execute {}
  rw [← boundRun] at hrun
  exact hrun.readStream _

/-- The kernel has gone from the summaries, the declared function is there. -/
theorem entries_live_boundCut :
    (boundLoaded.1.1.summariesOrEmpty.of 0).bound = some 1 ∧ boundRun.2.removed = [1] ∧
    boundCut.2.toOption = none ∧ boundCut.1.1.summariesOrEmpty[0]? = some ⟨.function, false, some 3⟩ ∧
    (∀ n ∈ boundCut.1.1.summariesOrEmpty, n ∈ boundCut.1.2.live) ∧
    ∀ (n : Node) (e : Summary), boundCut.1.1.summariesOrEmpty[n]? = some e → ∀ b, e.bound = some b →
      b ∈ boundCut.1.2.live :=
  ⟨by decide +kernel, by decide +kernel, by decide +kernel, by decide +kernel,
    entries_live parse_boundText usage_boundCut⟩

end Pass

end Accelerator
