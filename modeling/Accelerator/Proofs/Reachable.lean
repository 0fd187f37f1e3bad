import Accelerator.Proofs.Layout

/-!
# Programs that come from a text

A text that is accepted has distinct names, mentions only what it defines, and is laid out as a coherent program
(`parse_eq_ok`, `coherent_parse`).  `Program.Reachable` holds of the programs that are made from such a text by
changes to the call graph; all of them are coherent.
-/

namespace Accelerator

/-! ### What a scanner gives -/

namespace Scanner

variable {τ ε α β σ : Type}

/-- Every value that the scanner gives has the property `P`. -/
def Gives (p : Scanner τ ε α) (P : α → Prop) : Prop := ∀ s a r, p s = .ok (a, r) → P a

theorem gives_pure {P : α → Prop} {a : α} (h : P a) : Gives (pure a : Scanner τ ε α) P := by
  intro s b r e
  rw [pure_apply] at e
  cases e
  exact h

private theorem gives_fail {P : α → Prop} (cause : ε) : Gives (fail cause : Scanner τ ε α) P := by
  intro s a r e
  simp [fail] at e

theorem gives_refuse (condition : Bool) (cause : ε) :
    Gives (refuse condition cause : Scanner τ ε Unit) fun _ => condition = false := by
  intro s a r e
  cases condition with
  | true => simp [refuse, fail] at e
  | false => rfl

theorem Gives.bind {p : Scanner τ ε α} {f : α → Scanner τ ε β} {P : α → Prop} {Q : β → Prop} (hp : Gives p P)
    (hf : ∀ a, P a → Gives (f a) Q) : Gives (p >>= f) Q := by
  intro s b r e
  obtain ⟨a, m, h₁, h₂⟩ := bind_eq_ok.1 e
  exact hf a (hp s a m h₁) m b r h₂

/-- What is said about a value may not depend on what was read before. -/
theorem gives_bind {p : Scanner τ ε α} {f : α → Scanner τ ε β} {Q : β → Prop} (hf : ∀ a, Gives (f a) Q) :
    Gives (p >>= f) Q := by
  intro s b r e
  obtain ⟨a, m, -, h₂⟩ := bind_eq_ok.1 e
  exact hf a m b r h₂

/-- A property of the state that every round keeps holds at the end of a loop. -/
theorem gives_loop {round : σ → Scanner τ ε (Option σ)} {h : ∀ a, Progresses (round a)} {P : σ → Prop}
    (hround : ∀ a, P a → Gives (round a) fun o => ∀ b, o = some b → P b) {a : σ} (ha : P a) :
    Gives (loop round h a : Scanner τ ε σ) P := by
  intro s b r hl
  -- along the rounds, with the input that each of them leaves
  fun_induction loop round h a s with
  | case1 => simp at hl
  | case2 c t r' hs =>
    cases hl
    exact ha
  | case3 c t d r' hs _ ih => exact ih (hround _ ha _ _ _ hs d rfl) hl

end Scanner

/-! ### What the grammar gives -/

namespace Source

open Scanner

private theorem gives_markers : Gives markers List.Nodup := by
  refine gives_bind fun opens => ?_
  cases opens with
  | false => exact gives_pure List.nodup_nil
  | true =>
    refine gives_loop (fun ms hms => gives_bind fun closes => ?_) List.nodup_nil
    split
    · exact gives_pure (by simp)
    · refine gives_bind fun word => ?_
      split
      · exact gives_fail _
      · rename_i m _
        refine gives_bind fun _ => gives_pure ?_
        rintro _ ⟨⟩
        split
        · exact hms
        · rename_i hm
          exact hms.append (List.nodup_singleton m) (by simpa using hm)

private theorem gives_function (title : String) :
    Gives (function title) fun f => f.name = title ∧ f.markers.Nodup := by
  refine gives_bind fun args => gives_markers.bind fun ms hms => gives_bind fun words => gives_bind fun bs => ?_
  exact gives_pure ⟨rfl, hms⟩

/-- An entry has a name that was not taken, and no function repeats a marker. -/
private theorem gives_item (items : List (Item Mention)) :
    Gives (item items) fun i => i.name ∉ items.map Item.name ∧ ∀ f, i.function? = some f → f.markers.Nodup := by
  have htaken : ∀ title, taken items title = false → title ∉ items.map Item.name := by
    intro title h
    simpa [taken] using h
  refine gives_bind fun title => gives_bind fun _ => gives_bind fun next => ?_
  split
  · refine gives_bind fun title => (gives_refuse _ _).bind fun _ h => gives_pure ⟨htaken title h, ?_⟩
    intro f hf
    cases hf
  · refine (gives_refuse _ _).bind fun _ h => (gives_function title).bind fun f hf => gives_pure ⟨?_, ?_⟩
    · rw [Item.name, hf.1]
      exact htaken title h
    · rintro _ ⟨⟩
      exact hf.2

theorem gives_program : Gives program fun items =>
    (items.map Item.name).Nodup ∧ ∀ f ∈ functions items, f.markers.Nodup := by
  have hstart : (([] : List (Item Mention)).map Item.name).Nodup ∧
      ∀ f ∈ functions ([] : List (Item Mention)), f.markers.Nodup := ⟨List.nodup_nil, by simp [functions]⟩
  refine gives_loop (fun items hitems => gives_bind fun _ => gives_bind fun s => ?_) hstart
  split
  · exact gives_pure (by simp)
  · refine (gives_item items).bind fun i hi => gives_pure ?_
    rintro _ ⟨⟩
    constructor
    · rw [List.map_append]
      exact hitems.1.append (List.nodup_singleton _) (by simpa using hi.1)
    · intro f hf
      rw [functions, List.filterMap_append, List.mem_append] at hf
      rcases hf with hf | hf
      · exact hitems.2 f hf
      · exact hi.2 f (by simpa using hf)

/-! ### From mentions to names -/

variable {items : List (Item Mention)}

theorem names_map : (items.map (·.map (·.name))).map Item.name = items.map Item.name := by
  rw [List.map_map]
  apply List.map_congr_left
  intro i _
  cases i <;> rfl

theorem functions_map :
    functions (items.map (·.map (·.name))) = (functions items).map (·.map (·.name)) := by
  rw [functions, functions, List.filterMap_map, List.map_filterMap]
  apply List.filterMap_congr
  intro i _
  cases i <;> rfl

private theorem insts_function_map (f : Function Mention) :
    (f.map (·.name)).insts = f.insts.map (·.map (·.name)) := by
  rw [Function.insts, Function.insts, List.map_flatMap, List.flatMap_def, List.flatMap_def]
  cases hb : f.body <;> simp [Function.map, Function.blocks, hb, Block.map, Function.comp_def]

theorem insts_map : insts (items.map (·.map (·.name))) = (insts items).map (·.map (·.name)) := by
  rw [insts, insts, functions_map, List.flatMap_map, List.map_flatMap]
  exact List.flatMap_congr fun f _ => insts_function_map f

theorem called_map : called (items.map (·.map (·.name))) = (called items).map (·.name) := by
  rw [called, called, insts_map, List.filterMap_map, List.map_filterMap]
  apply List.filterMap_congr
  intro i _
  simp only [Function.comp_apply, Inst.map]
  cases i.action <;> rfl

/-- If every mention is defined, every call is one of a function. -/
theorem wellNamed_of_resolved (hn : (items.map Item.name).Nodup) (hm : ∀ f ∈ functions items, f.markers.Nodup)
    (hr : unresolved? items = none) : WellNamed (items.map (·.map (·.name))) := by
  constructor
  · rwa [names_map]
  · intro f hf
    rw [functions_map, List.mem_map] at hf
    obtain ⟨g, hg, rfl⟩ := hf
    exact hm g hg
  · intro title ht
    rw [called_map, List.mem_map] at ht
    obtain ⟨m, hmem, rfl⟩ := ht
    have hfind : (called items).find? (fun m => !((functions items).map (·.name)).contains m.name) = none := by
      simp only [unresolved?] at hr
      split at hr
      · cases hr
      · assumption
    have := List.find?_eq_none.mp hfind m hmem
    rw [functions_map, List.map_map]
    simpa [Function.map] using this

end Source

namespace Program

/-- A text that is accepted is laid out from a tree with distinct names. -/
theorem parse_eq_ok {text : String} {p : Program} (h : Program.parse text = .ok p) :
    ∃ items, Source.WellNamed items ∧ p = Source.layOut items := by
  unfold Program.parse at h
  simp only at h
  split at h
  · cases h
  · rename_i items rest hprog
    split at h
    · cases h
    · rename_i hres
      cases h
      obtain ⟨hn, hm⟩ := Source.gives_program _ _ _ hprog
      exact ⟨_, Source.wellNamed_of_resolved hn hm hres, rfl⟩

theorem coherent_parse {text : String} {p : Program} (h : Program.parse text = .ok p) : p.Coherent := by
  obtain ⟨items, hitems, rfl⟩ := parse_eq_ok h
  exact hitems.coherent_layOut

/-- The programs that are made from a text by changes to the call graph.  A clone is made of a live function, a call
is sent to a live function, and a live function is removed. -/
inductive Reachable : Program → Prop
  | parse {text : String} {p : Program} (h : Program.parse text = .ok p) : Reachable p
  | getOrDeclare {p : Program} (h : Reachable p) (title : String) : Reachable (p.getOrDeclare title).2
  | addMarker {p : Program} (h : Reachable p) (n : Node) (m : Marker) : Reachable (p.addMarker n m)
  | removeMarker {p : Program} (h : Reachable p) (n : Node) (m : Marker) : Reachable (p.removeMarker n m)
  | setPublic {p : Program} (h : Reachable p) (n : Node) (value : Bool) : Reachable (p.setPublic n value)
  | setExternallyVisible {p : Program} (h : Reachable p) (n : Node) (value : Bool) :
      Reachable (p.setExternallyVisible n value)
  | setForceOutput {p : Program} (h : Reachable p) (n : Node) (value : Bool) : Reachable (p.setForceOutput n value)
  | clone {p : Program} (h : Reachable p) {n : Node} (hn : n ∈ p.live) (suffix : String) :
      Reachable (p.clone n suffix).2
  | redirect {p : Program} (h : Reachable p) (e : Nat) {n : Node} (hn : n ∈ p.live) : Reachable (p.redirect e n)
  | remove {p : Program} (h : Reachable p) {n : Node} (hn : n ∈ p.live) : Reachable (p.remove n)

/-- Every reachable program is coherent: each change keeps it so. -/
theorem Reachable.coherent {p : Program} (h : Reachable p) : p.Coherent := by
  induction h with
  | parse h => exact coherent_parse h
  | getOrDeclare _ title ih => exact ih.getOrDeclare title
  | addMarker _ n m ih => exact ih.modifyFunction (mild_addMarker m) n
  | removeMarker _ n m ih => exact ih.modifyFunction (mild_removeMarker m) n
  | setPublic _ n value ih => exact ih.modifyFunction (mild_setPublic value) n
  | setExternallyVisible _ n value ih => exact ih.modifyFunction (mild_setExternallyVisible value) n
  | setForceOutput _ n value ih => exact ih.modifyFunction (mild_setForceOutput value) n
  | clone _ hn suffix ih => exact ih.clone hn suffix
  | redirect _ e hn ih => exact ih.redirect e hn
  | remove _ hn ih => exact ih.remove hn

/-- In every reachable program a name leads to the live function that has it, the calls of a live function are the edges
that were not removed and have it as their caller, and such an edge ends at a live function.  Removed functions make no
calls, no function repeats a marker or is both local and visible, and all places lie inside their tables. -/
theorem Reachable.tables_agree {p : Program} (h : Reachable p) :
    (∀ t n, p.names[t]? = some n ↔ n ∈ p.live ∧ p.name n = t) ∧
    (∀ m ∈ p.live, ∀ n ∈ p.live, p.name m = p.name n → m = n) ∧
    (∀ n ∈ p.live, (p.function n).callees.Nodup ∧ ∀ e, e ∈ (p.function n).callees ↔
      e < p.edges.size ∧ (p.edge e).removed = false ∧ (p.edge e).caller = n) ∧
    (∀ e < p.edges.size, (p.edge e).removed = false → (p.edge e).caller ∈ p.live ∧ (p.edge e).callee ∈ p.live) ∧
    (∀ n < p.functions.size,
      ((p.function n).removed = true → (p.function n).callees = []) ∧ (p.function n).markers.Nodup ∧
      ¬((p.function n).flags.isLocal = true ∧ (p.function n).flags.externallyVisible = true) ∧
      (p.function n).body.Within p.blocks.size ∧ ∀ e ∈ (p.function n).callees, e < p.edges.size) ∧
    (∀ b ∈ p.blocks, b.insts.Within p.insts.size) ∧
    ∀ i ∈ p.insts, i.operands.Within p.operands.size := by
  have hco := h.coherent
  refine ⟨hco.names, fun m hm n hn => hco.eq_of_name_eq hm hn, fun n hn => ⟨hco.nodup n hn, hco.callees n hn⟩,
    hco.ends, fun n hn => ?_, hco.blocks, hco.insts⟩
  have htidy := hco.tidy n
  refine ⟨htidy.callees, htidy.markers, htidy.visible, htidy.body, fun e he => ?_⟩
  -- a removed function has no calls, so the function is live
  have hr : (p.function n).removed = false := by
    by_contra hr
    rw [htidy.callees (by simpa using hr)] at he
    cases he
  exact hco.lt_of_mem_callees (mem_live.mpr ⟨hn, hr⟩) he

/-- A function that calls itself once and another function twice. -/
def loopItems : List (Source.Item String) :=
  [.function ⟨"f", [], [], {}, some [⟨"entry", [⟨none, .call "f" {}, []⟩, ⟨none, .call "g" {}, []⟩,
      ⟨none, .call "g" {}, []⟩, ⟨none, .other "ret", []⟩]⟩]⟩,
   .function ⟨"g", [], [], {}, some [⟨"entry", [⟨none, .other "ret", []⟩]⟩]⟩]

def loopText : String :=
  "f() \x7b\nentry: call @f()\ncall @g()\ncall @g()\nret\n\x7d\ng() \x7b entry: ret \x7d"

/-- The function is cloned, the clone calls itself, and the other function is replaced by a declaration. -/
def loopProgram : Program :=
  (((((Source.layOut loopItems).clone 0 "hsa").2.redirect 3 2).remove 1).getOrDeclare "g").2

private theorem reachable_loopProgram : loopProgram.Reachable := by
  have hparse : Program.parse loopText = .ok (Source.layOut loopItems) := by decide +kernel
  have hclone := (Reachable.parse hparse).clone (n := 0) (by decide +kernel) "hsa"
  exact ((hclone.redirect 3 (n := 2) (by decide +kernel)).remove (n := 1) (by decide +kernel)).getOrDeclare "g"

theorem tables_agree_loopProgram :
    (loopProgram.live = [0, 2, 3] ∧ loopProgram.edgesOf 0 = [⟨0, 0, false, false⟩] ∧
      loopProgram.edgesOf 2 = [⟨2, 2, false, false⟩] ∧ loopProgram.names["g"]? = some 3) ∧
    (∀ t n, loopProgram.names[t]? = some n ↔ n ∈ loopProgram.live ∧ loopProgram.name n = t) ∧
    (∀ m ∈ loopProgram.live, ∀ n ∈ loopProgram.live, loopProgram.name m = loopProgram.name n → m = n) ∧
    (∀ n ∈ loopProgram.live, (loopProgram.function n).callees.Nodup ∧ ∀ e, e ∈ (loopProgram.function n).callees ↔
      e < loopProgram.edges.size ∧ (loopProgram.edge e).removed = false ∧ (loopProgram.edge e).caller = n) ∧
    (∀ e < loopProgram.edges.size, (loopProgram.edge e).removed = false →
      (loopProgram.edge e).caller ∈ loopProgram.live ∧ (loopProgram.edge e).callee ∈ loopProgram.live) ∧
    (∀ n < loopProgram.functions.size,
      ((loopProgram.function n).removed = true → (loopProgram.function n).callees = []) ∧
      (loopProgram.function n).markers.Nodup ∧
      ¬((loopProgram.function n).flags.isLocal = true ∧ (loopProgram.function n).flags.externallyVisible = true) ∧
      (loopProgram.function n).body.Within loopProgram.blocks.size ∧
      ∀ e ∈ (loopProgram.function n).callees, e < loopProgram.edges.size) ∧
    (∀ b ∈ loopProgram.blocks, b.insts.Within loopProgram.insts.size) ∧
    ∀ i ∈ loopProgram.insts, i.operands.Within loopProgram.operands.size :=
  ⟨by decide +kernel, reachable_loopProgram.tables_agree⟩

end Program

end Accelerator
