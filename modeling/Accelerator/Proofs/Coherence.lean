import Accelerator.Program.Layout
import Accelerator.Proofs.Lookup

/-!
# Programs whose tables fit together

`Program.Coherent` says how the tables of a program belong together: the known names are those of the live
functions, the calls of a live function are the edges that were not removed and have it as their caller, and every
span lies inside its table.  Each change to the call graph keeps a program coherent; clones and redirected calls
have to stay with live functions, and only a live function may be removed.
-/

namespace Accelerator

/-- A span of a table with `size` entries. -/
def Span.Within (s : Span) (size : Nat) : Prop := s.start ≤ s.stop ∧ s.stop ≤ size

namespace Program

/-- What holds of every function by itself, in a program with `size` blocks. -/
structure Function.Tidy (f : Function) (size : Nat) : Prop where
  callees : f.removed = true → f.callees = []
  markers : f.markers.Nodup
  visible : ¬(f.flags.isLocal = true ∧ f.flags.externallyVisible = true)
  body : f.body.Within size

/-- The tables of a program fit together. -/
structure Coherent (p : Program) : Prop where
  names : ∀ t n, p.names[t]? = some n ↔ n ∈ p.live ∧ p.name n = t
  tidy : ∀ n, (p.function n).Tidy p.blocks.size
  nodup : ∀ n ∈ p.live, (p.function n).callees.Nodup
  callees : ∀ n ∈ p.live, ∀ e, e ∈ (p.function n).callees ↔
    e < p.edges.size ∧ (p.edge e).removed = false ∧ (p.edge e).caller = n
  ends : ∀ e < p.edges.size, (p.edge e).removed = false →
    (p.edge e).caller ∈ p.live ∧ (p.edge e).callee ∈ p.live
  blocks : ∀ b ∈ p.blocks, b.insts.Within p.insts.size
  insts : ∀ i ∈ p.insts, i.operands.Within p.operands.size

variable {p : Program} {m n : Node} {e : Nat}

theorem tidy_default (size : Nat) : (default : Function).Tidy size where
  callees _ := rfl
  markers := List.nodup_nil
  visible h := Bool.false_ne_true h.1
  body := ⟨Nat.le_refl 0, Nat.zero_le _⟩

namespace Coherent

/-- A live function is found under its name. -/
theorem names_of_live (h : p.Coherent) (hn : n ∈ p.live) : p.names[p.name n]? = some n :=
  (h.names _ _).mpr ⟨hn, rfl⟩

/-- Live functions have different names. -/
theorem eq_of_name_eq (h : p.Coherent) (hm : m ∈ p.live) (hn : n ∈ p.live) (he : p.name m = p.name n) : m = n := by
  have h₁ := h.names_of_live hm
  rw [he, h.names_of_live hn] at h₁
  exact (Option.some.inj h₁).symm

theorem lt_of_mem_callees (h : p.Coherent) (hn : n ∈ p.live) (he : e ∈ (p.function n).callees) :
    e < p.edges.size := ((h.callees n hn e).mp he).1

theorem caller_eq (h : p.Coherent) (hn : n ∈ p.live) (he : e ∈ (p.function n).callees) :
    (p.edge e).caller = n := ((h.callees n hn e).mp he).2.2

/-- The calls of a live function go to live functions. -/
theorem callee_live (h : p.Coherent) (hn : n ∈ p.live) (he : e ∈ (p.function n).callees) :
    (p.edge e).callee ∈ p.live := by
  obtain ⟨hlt, hr, -⟩ := (h.callees n hn e).mp he
  exact (h.ends e hlt hr).2

end Coherent

/-! ### Markers and flags -/

/-- A change to a function that keeps what the tables of a program refer to. -/
structure Mild (f : Function → Function) : Prop where
  name : ∀ x, (f x).name = x.name
  removed : ∀ x, (f x).removed = x.removed
  callees : ∀ x, (f x).callees = x.callees
  tidy : ∀ x size, x.Tidy size → (f x).Tidy size

theorem Coherent.modifyFunction {f : Function → Function} (h : p.Coherent) (hf : Mild f) (n : Node) :
    (p.modifyFunction n f).Coherent := by
  have hl := live_modifyFunction hf.removed p n
  have hc := function_modifyFunction_of_eq (·.callees) hf.callees p n
  have hn := function_modifyFunction_of_eq (·.name) hf.name p n
  constructor
  · intro t m
    rw [hl]
    exact (h.names t m).trans (and_congr_right fun _ => by rw [Program.name, Program.name, hn m])
  · intro m
    rw [function_modifyFunction]
    split
    · exact hf.tidy _ _ (h.tidy m)
    · exact h.tidy m
  · intro m hm
    rw [hc m]
    exact h.nodup m (hl ▸ hm)
  · intro m hm e
    rw [hc m]
    exact h.callees m (hl ▸ hm) e
  · intro e he hr
    rw [hl]
    exact h.ends e he hr
  · exact h.blocks
  · exact h.insts

theorem mild_addMarker (k : Marker) :
    Mild fun f => { f with markers := if k ∈ f.markers then f.markers else f.markers ++ [k] } where
  name _ := rfl
  removed _ := rfl
  callees _ := rfl
  tidy x _ hx := by
    refine { hx with markers := ?_ }
    have := hx.markers
    dsimp only
    split
    · exact this
    · simp_all [List.nodup_append]
      grind

theorem mild_removeMarker (k : Marker) : Mild fun f => { f with markers := f.markers.filter (· != k) } where
  name _ := rfl
  removed _ := rfl
  callees _ := rfl
  tidy _ _ hx := { hx with markers := hx.markers.filter _ }

theorem mild_setPublic (value : Bool) : Mild fun f => { f with traits.isPublic := value } where
  name _ := rfl
  removed _ := rfl
  callees _ := rfl
  tidy _ _ hx := { hx with }

theorem mild_setExternallyVisible (value : Bool) :
    Mild fun f => { f with flags.externallyVisible := value, flags.isLocal := f.flags.isLocal && !value } where
  name _ := rfl
  removed _ := rfl
  callees _ := rfl
  tidy x _ hx := { hx with visible := by cases value <;> simp }

theorem mild_setForceOutput (value : Bool) : Mild fun f => { f with flags.forceOutput := value } where
  name _ := rfl
  removed _ := rfl
  callees _ := rfl
  tidy _ _ hx := { hx with }

/-! ### New functions -/

section

variable {f : Function} {a : Array Edge} {c : Std.ExtTreeMap String Nat}

/-- The new name is that of the new function, and no old name is lost. -/
private theorem Coherent.names_extend (h : p.Coherent) (hname : p.names[f.name]? = none) (t : String) (m : Node) :
    (p.extend f a c).names[t]? = some m ↔
      (m = p.functions.size ∨ m ∈ p.live) ∧ (p.extend f a c).name m = t := by
  rw [Program.names_extend, Program.name, function_extend]
  by_cases hm : m = p.functions.size
  · subst hm
    by_cases ht : t = f.name
    · simp [ht]
    · simp only [ht, if_false, if_true, true_or, true_and]
      constructor
      · intro hk
        exact absurd (lt_size_of_mem_live ((h.names _ _).mp hk).1) (Nat.lt_irrefl _)
      · exact fun hk => absurd hk.symm ht
  · simp only [hm, if_false, false_or]
    by_cases ht : t = f.name
    · subst ht
      have hno : ¬(m ∈ p.live ∧ p.name m = f.name) := fun hk => by
        rw [(h.names _ _).mpr hk] at hname
        cases hname
      rw [if_pos rfl]
      exact ⟨fun hk => absurd (Option.some.inj hk).symm hm, fun hk => absurd hk hno⟩
    · rw [if_neg ht]
      exact h.names t m

variable (hnew : ∀ x ∈ a, x.caller = p.functions.size ∧ x.callee ∈ p.live ∧ x.removed = false)
include hnew

/-- The calls of the new function are the new edges: no old one has it as its caller. -/
private theorem Coherent.mem_callees_extend_new (h : p.Coherent) (hc : f.callees = List.range' p.edges.size a.size) :
    e ∈ f.callees ↔ e < (p.extend f a c).edges.size ∧ ((p.extend f a c).edge e).removed = false ∧
      ((p.extend f a c).edge e).caller = p.functions.size := by
  rw [hc, List.mem_range'_1]
  constructor
  · rintro ⟨h₁, h₂⟩
    have he : e < (p.extend f a c).edges.size := by
      rw [size_edges_extend]
      exact h₂
    rcases edge_extend_cases he with ⟨hlt, -⟩ | ⟨-, hx⟩
    · omega
    · exact ⟨he, (hnew _ hx).2.2, (hnew _ hx).1⟩
  · rintro ⟨he, hrem, hcaller⟩
    rcases edge_extend_cases he with ⟨hlt, heq⟩ | ⟨hle, -⟩
    -- the caller of an old edge is live, so it is not the new node
    · rw [heq] at hrem hcaller
      have := lt_size_of_mem_live (h.ends e hlt hrem).1
      rw [hcaller] at this
      exact absurd this (Nat.lt_irrefl _)
    · rw [size_edges_extend] at he
      exact ⟨hle, he⟩

/-- The calls of an old function are its old edges. -/
private theorem Coherent.mem_callees_extend_old (h : p.Coherent) (hn : n ∈ p.live) :
    e ∈ (p.function n).callees ↔ e < (p.extend f a c).edges.size ∧ ((p.extend f a c).edge e).removed = false ∧
      ((p.extend f a c).edge e).caller = n := by
  rw [h.callees n hn]
  constructor
  · rintro ⟨he, hrem, hcaller⟩
    rw [edge_extend_old he, size_edges_extend]
    exact ⟨by omega, hrem, hcaller⟩
  · rintro ⟨he, hrem, hcaller⟩
    rcases edge_extend_cases he with ⟨hlt, heq⟩ | ⟨-, hx⟩
    · rw [heq] at hrem hcaller
      exact ⟨hlt, hrem, hcaller⟩
    · rw [(hnew _ hx).1] at hcaller
      exact absurd hcaller (Nat.ne_of_gt (lt_size_of_mem_live hn))

/-- A function under a free name may be added together with the edges of its calls to live functions. -/
private theorem Coherent.extend (h : p.Coherent) (hname : p.names[f.name]? = none) (hr : f.removed = false)
    (ht : f.Tidy p.blocks.size) (hc : f.callees = List.range' p.edges.size a.size) : (p.extend f a c).Coherent := by
  have hlive : ∀ m, m ∈ (p.extend f a c).live ↔ m = p.functions.size ∨ m ∈ p.live := fun m => mem_live_extend hr
  have hold : ∀ m ∈ p.live, (p.extend f a c).function m = p.function m := fun m hm =>
    function_extend_old (lt_size_of_mem_live hm)
  constructor
  · intro t m
    rw [hlive]
    exact h.names_extend hname t m
  · intro m
    rw [function_extend]
    split
    · exact ht
    · exact h.tidy m
  · intro m hm
    rcases (hlive m).mp hm with rfl | hm
    · rw [function_extend_new, hc]
      exact List.nodup_range'
    · rw [hold m hm]
      exact h.nodup m hm
  · intro m hm e
    rcases (hlive m).mp hm with rfl | hm
    · rw [function_extend_new]
      exact h.mem_callees_extend_new hnew hc
    · rw [hold m hm]
      exact h.mem_callees_extend_old hnew hm
  · intro e he hrem
    rw [hlive, hlive]
    rcases edge_extend_cases he with ⟨hlt, heq⟩ | ⟨-, hx⟩
    · rw [heq] at hrem ⊢
      obtain ⟨h₁, h₂⟩ := h.ends e hlt hrem
      exact ⟨.inr h₁, .inr h₂⟩
    · obtain ⟨h₁, h₂, -⟩ := hnew _ hx
      exact ⟨.inl h₁, .inr h₂⟩
  · exact h.blocks
  · exact h.insts

end

theorem Coherent.getOrDeclare (h : p.Coherent) (title : String) : (p.getOrDeclare title).2.Coherent := by
  unfold Program.getOrDeclare
  split
  · exact h
  · rename_i hnone
    have ht : (declaration title).Tidy p.blocks.size :=
      { tidy_default _ with visible := fun hv => Bool.false_ne_true hv.1 }
    have hnew := h.extend (a := #[]) (c := p.cloneCounts) (by simp) hnone rfl ht rfl
    simpa [Program.extend] using hnew

/-- The node with a name is live afterwards, and so is what was live before. -/
theorem Coherent.live_getOrDeclare (h : p.Coherent) (title : String) :
    (p.getOrDeclare title).1 ∈ (p.getOrDeclare title).2.live ∧
      ∀ m ∈ p.live, m ∈ (p.getOrDeclare title).2.live := by
  unfold Program.getOrDeclare
  split
  · rename_i n hn
    exact ⟨((h.names title n).mp hn).1, fun m hm => hm⟩
  · have hlive : ∀ m, m ∈ (p.addFunction (declaration title)).live ↔ m = p.functions.size ∨ m ∈ p.live := fun m =>
      mem_live_extend (a := #[]) (c := p.cloneCounts) rfl
    exact ⟨(hlive _).mpr (.inl rfl), fun m hm => (hlive m).mpr (.inr hm)⟩

/-! ### Clones -/

theorem cloneTitle_inj {base suffix : String} {i j : Nat} (h : cloneTitle base suffix i = cloneTitle base suffix j) :
    i = j := by
  have h' : toString i = toString j := by simpa [cloneTitle] using h
  exact Nat.repr_inj.mp h'

/-- The name that a clone gets is free: more names are tried than are known. -/
theorem names_cloneTitle (p : Program) (base suffix : String) :
    p.names[cloneTitle base suffix (p.cloneNumber base suffix)]? = none := by
  let tried := List.range' (p.cloneCounts.getD base 0) (p.names.size + 1)
  have hdef : p.cloneNumber base suffix =
      (tried.find? fun k => !p.names.contains (cloneTitle base suffix k)).getD (p.cloneCounts.getD base 0) := rfl
  cases hf : tried.find? fun k => !p.names.contains (cloneTitle base suffix k) with
  | some k =>
    have := List.find?_some hf
    rw [hdef, hf, Option.getD_some]
    exact Std.ExtTreeMap.getElem?_eq_none_of_contains_eq_false (by simpa using this)
  | none =>
    exfalso
    have hsub : tried.map (cloneTitle base suffix) ⊆ p.names.keys := by
      intro t ht
      obtain ⟨k, hk, rfl⟩ := List.mem_map.mp ht
      have := List.find?_eq_none.mp hf k hk
      rw [Std.ExtTreeMap.mem_keys]
      simpa using this
    have hnd : (tried.map (cloneTitle base suffix)).Nodup :=
      (List.nodup_range' (s := _) (n := _)).map fun _ _ => cloneTitle_inj
    have := hnd.length_le_of_subset hsub
    rw [Std.ExtTreeMap.length_keys, List.length_map, List.length_range'] at this
    omega

/-- A clone of a live function keeps a program coherent. -/
theorem Coherent.clone (h : p.Coherent) (hn : n ∈ p.live) (suffix : String) :
    (p.clone n suffix).2.Coherent := by
  have ht : (p.copyOf n suffix).Tidy p.blocks.size :=
    { h.tidy n with callees := fun hr => Bool.noConfusion hr, visible := fun hv => Bool.noConfusion hv.2 }
  rw [clone_eq_extend]
  refine h.extend ?_ (names_cloneTitle p (p.name n) suffix) rfl ht ?_
  · intro x hx
    rw [List.mem_toArray, List.mem_map] at hx
    obtain ⟨y, hy, rfl⟩ := hx
    obtain ⟨e, he, rfl⟩ := List.mem_map.mp hy
    exact ⟨rfl, h.callee_live hn he, ((h.callees n hn e).mp he).2.1⟩
  · simp [copyOf]

/-! ### Calls and removal -/

/-- A call may be sent to any live function. -/
theorem Coherent.redirect (h : p.Coherent) (e : Nat) (hm : m ∈ p.live) : (p.redirect e m).Coherent := by
  have hrem : ∀ i, ((p.redirect e m).edge i).removed = (p.edge i).removed := by
    intro i; rw [edge_redirect]; split <;> rfl
  have hcaller : ∀ i, ((p.redirect e m).edge i).caller = (p.edge i).caller := by
    intro i; rw [edge_redirect]; split <;> rfl
  refine { h with callees := ?_, ends := ?_ }
  · intro k hk i
    rw [size_edges_redirect, hrem, hcaller]
    exact h.callees k hk i
  · intro i hi hri
    rw [size_edges_redirect] at hi
    rw [hrem] at hri
    rw [hcaller, edge_redirect]
    obtain ⟨h₁, h₂⟩ := h.ends i hi hri
    refine ⟨h₁, ?_⟩
    split
    · exact hm
    · exact h₂

/-- The edges that go with a function are those that it ends or begins. -/
theorem Coherent.mem_edgesAt (h : p.Coherent) (hn : n ∈ p.live) (he : e < p.edges.size)
    (hr : (p.edge e).removed = false) : e ∈ p.edgesAt n ↔ (p.edge e).caller = n ∨ (p.edge e).callee = n := by
  simp only [edgesAt, List.mem_append, List.mem_filter, List.mem_flatMap, beq_iff_eq]
  constructor
  · rintro (hc | ⟨-, hc⟩)
    · exact .inl (h.caller_eq hn hc)
    · exact .inr hc
  · rintro (hc | hc)
    · exact .inl ((h.callees n hn e).mpr ⟨he, hr, hc⟩)
    · have hl := (h.ends e he hr).1
      exact .inr ⟨⟨_, hl, (h.callees _ hl e).mpr ⟨he, hr, rfl⟩⟩, hc⟩

/-- The edges that are left after the removal of a live function. -/
private theorem Coherent.edge_remove_live (h : p.Coherent) (hn : n ∈ p.live) (he : e < p.edges.size) :
    ((p.remove n).edge e).removed = false ↔
      (p.edge e).removed = false ∧ (p.edge e).caller ≠ n ∧ (p.edge e).callee ≠ n := by
  rw [edge_remove]
  by_cases hr : (p.edge e).removed = false
  · have := h.mem_edgesAt hn he hr
    split
    · rename_i hg
      have := this.mp hg.2
      simp only [Bool.true_eq_false, false_iff, not_and]
      intro _ hc
      exact fun hc' => hc' (this.resolve_left hc)
    · rename_i hg
      have hg' : e ∉ p.edgesAt n := fun hk => hg ⟨he, hk⟩
      rw [this, not_or] at hg'
      simp [hr, hg']
  · split <;> simp [hr]

/-- The name that is forgotten was the name of the removed function only. -/
private theorem Coherent.names_remove (h : p.Coherent) (hn : n ∈ p.live) (t : String) (m : Node) :
    (p.remove n).names[t]? = some m ↔ (m ≠ n ∧ m ∈ p.live) ∧ p.name m = t := by
  rw [Program.names_remove]
  by_cases ht : t = p.name n
  · rw [if_pos ht]
    constructor
    · exact fun hk => absurd hk (by simp)
    · rintro ⟨⟨hm, hl⟩, hk⟩
      exact absurd (h.eq_of_name_eq hl hn (hk.trans ht)) hm
  · rw [if_neg ht, h.names]
    constructor
    · rintro ⟨hl, hk⟩
      exact ⟨⟨fun hm => ht (hm ▸ hk.symm), hl⟩, hk⟩
    · rintro ⟨⟨-, hl⟩, hk⟩
      exact ⟨hl, hk⟩

/-- A live function may be removed. -/
theorem Coherent.remove (h : p.Coherent) (hn : n ∈ p.live) : (p.remove n).Coherent := by
  have hlt := lt_size_of_mem_live hn
  have hlive : ∀ m, m ∈ (p.remove n).live ↔ m ≠ n ∧ m ∈ p.live := fun m => mem_live_remove hlt
  have hcallees : ∀ m ≠ n, m ∈ p.live → ((p.remove n).function m).callees =
      (p.function m).callees.filter fun e => (p.edge e).callee != n := by
    intro m hm hl
    rw [function_remove_of_ne hm, (mem_live.mp hl).2]
    rfl
  have hends := ends_remove p n
  constructor
  · intro t m
    rw [hlive, name_remove hlt]
    exact h.names_remove hn t m
  · intro m
    by_cases hm : m = n
    · subst hm
      rw [function_remove_self hlt]
      exact { h.tidy m with callees := fun _ => rfl }
    · rw [function_remove_of_ne hm]
      split
      · exact h.tidy m
      · rename_i hr
        exact { h.tidy m with callees := fun hr' => absurd hr' hr }
  · intro m hm
    obtain ⟨hne, hl⟩ := (hlive m).mp hm
    rw [hcallees m hne hl]
    exact (h.nodup m hl).filter _
  · intro m hm e
    obtain ⟨hne, hl⟩ := (hlive m).mp hm
    rw [hcallees m hne hl, size_edges_remove]
    simp only [List.mem_filter, bne_iff_ne, ne_eq]
    rw [h.callees m hl]
    constructor
    · rintro ⟨⟨he, hr, hc⟩, hd⟩
      exact ⟨he, (h.edge_remove_live hn he).mpr ⟨hr, hc ▸ hne, hd⟩, by rw [(hends e).1, hc]⟩
    · rintro ⟨he, hr, hc⟩
      obtain ⟨h₁, -, h₃⟩ := (h.edge_remove_live hn he).mp hr
      exact ⟨⟨he, h₁, by rw [← hc, (hends e).1]⟩, h₃⟩
  · intro e he hr
    rw [size_edges_remove] at he
    obtain ⟨h₁, h₂, h₃⟩ := (h.edge_remove_live hn he).mp hr
    obtain ⟨hl₁, hl₂⟩ := h.ends e he h₁
    rw [hlive, hlive, (hends e).1, (hends e).2]
    exact ⟨⟨h₂, hl₁⟩, h₃, hl₂⟩
  · exact h.blocks
  · exact h.insts

end Program

end Accelerator
