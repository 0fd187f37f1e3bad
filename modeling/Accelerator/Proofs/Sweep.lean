import Accelerator.Proofs.Coherence
import Accelerator.Proofs.Survey

/-!
# Which functions get an accelerator side

The clone sweep treats the functions one after the other.  The treatment of a function changes this function and adds
at most one clone at the end of the table; what is decided about the other functions, and the names that their clones
will get, stay as they are.  So the sweep can be read off the workspace that it started from (`swept`): it clones the
functions that ask for it, in order, and each clone is numbered by the program from before the sweep.
-/

namespace Accelerator

namespace Treatment

/-- Whether the treatment asks for an accelerator side. -/
def needsTwin : Treatment → Bool
  | function _ | universal | implicit => true
  | resolved | placeholder | kernel | host => false

/-- The kind of accelerator code that a function becomes when it gets an accelerator side. -/
def twinKind : Treatment → Summary → Kind
  | function true, _ | universal, _ => .function
  | function false, s => s.kind
  | _, _ => .kernel

/-- What the treatment changes in a function. -/
def change : Treatment → Program.Function → Program.Function
  | placeholder, f => { f with traits.isPublic := true }
  | universal, f =>
    { f with markers := if .declareTarget ∈ f.markers then f.markers else f.markers ++ [.declareTarget] }
  | _, f => f

/-- What the treatment decides about a function that gets no accelerator side. -/
def settle : Treatment → Summary → Summary
  | kernel, s => { s with kind := .kernel, accelerator := true }
  | function true, s => { s with kind := .function }
  | _, s => s

variable (t : Treatment)

private theorem bound_settle (s : Summary) : (t.settle s).bound = s.bound := by
  unfold settle
  split <;> rfl

private theorem name_change (f : Program.Function) : (t.change f).name = f.name := by
  unfold change
  split <;> rfl

theorem flags_change (f : Program.Function) : (t.change f).flags = f.flags := by
  unfold change
  split <;> rfl

theorem change_change (f : Program.Function) : t.change (t.change f) = t.change f := by
  cases t with
  | universal => by_cases h : Marker.declareTarget ∈ f.markers <;> simp [change, h]
  | _ => rfl

theorem settle_settle (s : Summary) : t.settle (t.settle s) = t.settle s := by
  cases t with
  | function marked => cases marked <;> rfl
  | _ => rfl

theorem mem_markers_change (f : Program.Function) {k : Marker} (hk : k ≠ .declareTarget) :
    k ∈ (t.change f).markers ↔ k ∈ f.markers := by
  unfold change
  split
  · rfl
  · dsimp only
    split
    · rfl
    · simp [hk]
  · rfl

end Treatment

namespace Program

variable {p q : Program} {m n : Node}

theorem needsTwin_treatment (p : Program) (n : Node) (s : Summary) :
    (p.treatment n s).needsTwin = (!s.isResolved && !p.hasMarker n .placeholder && !p.hasMarker n .kernel &&
      (p.hasMarker n .callable || s.isParticipant || p.hasMarker n .universal ||
        (p.isDeviceCallable n && !(p.function n).traits.isArtificial))) := by
  unfold treatment
  split_ifs <;> simp_all [Treatment.needsTwin]

theorem twinKind_treatment {p : Program} {n : Node} {s : Summary} (h : (p.treatment n s).needsTwin = true) :
    (p.treatment n s).twinKind s =
      if p.hasMarker n .callable then .function else if s.isParticipant then s.kind
      else if p.hasMarker n .universal then .function else .kernel := by
  unfold treatment at h ⊢
  split_ifs at h ⊢ <;> simp_all [Treatment.needsTwin, Treatment.twinKind]

theorem treatment_eq_marked {s : Summary} : p.treatment n s = .function true ↔
    s.isResolved = false ∧ p.hasMarker n .placeholder = false ∧ p.hasMarker n .kernel = false ∧
      p.hasMarker n .callable = true := by
  unfold treatment
  split_ifs <;> simp_all

theorem treatment_eq_universal {s : Summary} : p.treatment n s = .universal ↔
    s.isResolved = false ∧ p.hasMarker n .placeholder = false ∧ p.hasMarker n .kernel = false ∧
      p.hasMarker n .callable = false ∧ s.isParticipant = false ∧ p.hasMarker n .universal = true := by
  unfold treatment
  split_ifs <;> simp_all

theorem treatment_congr (hm : ∀ k, q.hasMarker n k = p.hasMarker n k)
    (ha : (q.function n).traits.isArtificial = (p.function n).traits.isArtificial) (s : Summary) :
    q.treatment n s = p.treatment n s := by
  unfold treatment isDeviceCallable
  simp only [hm, ha]

theorem modifyFunction_eq_self {f : Function → Function} (h : f (p.function n) = p.function n) :
    p.modifyFunction n f = p := by
  have hfunctions : p.functions.modify n f = p.functions := by
    apply Array.ext (Array.size_modify ..)
    intro i hi hi'
    rw [Array.getElem_modify]
    split
    · rename_i hin
      subst hin
      simpa [function, Array.getD, hi'] using h
    · rfl
  rw [modifyFunction, hfunctions]

/-! ### Names of clones -/

private theorem eq_of_append_cons_eq {α : Type} {x : α} {l k d e : List α} (h : l ++ x :: d = k ++ x :: e)
    (hd : x ∉ d) (he : x ∉ e) : l = k := by
  rcases List.append_eq_append_iff.mp h with ⟨a, hk, hx⟩ | ⟨a, hl, hx⟩
  · cases a with
    | nil => rw [hk, List.append_nil]
    | cons y a =>
      rw [List.cons_append, List.cons.injEq] at hx
      exact absurd (hx.2 ▸ by simp) hd
  · cases a with
    | nil => rw [hl, List.append_nil]
    | cons y a =>
      rw [List.cons_append, List.cons.injEq] at hx
      exact absurd (hx.2 ▸ by simp) he

private theorem dot_not_mem_toString (k : Nat) : '.' ∉ (toString k).toList := by
  rw [Nat.toString_eq_repr, Nat.repr_eq_ofList_toDigits, String.toList_ofList]
  intro h
  exact absurd (Nat.isDigit_of_mem_toDigits (by omega) (by omega) h) (by decide)

/-- Clones of functions with different names have different names: the number of a clone has no dot, so the name is cut
at the last one. -/
theorem base_eq_of_cloneTitle_eq {a b suffix : String} {i j : Nat} (h : cloneTitle a suffix i = cloneTitle b suffix j) :
    a = b := by
  have hlist : (a ++ "." ++ suffix).toList ++ '.' :: (toString i).toList =
      (b ++ "." ++ suffix).toList ++ '.' :: (toString j).toList := by
    simpa [cloneTitle] using congrArg String.toList h
  have hbase := eq_of_append_cons_eq hlist (dot_not_mem_toString i) (dot_not_mem_toString j)
  simpa using String.toList_inj.mp hbase

/-- A clone gets the least number from the counter on whose name is free. -/
theorem isLeast_cloneNumber (p : Program) (base suffix : String) :
    IsLeast {k | p.cloneCounts.getD base 0 ≤ k ∧ p.names[cloneTitle base suffix k]? = none}
      (p.cloneNumber base suffix) := by
  have hfree := names_cloneTitle p base suffix
  let tried := List.range' (p.cloneCounts.getD base 0) (p.names.size + 1)
  have hdef : p.cloneNumber base suffix =
      (tried.find? fun k => !p.names.contains (cloneTitle base suffix k)).getD (p.cloneCounts.getD base 0) := rfl
  have htaken : ∀ k, (!p.names.contains (cloneTitle base suffix k)) = true ↔
      p.names[cloneTitle base suffix k]? = none := by
    intro k
    rw [Std.ExtTreeMap.contains_eq_isSome_getElem?, Bool.not_eq_true', Option.isSome_eq_false_iff,
      Option.isNone_iff_eq_none]
  cases hf : tried.find? fun k => !p.names.contains (cloneTitle base suffix k) with
  | some k =>
    rw [hdef, hf, Option.getD_some] at hfree ⊢
    obtain ⟨-, hmem, hleast⟩ := List.find?_range'_eq_some.mp hf
    refine ⟨⟨(List.mem_range'_1.mp hmem).1, hfree⟩, ?_⟩
    rintro j ⟨hj, hjfree⟩
    by_contra hlt
    have := hleast j hj (Nat.lt_of_not_le hlt)
    rw [(htaken j).mpr hjfree] at this
    cases this
  | none =>
    -- the first name that is tried is free, so the search finds one
    rw [hdef, hf, Option.getD_none] at hfree
    have := List.find?_eq_none.mp hf _ (List.mem_range'_1.mpr ⟨Nat.le_refl _, by omega⟩)
    exact absurd ((htaken _).mpr hfree) this

private theorem cloneNumber_congr {base suffix : String} (hc : q.cloneCounts.getD base 0 = p.cloneCounts.getD base 0)
    (hn : ∀ k, q.names[cloneTitle base suffix k]? = p.names[cloneTitle base suffix k]?) :
    q.cloneNumber base suffix = p.cloneNumber base suffix := by
  have hq := isLeast_cloneNumber q base suffix
  simp only [hc, hn] at hq
  exact hq.unique (isLeast_cloneNumber p base suffix)

private theorem names_withTwin (p : Program) (n : Node) (isPublic : Bool) (t : String) :
    (p.withTwin n isPublic).names[t]? =
      if t = cloneTitle (p.name n) cloneSuffix (p.cloneNumber (p.name n) cloneSuffix) then some p.functions.size
      else p.names[t]? := by
  have hnames : (p.withTwin n isPublic).names = (p.clone n cloneSuffix).2.names := by
    unfold withTwin
    split <;> rfl
  rw [hnames, clone_eq_extend, names_extend]
  rfl

theorem cloneCounts_withTwin (p : Program) (n : Node) (isPublic : Bool) :
    (p.withTwin n isPublic).cloneCounts =
      p.cloneCounts.insert (p.name n) (p.cloneNumber (p.name n) cloneSuffix + 1) := by
  unfold withTwin
  split <;> rfl

/-- A clone takes no name away from the clones of other functions. -/
private theorem cloneNumber_withTwin {base : String} (isPublic : Bool) (hne : base ≠ p.name n) :
    (p.withTwin n isPublic).cloneNumber base cloneSuffix = p.cloneNumber base cloneSuffix := by
  refine cloneNumber_congr ?_ fun k => ?_
  · rw [cloneCounts_withTwin, Std.ExtTreeMap.getD_insert]
    simp [Ne.symm hne]
  · rw [names_withTwin, if_neg fun h => hne (base_eq_of_cloneTitle_eq h)]

end Program

namespace Workspace

variable {w u v : Workspace} {l : List Node} {m n c : Node}

/-- What is to be done with a function. -/
def treatmentOf (w : Workspace) (n : Node) : Treatment := w.program.treatment n (w.summaries.of n)

/-- Whether a function gets an accelerator side when it is treated. -/
def asksForTwin (w : Workspace) (n : Node) : Bool :=
  (w.program.function n).flags.versionable && (w.treatmentOf n).needsTwin

/-- The kind of accelerator code that a function becomes when it gets an accelerator side. -/
def twinKind (w : Workspace) (n : Node) : Kind := (w.treatmentOf n).twinKind (w.summaries.of n)

/-! ### One treatment -/

theorem treat_of_asks (options : Options) (ha : w.asksForTwin n = true) :
    ∃ isPublic j, w.treat options n =
      (⟨(w.program.modifyFunction n (w.treatmentOf n).change).withTwin n isPublic,
        (w.summaries.touch n).link w.program.functions.size n (w.twinKind n), j⟩, some w.program.functions.size) := by
  obtain ⟨hv, hneeds⟩ := Bool.and_eq_true_iff.mp ha
  -- all but the functions that may run on both sides are cloned as they are
  have hplain := fun kind => addTwin_eq (w := ⟨w.program, w.summaries.touch n, w.journal⟩) options kind
    (w.program.function n).traits.isPublic hv
  unfold twinKind treat
  dsimp only
  rw [Summaries.of_touch, ← treatmentOf]
  cases ht : w.treatmentOf n with
  | resolved | placeholder | kernel | host => simp [ht, Treatment.needsTwin] at hneeds
  | function marked =>
    rw [Program.modifyFunction_eq_self (f := Treatment.change _) rfl]
    cases marked with
    | true =>
      have hadd := addTwin_eq
        (w := ⟨w.program, (w.summaries.touch n).update n ({ · with kind := .function }), w.journal⟩) options .function
        (w.program.function n).traits.isPublic hv
      rw [Summaries.link_update] at hadd
      exact ⟨_, _, hadd⟩
    | false => exact ⟨_, _, hplain _⟩
  | universal =>
    let p := w.program.addMarker n .declareTarget
    have hv' : (p.function n).flags.versionable = true := by
      rw [← hv]
      apply Program.function_modifyFunction_of_eq (·.flags.versionable)
      intro x
      rfl
    have hsize : p.functions.size = w.program.functions.size := Program.size_modifyFunction _ _ _
    have hadd := addTwin_eq (w := ⟨p, w.summaries.touch n, w.journal⟩) options .function
      (options.parallel || (w.program.function n).traits.isPublic) hv'
    simp only [hsize] at hadd
    exact ⟨_, _, hadd⟩
  | implicit =>
    rw [Program.modifyFunction_eq_self (f := Treatment.change _) rfl]
    exact ⟨_, _, hplain _⟩

theorem treat_of_not_asks (options : Options) (ha : w.asksForTwin n = false) :
    ∃ j, w.treat options n = (⟨w.program.modifyFunction n (w.treatmentOf n).change,
      w.summaries.update n (w.treatmentOf n).settle, j⟩, none) := by
  have hv : (w.treatmentOf n).needsTwin = true → (w.program.function n).flags.versionable = false := by
    intro hneeds
    simpa [asksForTwin, hneeds] using ha
  unfold treat
  dsimp only
  rw [Summaries.of_touch, ← treatmentOf]
  cases ht : w.treatmentOf n with
  | resolved | host =>
    rw [Program.modifyFunction_eq_self (f := Treatment.change _) rfl]
    exact ⟨_, rfl⟩
  | placeholder => exact ⟨_, rfl⟩
  | kernel =>
    rw [Program.modifyFunction_eq_self (f := Treatment.change _) rfl]
    refine ⟨w.journal, ?_⟩
    rw [Summaries.markAccelerator, Summaries.update_touch]
    rfl
  | function marked =>
    rw [Program.modifyFunction_eq_self (f := Treatment.change _) rfl]
    rw [ht] at hv
    cases marked with
    | true =>
      dsimp only
      rw [Summaries.update_touch]
      exact addTwin_eq_none (w := ⟨w.program, w.summaries.update n ({ · with kind := .function }), w.journal⟩) options
        _ _ (hv rfl)
    | false => exact addTwin_eq_none (w := ⟨w.program, w.summaries.touch n, w.journal⟩) options _ _ (hv rfl)
  | universal =>
    rw [ht] at hv
    refine addTwin_eq_none (w := ⟨w.program.addMarker n .declareTarget, w.summaries.touch n, w.journal⟩) options _ _ ?_
    rw [← hv rfl]
    apply Program.function_modifyFunction_of_eq (·.flags.versionable)
    intro x
    rfl
  | implicit =>
    rw [Program.modifyFunction_eq_self (f := Treatment.change _) rfl]
    rw [ht] at hv
    exact addTwin_eq_none (w := ⟨w.program, w.summaries.touch n, w.journal⟩) options _ _ (hv rfl)

/-- The function `n` of `w` has the accelerator side `c` in `v`, where it had none before. -/
structure Twinned (w v : Workspace) (n c : Node) : Prop where
  host : v.summaries.of n = ⟨w.twinKind n, false, some c⟩
  twin : v.summaries.of c = ⟨w.twinKind n, true, none⟩
  name : v.program.name c = Program.cloneTitle (w.program.name n) cloneSuffix
    (w.program.cloneNumber (w.program.name n) cloneSuffix)
  markers : ∀ k, k ≠ .declareTarget → v.program.hasMarker c k = w.program.hasMarker n k
  addressTaken : (v.program.function c).flags.addressTaken = false

private theorem name_change (w : Workspace) (n m : Node) :
    (w.program.modifyFunction n (w.treatmentOf n).change).name m = w.program.name m :=
  Program.function_modifyFunction_of_eq (·.name) (w.treatmentOf n).name_change w.program n m

theorem twinned_treat (options : Options) (hn : n < w.program.functions.size) (ha : w.asksForTwin n = true) :
    Twinned w (w.treat options n).1 n w.program.functions.size := by
  obtain ⟨isPublic, j, h⟩ := treat_of_asks options ha
  have hname := name_change w n n
  have hcount : ∀ base, (w.program.modifyFunction n (w.treatmentOf n).change).cloneNumber base cloneSuffix =
      w.program.cloneNumber base cloneSuffix := fun base => Program.cloneNumber_congr rfl fun k => rfl
  have hfunction : (w.treat options n).1.program.function w.program.functions.size =
      (w.program.modifyFunction n (w.treatmentOf n).change).twinFunction n isPublic := by
    rw [h, Program.function_withTwin, Program.size_modifyFunction, if_pos rfl]
  constructor
  · rw [h, Summaries.of_link, if_pos rfl]
  · rw [h, Summaries.of_link, if_neg (Nat.ne_of_gt hn), if_pos rfl]
  · rw [Program.name, hfunction, ← hname, ← hcount]
    rfl
  · intro k hk
    rw [Bool.eq_iff_iff, Program.hasMarker, hfunction, Program.hasMarker, List.contains_iff_mem, List.contains_iff_mem]
    have hmarkers := (w.treatmentOf n).mem_markers_change (w.program.function n) hk
    have hhost : (w.program.modifyFunction n (w.treatmentOf n).change).function n =
        (w.treatmentOf n).change (w.program.function n) := by
      rw [Program.function_modifyFunction, if_pos ⟨rfl, hn⟩]
    rw [← hmarkers, ← hhost]
    rfl
  · rw [hfunction]
    rfl

theorem size_treat (options : Options) (w : Workspace) (n : Node) :
    (w.treat options n).1.program.functions.size =
      w.program.functions.size + (w.treat options n).2.toList.length := by
  cases ha : w.asksForTwin n with
  | true =>
    obtain ⟨isPublic, j, h⟩ := treat_of_asks options ha
    rw [h, Program.size_withTwin, Program.size_modifyFunction]
    rfl
  | false =>
    obtain ⟨j, h⟩ := treat_of_not_asks options ha
    rw [h]
    exact Program.size_modifyFunction _ _ _

/-- The treatment of a function leaves the others alone. -/
theorem treat_frame (options : Options) (hm : m < w.program.functions.size) (hne : m ≠ n) :
    (w.treat options n).1.program.function m = w.program.function m ∧
      (w.treat options n).1.summaries.of m = w.summaries.of m := by
  have hother : (w.program.modifyFunction n (w.treatmentOf n).change).function m = w.program.function m := by
    rw [Program.function_modifyFunction, if_neg fun h => hne h.1]
  cases ha : w.asksForTwin n with
  | true =>
    obtain ⟨isPublic, j, h⟩ := treat_of_asks options ha
    rw [h]
    constructor
    · rw [Program.function_withTwin_old _ _ (by rw [Program.size_modifyFunction]; exact hm), hother]
    · rw [Summaries.of_link, if_neg hne, if_neg (Nat.ne_of_lt hm), Summaries.of_touch]
  | false =>
    obtain ⟨j, h⟩ := treat_of_not_asks options ha
    rw [h]
    constructor
    · exact hother
    · rw [Summaries.of_update, if_neg hne]

private theorem cloneNumber_treat (options : Options) {base : String} (hne : base ≠ w.program.name n) :
    (w.treat options n).1.program.cloneNumber base cloneSuffix = w.program.cloneNumber base cloneSuffix := by
  cases ha : w.asksForTwin n with
  | true =>
    obtain ⟨isPublic, j, h⟩ := treat_of_asks options ha
    rw [h, Program.cloneNumber_withTwin _ (by rw [name_change]; exact hne)]
    exact Program.cloneNumber_congr rfl fun k => rfl
  | false =>
    obtain ⟨j, h⟩ := treat_of_not_asks options ha
    rw [h]
    exact Program.cloneNumber_congr rfl fun k => rfl

/-! ### Some treatments -/

/-- Treats one function and adds its clone, if there is one, to those made before. -/
def treatNode (options : Options) (state : Workspace × List Node) (n : Node) : Workspace × List Node :=
  ((state.1.treat options n).1, state.2 ++ (state.1.treat options n).2.toList)

theorem cloneSweep_eq_filter (options : Options) (hostOnly : List Node) (w : Workspace) :
    w.cloneSweep options hostOnly = (w.program.live.filter (· ∉ hostOnly)).foldl (treatNode options) (w, []) := by
  rw [cloneSweep_eq, List.foldl_filter]
  congr 1
  funext state n
  by_cases h : n ∈ hostOnly <;> simp [sweepNode, treatNode, h]

/-- What the treatment of the functions `l` makes of `w`, with the clones that are new. -/
structure Swept (options : Options) (w : Workspace) (l : List Node) (v : Workspace) (new : List Node) : Prop where
  clones : new = List.range' w.program.functions.size (l.filter w.asksForTwin).length
  twinned : List.Forall₂ (Twinned w v) (l.filter w.asksForTwin) new
  kept : ∀ m < w.program.functions.size, m ∉ l →
    v.program.function m = w.program.function m ∧ v.summaries.of m = w.summaries.of m
  /-- Each function is as its treatment left it, which found it as it was at the start. -/
  treated : ∀ n ∈ l, ∃ u : Workspace, n < u.program.functions.size ∧
    u.program.function n = w.program.function n ∧ u.summaries.of n = w.summaries.of n ∧
      v.program.function n = (u.treat options n).1.program.function n ∧
      v.summaries.of n = (u.treat options n).1.summaries.of n

theorem treatmentOf_congr (hf : v.program.function n = w.program.function n)
    (hs : v.summaries.of n = w.summaries.of n) : v.treatmentOf n = w.treatmentOf n := by
  rw [treatmentOf, treatmentOf, hs]
  exact Program.treatment_congr (fun k => by rw [Program.hasMarker, Program.hasMarker, hf]) (by rw [hf]) _

/-- What a later treatment finds out about a function holds from the start. -/
private theorem Twinned.of_later (h : Twinned u v n c) (hf : u.program.function n = w.program.function n)
    (hs : u.summaries.of n = w.summaries.of n)
    (hc : u.program.cloneNumber (w.program.name n) cloneSuffix = w.program.cloneNumber (w.program.name n) cloneSuffix) :
    Twinned w v n c := by
  have hname : u.program.name n = w.program.name n := congrArg Program.Function.name hf
  have hkind : u.twinKind n = w.twinKind n := by
    rw [twinKind, twinKind, treatmentOf_congr hf hs, hs]
  obtain ⟨hhost, htwin, htitle, hmarkers, haddress⟩ := h
  rw [hkind] at hhost htwin
  rw [hname, hc] at htitle
  refine ⟨hhost, htwin, htitle, fun k hk => ?_, haddress⟩
  rw [hmarkers k hk, Program.hasMarker, Program.hasMarker, hf]

/-- An accelerator side stays what it is while other functions are treated. -/
private theorem Twinned.of_kept (h : Twinned w u n c) (hn : v.summaries.of n = u.summaries.of n)
    (hc : v.program.function c = u.program.function c ∧ v.summaries.of c = u.summaries.of c) : Twinned w v n c where
  host := hn.trans h.host
  twin := hc.2.trans h.twin
  name := by rw [← h.name, Program.name, Program.name, hc.1]
  markers k hk := by rw [← h.markers k hk, Program.hasMarker, Program.hasMarker, hc.1]
  addressTaken := by rw [hc.1, h.addressTaken]

theorem asksForTwin_congr (hf : v.program.function n = w.program.function n)
    (hs : v.summaries.of n = w.summaries.of n) : v.asksForTwin n = w.asksForTwin n := by
  rw [asksForTwin, asksForTwin, treatmentOf_congr hf hs, hf]

/-- A treatment, followed by the treatments of other functions. -/
private theorem Swept.cons {options : Options} {new : List Node} (hn : n < w.program.functions.size) (hnl : n ∉ l)
    (hl : ∀ m ∈ l, m < w.program.functions.size) (hname : ∀ m ∈ l, w.program.name m ≠ w.program.name n)
    (h : Swept options (w.treat options n).1 l v new) :
    Swept options w (n :: l) v ((w.treat options n).2.toList ++ new) := by
  have hframe : ∀ m ∈ l, _ := fun m hm =>
    treat_frame (w := w) (n := n) options (hl m hm) fun e => hnl (e ▸ hm)
  have hsize := size_treat options w n
  have hasks : l.filter (w.treat options n).1.asksForTwin = l.filter w.asksForTwin :=
    List.filter_congr fun m hm => asksForTwin_congr (hframe m hm).1 (hframe m hm).2
  have hlt : ∀ m < w.program.functions.size, m < (w.treat options n).1.program.functions.size := fun m hm => by
    rw [hsize]
    exact Nat.lt_add_right _ hm
  have hkeptn := h.kept n (hlt n hn) hnl
  have hrest : List.Forall₂ (Twinned w v) (l.filter w.asksForTwin) new := by
    have htwinned := h.twinned
    rw [hasks] at htwinned
    have hmem : ∀ m ∈ l.filter w.asksForTwin, m ∈ l := fun m hm => List.mem_of_mem_filter hm
    refine ((List.forall₂_and_left _ _).mpr ⟨hmem, htwinned⟩).imp ?_
    rintro m c ⟨hm, hmc⟩
    exact hmc.of_later (hframe m hm).1 (hframe m hm).2 (cloneNumber_treat options (hname m hm))
  have hnew := h.clones
  rw [hasks] at hnew
  constructor
  · cases ha : w.asksForTwin n with
    | true =>
      obtain ⟨isPublic, j, ht⟩ := treat_of_asks options ha
      rw [List.filter_cons_of_pos ha, List.length_cons, List.range'_succ, hnew, hsize, ht]
      rfl
    | false =>
      obtain ⟨j, ht⟩ := treat_of_not_asks options ha
      rw [List.filter_cons_of_neg (by simp [ha]), hnew, hsize, ht]
      rfl
  · cases ha : w.asksForTwin n with
    | true =>
      obtain ⟨isPublic, j, ht⟩ := treat_of_asks options ha
      have hsome : (w.treat options n).2 = some w.program.functions.size := by rw [ht]
      rw [hsome, Option.toList_some, List.length_singleton] at hsize
      -- the clone is new, so the rest of the sweep does not come to it
      have hc := h.kept w.program.functions.size (by omega) fun hm => Nat.lt_irrefl _ (hl _ hm)
      rw [List.filter_cons_of_pos ha, hsome]
      exact .cons ((twinned_treat options hn ha).of_kept hkeptn.2 hc) hrest
    | false =>
      obtain ⟨j, ht⟩ := treat_of_not_asks options ha
      rw [List.filter_cons_of_neg (by simp [ha]), ht]
      exact hrest
  · intro m hm hml
    rw [List.mem_cons, not_or] at hml
    have hfirst := treat_frame (w := w) options hm hml.1
    have hlater := h.kept m (hlt m hm) hml.2
    exact ⟨hlater.1.trans hfirst.1, hlater.2.trans hfirst.2⟩
  · intro m hm
    rcases List.mem_cons.mp hm with rfl | hm
    · exact ⟨w, hn, rfl, rfl, hkeptn⟩
    · obtain ⟨u, hu, hf, hs, hv⟩ := h.treated m hm
      exact ⟨u, hu, hf.trans (hframe m hm).1, hs.trans (hframe m hm).2, hv⟩

private theorem swept_nodes (options : Options) (hl : l.Nodup) (hlt : ∀ n ∈ l, n < w.program.functions.size)
    (hname : ∀ m ∈ l, ∀ n ∈ l, w.program.name m = w.program.name n → m = n) (made : List Node) :
    ∃ new, (l.foldl (treatNode options) (w, made)).2 = made ++ new ∧
      Swept options w l (l.foldl (treatNode options) (w, made)).1 new := by
  induction l generalizing w made with
  | nil => exact ⟨[], by simp, ⟨by simp, by simp, by simp, by simp⟩⟩
  | cons n l ih =>
    rw [List.nodup_cons] at hl
    have hltl : ∀ m ∈ l, m < w.program.functions.size := fun m hm => hlt m (List.mem_cons_of_mem n hm)
    have hne : ∀ m ∈ l, m ≠ n := fun m hm h => hl.1 (h ▸ hm)
    have hkept : ∀ m ∈ l, (w.treat options n).1.program.name m = w.program.name m := fun m hm =>
      congrArg Program.Function.name (treat_frame options (hltl m hm) (hne m hm)).1
    obtain ⟨new, heq, hrest⟩ := ih (w := (w.treat options n).1) hl.2
      (fun m hm => by
        rw [size_treat]
        exact Nat.lt_add_right _ (hltl m hm))
      (fun a ha b hb h => by
        rw [hkept a ha, hkept b hb] at h
        exact hname a (List.mem_cons_of_mem n ha) b (List.mem_cons_of_mem n hb) h)
      (made ++ (w.treat options n).2.toList)
    refine ⟨(w.treat options n).2.toList ++ new, by rw [List.foldl_cons, treatNode, heq, List.append_assoc], ?_⟩
    refine hrest.cons (hlt n List.mem_cons_self) hl.1 hltl fun m hm h => hne m hm ?_
    exact hname m (List.mem_cons_of_mem n hm) n List.mem_cons_self h

/-- The clone sweep over a coherent program, in terms of the workspace from before it. -/
theorem swept (options : Options) (hostOnly : List Node) (hw : w.program.Coherent) :
    Swept options w (w.program.live.filter (· ∉ hostOnly)) (w.cloneSweep options hostOnly).1
      (w.cloneSweep options hostOnly).2 := by
  have hlive : ∀ n ∈ w.program.live.filter (· ∉ hostOnly), n ∈ w.program.live := fun n hn => List.mem_of_mem_filter hn
  obtain ⟨new, heq, hswept⟩ := swept_nodes (w := w) options (w.program.nodup_live.filter _)
    (fun n hn => Program.lt_size_of_mem_live (hlive n hn))
    (fun m hm n hn h => hw.eq_of_name_eq (hlive m hm) (hlive n hn) h) []
  rw [List.nil_append] at heq
  rw [cloneSweep_eq_filter, heq]
  exact hswept

variable {options : Options} {new : List Node}

theorem Swept.of_same (h : Swept options w l u new) (hs : SameButEnds u v) : Swept options w l v new := by
  have hkeep : ∀ m, v.program.function m = u.program.function m ∧ v.summaries.of m = u.summaries.of m := fun m =>
    ⟨hs.function m, by rw [hs.summaries]⟩
  refine ⟨h.clones, h.twinned.imp fun n c hnc => hnc.of_kept (hkeep n).2 (hkeep c), fun m hm hml => ?_, fun n hn => ?_⟩
  · rw [(hkeep m).1, (hkeep m).2]
    exact h.kept m hm hml
  · rw [(hkeep n).1, (hkeep n).2]
    exact h.treated n hn

/-- A function that does not ask keeps its accelerator side, or stays without one. -/
private theorem Swept.bound_of_not_asks (h : Swept options w l v new) (hn : n < w.program.functions.size)
    (ha : n ∈ l → w.asksForTwin n = false) : (v.summaries.of n).bound = (w.summaries.of n).bound := by
  by_cases hnl : n ∈ l
  · obtain ⟨u, -, hf, hs, -, hv⟩ := h.treated n hnl
    have hua : u.asksForTwin n = false := by rw [asksForTwin_congr hf hs, ha hnl]
    obtain ⟨j, ht⟩ := treat_of_not_asks options hua
    rw [hv, ht, Summaries.of_update, if_pos rfl, Treatment.bound_settle, hs]
  · rw [(h.kept n hn hnl).2]

private theorem Swept.exists_twin (h : Swept options w l v new) (hn : n ∈ l) (ha : w.asksForTwin n = true) :
    ∃ c ∈ new, Twinned w v n c := by
  obtain ⟨i, hi, rfl⟩ := List.getElem_of_mem (List.mem_filter.mpr ⟨hn, ha⟩)
  have hi' := h.twinned.length_eq ▸ hi
  exact ⟨new.get ⟨i, hi'⟩, List.get_mem _ _, h.twinned.get hi hi'⟩

theorem Swept.exists_host (h : Swept options w l v new) (hc : c ∈ new) :
    ∃ n ∈ l, w.asksForTwin n = true ∧ Twinned w v n c := by
  obtain ⟨i, hi, rfl⟩ := List.getElem_of_mem hc
  have hi' := h.twinned.length_eq ▸ hi
  obtain ⟨hn, ha⟩ := List.mem_filter.mp (List.get_mem (l.filter w.asksForTwin) ⟨i, hi'⟩)
  exact ⟨_, hn, ha, h.twinned.get hi' hi⟩

/-- The clones of a sweep are bound to the functions that asked for one. -/
theorem Swept.exists_bound_iff (h : Swept options w l v new) (hn : n < w.program.functions.size)
    (hb : ∀ b, (w.summaries.of n).bound = some b → b < w.program.functions.size) :
    (∃ c ∈ new, (v.summaries.of n).bound = some c) ↔ n ∈ l ∧ w.asksForTwin n = true := by
  constructor
  · rintro ⟨c, hc, hbound⟩
    by_contra hnot
    rw [h.bound_of_not_asks hn fun hnl => by simpa [hnl] using hnot] at hbound
    rw [h.clones, List.mem_range'_1] at hc
    exact Nat.not_lt_of_le hc.1 (hb c hbound)
  · rintro ⟨hnl, ha⟩
    obtain ⟨c, hc, htwin⟩ := h.exists_twin hnl ha
    exact ⟨c, hc, by rw [htwin.host]⟩

end Workspace

end Accelerator
