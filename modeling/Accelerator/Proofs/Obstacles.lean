import Accelerator.Proofs.Calls
import Accelerator.Proofs.Survey

/-!
# Obstacles along a run

Runs change what the search for an obstacle looks at: markers come and go, calls are sent to accelerator sides, and a
removed kernel takes the calls of it along.  Only the last of these matters.  A function that is left after some moves
has no obstacle if and only if it had none before, calls of the removed functions not counted
(`Moves.obstacle?_eq_none`), and if a function has no obstacle neither has its accelerator side
(`Paired.obstacle?_twin`).
-/

namespace Accelerator

/-- A property of the entries of two lists that the related entries share. -/
private theorem forall_mem_iff {α β : Type} {R : α → β → Prop} {P : α → Prop} {Q : β → Prop} {l : List α} {k : List β}
    (h : List.Forall₂ R l k) (hPQ : ∀ a b, R a b → (P a ↔ Q b)) : (∀ a ∈ l, P a) ↔ ∀ b ∈ k, Q b := by
  induction h with
  | nil => simp
  | cons hab _ ih => simp only [List.mem_cons, forall_eq_or_imp, ih, hPQ _ _ hab]

/-- Declarations that agree but for whether they are public. -/
theorem Traits.fields_of_eq {s t : Traits} (h : { s with isPublic := false } = { t with isPublic := false }) :
    s.isVirtual = t.isVirtual ∧ s.isConstructor = t.isConstructor ∧ s.isDestructor = t.isDestructor ∧
      s.isArtificial = t.isArtificial := by
  simpa using h

namespace Program

variable {p q : Program} {m n : Node}

/-- The first obstacle of a function if calls of the functions `gone` do not count. -/
def obstacleBut? (p : Program) (gone : List Node) (n : Node) : Option Obstacle :=
  (p.function n).obstacle?
    |>.or (((p.edgesOf n).filter fun x => x.callee ∉ gone).findSome? (p.edgeObstacle? (p.hasMarker n .kernel)))
    |>.or (nameObstacle? (p.name n))
    |>.or (((p.blocksOf n).flatMap p.instsOf).findSome? p.instObstacle?)

theorem obstacleBut?_nil (p : Program) (n : Node) : p.obstacleBut? [] n = p.obstacle? n := by
  simp [obstacleBut?, obstacle?]

/-! ### The function by itself, and its calls -/

/-- There is no obstacle in the declaration, the name and the instructions of a function. -/
structure FitsAlone (p : Program) (n : Node) : Prop where
  declaration : (p.function n).obstacle? = none
  name : nameObstacle? (p.name n) = none
  body : ∀ i ∈ (p.blocksOf n).flatMap p.instsOf, p.instObstacle? i = none

/-- A call is no obstacle to a function, which is a kernel or not. -/
def CallFits (p : Program) (kernel : Bool) (callee : Node) (throws : Bool) : Prop :=
  (kernel = true ∨ throws = false) ∧ p.hasIndirectCalls callee = false

private theorem edgeObstacle?_eq_none {kernel : Bool} {x : Edge} :
    p.edgeObstacle? kernel x = none ↔ p.CallFits kernel x.callee x.throws := by
  unfold edgeObstacle? CallFits
  cases kernel <;> cases x.throws <;> cases p.hasIndirectCalls x.callee <;> simp

theorem obstacleBut?_eq_none {gone : List Node} :
    p.obstacleBut? gone n = none ↔
      p.FitsAlone n ∧ ∀ x ∈ p.edgesOf n, x.callee ∉ gone → p.CallFits (p.hasMarker n .kernel) x.callee x.throws := by
  simp only [obstacleBut?, Option.or_eq_none_iff, List.findSome?_eq_none_iff, List.mem_filter, decide_eq_true_eq,
    edgeObstacle?_eq_none, and_imp]
  constructor
  · rintro ⟨⟨⟨h₁, h₂⟩, h₃⟩, h₄⟩
    exact ⟨⟨h₁, h₃, h₄⟩, h₂⟩
  · rintro ⟨⟨h₁, h₃, h₄⟩, h₂⟩
    exact ⟨⟨⟨h₁, h₂⟩, h₃⟩, h₄⟩

private theorem obstacle?_eq_none : p.obstacle? n = none ↔
    p.FitsAlone n ∧ ∀ x ∈ p.edgesOf n, p.CallFits (p.hasMarker n .kernel) x.callee x.throws := by
  rw [← obstacleBut?_nil, obstacleBut?_eq_none]
  simp

/-- Calls that do not count can only take obstacles away. -/
theorem obstacleBut?_of_obstacle? {gone : List Node} (h : p.obstacle? n = none) : p.obstacleBut? gone n = none := by
  rw [obstacle?_eq_none] at h
  exact obstacleBut?_eq_none.mpr ⟨h.1, fun x hx _ => h.2 x hx⟩

end Program

/-! ### Names of clones -/

/-- The name of a clone ends with a digit. -/
private theorem exists_getLast?_cloneName (base : String) (k : Nat) :
    ∃ d, (base ++ ".hsa." ++ toString k).toList.getLast? = some d ∧ d.isDigit = true := by
  have hdigits : (toString k).toList = Nat.toDigits 10 k := by
    rw [Nat.toString_eq_repr, Nat.repr_eq_ofList_toDigits, String.toList_ofList]
  have hne : Nat.toDigits 10 k ≠ [] := Nat.toDigits_ne_nil
  refine ⟨(Nat.toDigits 10 k).getLast hne, ?_, Nat.isDigit_of_mem_toDigits (by omega) (by omega) (List.getLast_mem hne)⟩
  rw [String.toList_append, List.getLast?_append, hdigits, List.getLast?_eq_some_getLast hne, Option.some_or]

private theorem cloneName_ne_main (base : String) (k : Nat) : base ++ ".hsa." ++ toString k ≠ "main" := by
  obtain ⟨d, hd, hdigit⟩ := exists_getLast?_cloneName base k
  intro h
  rw [h] at hd
  have : d = 'n' := by simpa using hd.symm
  rw [this] at hdigit
  cases hdigit

private theorem nameObstacle?_cloneName (base : String) (k : Nat) :
    Program.nameObstacle? (base ++ ".hsa." ++ toString k) = none := by
  obtain ⟨d, hd, hdigit⟩ := exists_getLast?_cloneName base k
  rw [Program.nameObstacle?, if_neg]
  intro h
  rw [hd] at h
  rw [Option.some.inj h] at hdigit
  cases hdigit

private theorem IsPair.fitsAlone {p : Program} {s : Summaries} {h c : Node} (hp : IsPair p s h c)
    (ha : (p.function c).flags.addressTaken = false) (hh : p.FitsAlone h) : p.FitsAlone c := by
  obtain ⟨k, hk⟩ := hp.name
  obtain ⟨hvirtual, hctor, hdtor, -⟩ := Traits.fields_of_eq hp.traits
  constructor
  · have hmain : (p.function c).name ≠ "main" := by
      show p.name c ≠ "main"
      rw [hk]
      exact cloneName_ne_main _ _
    have hdecl := hh.declaration
    unfold Program.Function.obstacle? at hdecl ⊢
    rw [hvirtual, hctor, hdtor, hp.indirectCalls, ha]
    split_ifs at hdecl ⊢ <;> simp_all
  · rw [hk]
    exact nameObstacle?_cloneName _ _
  · rw [Program.insts_congr rfl rfl hp.body]
    exact hh.body

namespace Workspace

variable {w v : Workspace} {base : Nat} {gone made made' : List Node} {h c n : Node}

/-! ### What moves keep of the search -/

private theorem Kin.obstacle? {f g : Program.Function} (hk : Kin f g) : g.obstacle? = f.obstacle? := by
  obtain ⟨hvirtual, hctor, hdtor, -⟩ := Traits.fields_of_eq hk.traits
  simp only [Program.Function.obstacle?, hvirtual, hctor, hdtor, hk.name, hk.flags, hk.indirectCalls]

theorem Moves.tables (hm : Moves w gone made v) :
    v.program.globals = w.program.globals ∧ v.program.blocks = w.program.blocks ∧
      v.program.insts = w.program.insts ∧ v.program.operands = w.program.operands := by
  induction hm with
  | refl => exact ⟨rfl, rfl, rfl, rfl⟩
  | step _ hmove ih =>
    obtain ⟨hg, hb, hi, ho⟩ := hmove.tables
    exact ⟨hg.trans ih.1, hb.trans ih.2.1, hi.trans ih.2.2.1, ho.trans ih.2.2.2⟩

theorem Moves.mem_live (hm : Moves w gone made v) (hn : n < w.program.functions.size) :
    n ∈ v.program.live ↔ n ∈ w.program.live ∧ n ∉ gone := by
  induction hm with
  | refl => simp
  | step h' hmove ih =>
    have hmade : n ∉ _ := fun hk =>
      Nat.ne_of_lt (Nat.lt_of_lt_of_le hn h'.size_le) (hmove.eq_size_of_mem_made hk)
    rw [hmove.mem_live, ih, List.mem_append, not_or]
    simp only [hmade, or_false, and_assoc]

theorem Moves.kernel_of_mem_gone (hm : Moves w gone made v) (hn : n < w.program.functions.size) (hg : n ∈ gone) :
    w.program.hasMarker n .kernel = true := by
  induction hm with
  | refl => cases hg
  | step h' hmove ih =>
    rcases List.mem_append.mp hg with hg | hg
    · exact ih hg
    · rw [← (h'.kin hn).hasMarker (by decide) (by decide)]
      exact hmove.kernel_of_mem_gone hg

/-- The functions of a pair are not removed. -/
theorem Paired.not_mem_gone (hw : Paired base made w) (hm : Moves w gone made' v)
    (hb : (w.summaries.of h).bound = some c) : h ∉ gone ∧ c ∉ gone := by
  have hpair := hw.pair h c hb
  obtain ⟨hkh, hkc⟩ := hw.kernel h c hb
  constructor
  · intro hg
    rw [hm.kernel_of_mem_gone (Program.lt_size_of_mem_live hpair.host_live) hg] at hkh
    cases hkh
  · intro hg
    rw [hm.kernel_of_mem_gone (Program.lt_size_of_mem_live hpair.twin_live) hg] at hkc
    cases hkc

private theorem Moves.fitsAlone (hm : Moves w gone made v) (hn : n < w.program.functions.size) :
    v.program.FitsAlone n ↔ w.program.FitsAlone n := by
  have hkin := hm.kin hn
  obtain ⟨-, hb, hi, ho⟩ := hm.tables
  have hname : v.program.name n = w.program.name n := hkin.name
  have hinsts := Program.insts_congr (m := n) (n := n) hb hi hkin.body
  have hinst := Program.instObstacle?_congr ho
  constructor
  · rintro ⟨h₁, h₂, h₃⟩
    exact ⟨hkin.obstacle? ▸ h₁, hname ▸ h₂, by rwa [hinsts, hinst] at h₃⟩
  · rintro ⟨h₁, h₂, h₃⟩
    exact ⟨by rw [hkin.obstacle?, h₁], by rw [hname, h₂], by rwa [hinsts, hinst]⟩

private theorem Moves.callFits (hm : Moves w gone made v) (hn : n < w.program.functions.size) (kernel throws : Bool) :
    v.program.CallFits kernel n throws ↔ w.program.CallFits kernel n throws := by
  rw [Program.CallFits, Program.CallFits, Program.hasIndirectCalls, Program.hasIndirectCalls, (hm.kin hn).indirectCalls]

/-! ### The search follows the body -/

/-- An accelerator side makes as many calls through values as its function, so a call of the one is an obstacle if a
call of the other is. -/
private theorem Paired.callFits_follows (hw : Paired base made w) {x : Program.Edge} {call : Node × Bool}
    (hx : w.Follows n x call) (kernel : Bool) :
    w.program.CallFits kernel x.callee x.throws ↔ w.program.CallFits kernel call.1 call.2 := by
  obtain ⟨ht, hc | ⟨-, hb⟩⟩ := hx
  · rw [ht, hc]
  · rw [ht, Program.CallFits, Program.CallFits, Program.hasIndirectCalls, Program.hasIndirectCalls,
      (hw.pair _ _ hb).indirectCalls]

/-- Whether there is an obstacle can be told from the calls of the body in place of the edges.  The functions that do
not count may not be those of a pair. -/
private theorem Faithful.obstacleBut?_eq_none (hf : w.Faithful) (hw : Paired base made w) (hn : n ∈ w.program.live)
    (hgone : ∀ h c, (w.summaries.of h).bound = some c → h ∉ gone ∧ c ∉ gone) :
    w.program.obstacleBut? gone n = none ↔ w.program.FitsAlone n ∧ ∀ call ∈ liveCalls w.program n, call.1 ∉ gone →
      w.program.CallFits (w.program.hasMarker n .kernel) call.1 call.2 := by
  rw [Program.obstacleBut?_eq_none]
  refine and_congr_right fun _ => forall_mem_iff (hf.follows n hn) fun x call hx => ?_
  have hmem : x.callee ∈ gone ↔ call.1 ∈ gone := by
    rcases hx.2 with hc | ⟨-, hb⟩
    · rw [hc]
    · obtain ⟨h₁, h₂⟩ := hgone _ _ hb
      exact iff_of_false h₂ h₁
  rw [hmem, hw.callFits_follows hx]

private theorem Faithful.obstacle?_eq_none (hf : w.Faithful) (hw : Paired base made w) (hn : n ∈ w.program.live) :
    w.program.obstacle? n = none ↔ w.program.FitsAlone n ∧ ∀ call ∈ liveCalls w.program n,
      w.program.CallFits (w.program.hasMarker n .kernel) call.1 call.2 := by
  rw [← Program.obstacleBut?_nil, hf.obstacleBut?_eq_none hw hn (by simp)]
  simp

/-- After some moves a function that is left is eligible if and only if it had no obstacle before, apart from calls of
the functions that were removed. -/
theorem Moves.obstacle?_eq_none (hm : Moves w gone made' v) (hw : Paired base made w) (hf : w.Faithful)
    (hn : n ∈ w.program.live) (hg : n ∉ gone) :
    v.program.obstacle? n = none ↔ w.program.obstacleBut? gone n = none := by
  have hlt := Program.lt_size_of_mem_live hn
  have hkernel : v.program.hasMarker n .kernel = w.program.hasMarker n .kernel :=
    (hm.kin hlt).hasMarker (by decide) (by decide)
  have hcalls : v.program.callsOf n = w.program.callsOf n :=
    Program.callsOf_congr hm.tables.2.1 hm.tables.2.2.1 (hm.kin hlt).body
  rw [(hm.faithful hw hf).obstacle?_eq_none (hm.paired hw) (hm.live hn hg),
    hf.obstacleBut?_eq_none hw hn fun h c hb => hw.not_mem_gone hm hb, hm.fitsAlone hlt, hkernel]
  refine and_congr_right fun _ => ?_
  simp only [liveCalls, hcalls, List.mem_filter, decide_eq_true_eq, and_imp]
  -- a call that is left goes to a function that was there before
  refine forall_congr' fun call => forall_congr' fun hcall => ?_
  have hknown := hf.known n hn call hcall
  rw [hm.mem_live hknown, and_imp, hm.callFits hknown]

/-- Eligible functions stay eligible. -/
theorem Moves.obstacle?_mono (hm : Moves w gone made' v) (hw : Paired base made w) (hf : w.Faithful)
    (hn : n ∈ w.program.live) (hg : n ∉ gone) (ho : w.program.obstacle? n = none) : v.program.obstacle? n = none :=
  (hm.obstacle?_eq_none hw hf hn hg).mpr (Program.obstacleBut?_of_obstacle? ho)

/-- Moves that remove nothing do not change which functions are eligible. -/
theorem Moves.obstacle?_iff (hm : Moves w [] made' v) (hw : Paired base made w) (hf : w.Faithful)
    (hn : n ∈ w.program.live) : v.program.obstacle? n = none ↔ w.program.obstacle? n = none := by
  rw [hm.obstacle?_eq_none hw hf hn List.not_mem_nil, Program.obstacleBut?_nil]

/-! ### Accelerator sides -/

/-- The accelerator side of an eligible function is eligible. -/
theorem Paired.obstacle?_twin (hw : Paired base made w) (hf : w.Faithful)
    (hb : (w.summaries.of h).bound = some c) (ha : (w.program.function c).flags.addressTaken = false)
    (ho : w.program.obstacle? h = none) : w.program.obstacle? c = none := by
  have hpair := hw.pair h c hb
  obtain ⟨hkh, hkc⟩ := hw.kernel h c hb
  have hcalls : liveCalls w.program c = liveCalls w.program h := by
    rw [liveCalls, liveCalls, Program.callsOf_congr rfl rfl hpair.body]
  rw [hf.obstacle?_eq_none hw hpair.host_live, hkh] at ho
  rw [hf.obstacle?_eq_none hw hpair.twin_live, hkc, hcalls]
  exact ⟨hpair.fitsAlone ha ho.1, ho.2⟩

end Workspace

end Accelerator
