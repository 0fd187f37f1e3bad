import Accelerator.Proofs.Lookup
import Accelerator.Pass.Obstacle

/-!
# Which obstacle is reported

A function may have many defects, and the search for an obstacle stops at the first.  A `Defect` says what is wrong and
at which call, block, instruction and operand; its rank is the stage of the search that looks for it, followed by these
places.  Ranks are compared as lists are, from the front.  `Finds` says of a part of the search that it reports the
defect of the least rank; it holds of one check, of checks one after the other, and of a check along a list, and so of
the whole search (`finds_obstacle?`).
-/

namespace Accelerator

/-- A call whose result is built in a slot of the caller. -/
def Action.CallsIntoSlot {κ : Type} (a : Action κ) : Prop :=
  ∃ flags : CallFlags, flags.returnSlot = true ∧
    ((∃ callee, a = .call callee flags) ∨ ∃ target, a = .callIndirect target flags)

private theorem Action.usesReturnSlot_eq_true {κ : Type} {a : Action κ} :
    a.usesReturnSlot = true ↔ a.CallsIntoSlot := by
  cases a <;> simp [usesReturnSlot, CallsIntoSlot]

/-- What may be wrong with a function, and where: calls, blocks, the instructions of a block and the operands of an
instruction are counted from zero. -/
inductive Defect
  | virtualFunction
  | mainFunction
  | addressTaken
  | indirectCalls
  | constructorOrDestructor
  | throwingCall (call : Nat)
  | callOfIndirectCaller (call : Nat)
  | internalName
  | returnSlot (block inst : Nat)
  | functionAddress (block inst operand : Nat)
  | globalAddress (block inst operand : Nat)

/-- The instruction of a function at a place of a block. -/
def Program.instAt? (p : Program) (n : Node) (block inst : Nat) : Option Program.Inst :=
  (p.blocksOf n)[block]?.bind fun b => (p.instsOf b)[inst]?

namespace Defect

/-- What is reported for a defect. -/
def obstacle : Defect → Obstacle
  | virtualFunction => .virtualFunction
  | mainFunction => .mainFunction
  | addressTaken => .addressTaken
  | indirectCalls => .indirectCalls
  | constructorOrDestructor => .constructorOrDestructor
  | throwingCall _ => .throwingCall
  | callOfIndirectCaller _ => .callOfIndirectCaller
  | internalName => .internalName
  | returnSlot _ _ => .returnSlot
  | functionAddress _ _ _ => .functionAddress
  | globalAddress _ _ _ => .globalAddress

/-- The function at a node has the defect. -/
def Present (p : Program) (n : Node) : Defect → Prop
  | virtualFunction => (p.function n).traits.isVirtual = true
  | mainFunction => p.name n = "main"
  | addressTaken => (p.function n).flags.addressTaken = true
  | indirectCalls => 0 < (p.function n).indirectCalls
  | constructorOrDestructor => (p.function n).traits.isConstructor = true ∨ (p.function n).traits.isDestructor = true
  | throwingCall i => p.hasMarker n .kernel = false ∧ ∃ x, (p.edgesOf n)[i]? = some x ∧ x.throws = true
  | callOfIndirectCaller i => ∃ x, (p.edgesOf n)[i]? = some x ∧ 0 < (p.function x.callee).indirectCalls
  | internalName => ∃ start, p.name n = start ++ " "
  | returnSlot b i => ∃ inst, p.instAt? n b i = some inst ∧ inst.action ≠ .debug ∧ inst.action.CallsIntoSlot
  | functionAddress b i k => ∃ inst m, p.instAt? n b i = some inst ∧ inst.action ≠ .debug ∧
      (p.operandsOf inst)[k]? = some (.address (.function m))
  | globalAddress b i k => ∃ inst g, p.instAt? n b i = some inst ∧ inst.action ≠ .debug ∧
      (p.operandsOf inst)[k]? = some (.address (.global g))

/-- The stage of the search that looks for a defect: the checks of the declaration, the calls, the name, the body. -/
def stage : Defect → Nat
  | virtualFunction => 0
  | mainFunction => 1
  | addressTaken => 2
  | indirectCalls => 3
  | constructorOrDestructor => 4
  | throwingCall _ | callOfIndirectCaller _ => 5
  | internalName => 6
  | returnSlot _ _ | functionAddress _ _ _ | globalAddress _ _ _ => 7

/-- Where a stage of the search comes upon a defect.  Of a call it looks first whether it may throw, of an instruction
first whether it is a call into a slot. -/
def place : Defect → List Nat
  | throwingCall i => [i, 0]
  | callOfIndirectCaller i => [i, 1]
  | returnSlot b i => [b, i, 0]
  | functionAddress b i k | globalAddress b i k => [b, i, k + 1]
  | _ => []

/-- When the search comes upon a defect. -/
def rank (d : Defect) : List Nat := d.stage :: d.place

end Defect

open Defect

/-! ### Searches -/

/-- Two ranks are compared at the first place where they differ. -/
private theorem append_cons_le (l : List Nat) {i j : Nat} {r s : List Nat} (h : i < j) : l ++ i :: r ≤ l ++ j :: s := by
  induction l with
  | nil => exact le_of_lt (List.cons_lt_cons_iff.mpr (.inl h))
  | cons a l ih => exact List.cons_le_cons a ih

/-- The search reports the first of the defects `D`, and nothing only if there is none. -/
structure Finds (found : Option Obstacle) (D : Defect → Prop) : Prop where
  none : found = none → ∀ d, ¬D d
  some : ∀ o, found = some o → ∃ d, D d ∧ d.obstacle = o ∧ ∀ e, D e → d.rank ≤ e.rank

section

variable {D E : Defect → Prop} {a b : Option Obstacle} {k : Nat}

private theorem Finds.congr (h : Finds a D) (hDE : ∀ d, D d ↔ E d) : Finds a E := by
  have hsame : D = E := funext fun d => propext (hDE d)
  rwa [hsame] at h

private theorem finds_check {c : Prop} [Decidable c] (d : Defect) :
    Finds (if c then some d.obstacle else none) fun e => e = d ∧ c := by
  constructor
  · rintro h e ⟨-, hc⟩
    rw [if_pos hc] at h
    cases h
  · intro o h
    split at h
    · rename_i hc
      cases h
      exact ⟨d, ⟨rfl, hc⟩, rfl, fun e he => he.1 ▸ le_refl _⟩
    · cases h

/-- If the first of two searches finds something, it comes before all that the second is for. -/
private theorem Finds.or (ha : Finds a D) (hb : Finds b E) (hle : ∀ d e, D d → E e → d.rank ≤ e.rank) :
    Finds (a.or b) fun d => D d ∨ E d := by
  constructor
  · intro h d hd
    obtain ⟨hna, hnb⟩ := Option.or_eq_none_iff.mp h
    exact hd.elim (ha.none hna d) (hb.none hnb d)
  · intro o h
    rcases Option.or_eq_some_iff.mp h with hsome | ⟨hnone, hsome⟩
    · obtain ⟨d, hd, ho, hleast⟩ := ha.some o hsome
      exact ⟨d, .inl hd, ho, fun e he => he.elim (hleast e) (hle d e hd)⟩
    · obtain ⟨d, hd, ho, hleast⟩ := hb.some o hsome
      exact ⟨d, .inr hd, ho, fun e he => he.elim (fun hD => absurd hD (ha.none hnone e)) (hleast e)⟩

/-- A search for what belongs to one stage, followed by one for what belongs to later stages. -/
private theorem Finds.or_later (ha : Finds a fun d => D d ∧ d.stage = k) (hb : Finds b fun d => D d ∧ k < d.stage) :
    Finds (a.or b) fun d => D d ∧ k ≤ d.stage := by
  refine (ha.or hb fun d e hd he => append_cons_le [] (hd.2 ▸ he.2)).congr fun d => ?_
  rw [← and_or_left, Nat.le_iff_lt_or_eq, or_comm, eq_comm]

/-- A search along a list finds what comes first in the list. -/
private theorem finds_findSome? {α : Type} {f : α → Option Obstacle} {l : List α} {F : Nat → α → Defect → Prop}
    (hf : ∀ i x, l[i]? = some x → Finds (f x) (F i x))
    (hle : ∀ i j x y d e, i < j → F i x d → F j y e → d.rank ≤ e.rank) :
    Finds (l.findSome? f) fun d => ∃ i x, l[i]? = some x ∧ F i x d := by
  constructor
  · rintro h d ⟨i, x, hx, hd⟩
    exact (hf i x hx).none (List.findSome?_eq_none_iff.mp h x (List.mem_of_getElem? hx)) d hd
  · intro o h
    obtain ⟨before, x, after, rfl, hx, hbefore⟩ := List.findSome?_eq_some_iff.mp h
    have hat : (before ++ x :: after)[before.length]? = some x := by simp
    obtain ⟨d, hd, ho, hleast⟩ := (hf _ x hat).some o hx
    refine ⟨d, ⟨_, x, hat, hd⟩, ho, ?_⟩
    rintro e ⟨j, y, hy, he⟩
    rcases Nat.lt_trichotomy j before.length with hlt | rfl | hgt
    · -- the search passed by what comes before
      rw [List.getElem?_append_left hlt] at hy
      exact absurd he ((hf j y (by rwa [List.getElem?_append_left hlt])).none (hbefore y (List.mem_of_getElem? hy)) e)
    · rw [hat] at hy
      cases hy
      exact hleast e he
    · exact hle _ j x y d e hgt hd he

end

private theorem findSome?_flatMap {α β γ : Type} (f : β → Option γ) (g : α → List β) (l : List α) :
    (l.flatMap g).findSome? f = l.findSome? fun a => (g a).findSome? f := by
  induction l with
  | nil => rfl
  | cons a l ih =>
    rw [List.flatMap_cons, List.findSome?_append, ih, List.findSome?_cons]
    cases (g a).findSome? f <;> rfl

namespace Program

variable {p : Program} {n : Node}

/-! ### The stages -/

private theorem finds_nameObstacle? (title : String) :
    Finds (nameObstacle? title) fun d => d = internalName ∧ ∃ start, title = start ++ " " := by
  have hiff : title.toList.getLast? = some ' ' ↔ ∃ start, title = start ++ " " := by
    rw [List.getLast?_eq_some_iff]
    constructor
    · rintro ⟨l, hl⟩
      exact ⟨String.ofList l, String.toList_inj.mp (by simpa using hl)⟩
    · rintro ⟨start, rfl⟩
      exact ⟨start.toList, by simp⟩
  exact (finds_check (c := title.toList.getLast? = some ' ') internalName).congr fun d => and_congr_right fun _ => hiff

/-- What may be wrong with the call at place `i`. -/
def CallDefect (p : Program) (kernel : Bool) (i : Nat) (x : Edge) (d : Defect) : Prop :=
  (d = throwingCall i ∧ kernel = false ∧ x.throws = true) ∨
    (d = callOfIndirectCaller i ∧ 0 < (p.function x.callee).indirectCalls)

private theorem finds_edgeObstacle? (kernel : Bool) (i : Nat) (x : Edge) :
    Finds (p.edgeObstacle? kernel x) (p.CallDefect kernel i x) := by
  have hor : p.edgeObstacle? kernel x =
      (if kernel = false ∧ x.throws = true then some (throwingCall i).obstacle else none).or
        (if 0 < (p.function x.callee).indirectCalls then some (callOfIndirectCaller i).obstacle else none) := by
    unfold edgeObstacle? hasIndirectCalls
    cases kernel <;> cases x.throws <;> simp [Defect.obstacle]
  rw [hor]
  refine (finds_check _).or (finds_check _) ?_
  rintro d e ⟨rfl, -⟩ ⟨rfl, -⟩
  exact append_cons_le [5, i] Nat.zero_lt_one

private theorem finds_edges :
    Finds ((p.edgesOf n).findSome? (p.edgeObstacle? (p.hasMarker n .kernel))) fun d => d.Present p n ∧ d.stage = 5 := by
  refine (finds_findSome? (fun i x _ => finds_edgeObstacle? _ i x) ?_).congr fun d => ?_
  · rintro i j x y d e hij (⟨rfl, -⟩ | ⟨rfl, -⟩) (⟨rfl, -⟩ | ⟨rfl, -⟩) <;> exact append_cons_le [5] hij
  · cases d with
    | throwingCall i =>
      constructor
      · rintro ⟨j, x, hx, ⟨hd, hkernel, hthrows⟩ | ⟨hd, -⟩⟩
        · cases hd
          exact ⟨⟨hkernel, x, hx, hthrows⟩, rfl⟩
        · cases hd
      · rintro ⟨⟨hkernel, x, hx, hthrows⟩, -⟩
        exact ⟨i, x, hx, .inl ⟨rfl, hkernel, hthrows⟩⟩
    | callOfIndirectCaller i =>
      constructor
      · rintro ⟨j, x, hx, ⟨hd, -⟩ | ⟨hd, hindirect⟩⟩
        · cases hd
        · cases hd
          exact ⟨⟨x, hx, hindirect⟩, rfl⟩
      · rintro ⟨⟨x, hx, hindirect⟩, -⟩
        exact ⟨i, x, hx, .inr ⟨rfl, hindirect⟩⟩
    | _ => simp [CallDefect, stage]

/-- What may be wrong with the operand at place `k` of an instruction. -/
def OperandDefect (b i k : Nat) (x : Operand Symbol) (d : Defect) : Prop :=
  (d = functionAddress b i k ∧ ∃ m, x = .address (.function m)) ∨
    (d = globalAddress b i k ∧ ∃ g, x = .address (.global g))

private theorem finds_operandObstacle? (b i k : Nat) (x : Operand Symbol) :
    Finds (operandObstacle? x) (OperandDefect b i k x) := by
  classical
  have hor : operandObstacle? x =
      (if ∃ m, x = .address (.function m) then some (functionAddress b i k).obstacle else none).or
        (if ∃ g, x = .address (.global g) then some (globalAddress b i k).obstacle else none) := by
    rcases x with _ | _ | _ | (_ | _) | _ <;> simp [operandObstacle?, Defect.obstacle]
  rw [hor]
  refine (finds_check _).or (finds_check _) ?_
  rintro d e ⟨rfl, -⟩ ⟨rfl, -⟩
  exact le_refl _

/-- What may be wrong with the instruction at place `i` of block `b`. -/
def InstDefect (p : Program) (b i : Nat) (inst : Inst) (d : Defect) : Prop :=
  inst.action ≠ .debug ∧ ((d = returnSlot b i ∧ inst.action.usesReturnSlot = true) ∨
    ∃ k x, (p.operandsOf inst)[k]? = some x ∧ OperandDefect b i k x d)

private theorem InstDefect.rank_eq {b i : Nat} {inst : Inst} {d : Defect} (h : p.InstDefect b i inst d) :
    ∃ l, d.rank = 7 :: b :: i :: l := by
  obtain ⟨-, ⟨rfl, -⟩ | ⟨k, x, -, ⟨rfl, -⟩ | ⟨rfl, -⟩⟩⟩ := h
  · exact ⟨_, rfl⟩
  · exact ⟨_, rfl⟩
  · exact ⟨_, rfl⟩

private theorem finds_instObstacle? (b i : Nat) (inst : Inst) :
    Finds (p.instObstacle? inst) (p.InstDefect b i inst) := by
  unfold instObstacle?
  by_cases hdebug : inst.action = .debug
  · rw [if_pos hdebug]
    exact ⟨fun _ d hd => hd.1 hdebug, fun o ho => by cases ho⟩
  · have hor : (if inst.action.usesReturnSlot = true then some .returnSlot
          else (p.operandsOf inst).findSome? operandObstacle?) =
        (if inst.action.usesReturnSlot = true then some (returnSlot b i).obstacle else none).or
          ((p.operandsOf inst).findSome? operandObstacle?) := by
      split <;> rfl
    have hoperands := finds_findSome? (l := p.operandsOf inst) (fun k x _ => finds_operandObstacle? b i k x) (by
      rintro k l x y d e hkl (⟨rfl, -⟩ | ⟨rfl, -⟩) (⟨rfl, -⟩ | ⟨rfl, -⟩) <;>
        exact append_cons_le [7, b, i] (Nat.succ_lt_succ hkl))
    rw [if_neg hdebug, hor]
    refine ((finds_check _).or hoperands ?_).congr fun d => ?_
    · rintro d e ⟨rfl, -⟩ ⟨k, x, -, ⟨rfl, -⟩ | ⟨rfl, -⟩⟩ <;>
        exact append_cons_le [7, b, i] (Nat.succ_pos k)
    · exact (and_iff_right hdebug).symm

private theorem finds_block (b : Nat) (block : Block) : Finds ((p.instsOf block).findSome? p.instObstacle?) fun d =>
    ∃ i inst, (p.instsOf block)[i]? = some inst ∧ p.InstDefect b i inst d := by
  refine finds_findSome? (fun i inst _ => finds_instObstacle? b i inst) ?_
  intro i j x y d e hij hd he
  obtain ⟨l, hd⟩ := hd.rank_eq
  obtain ⟨m, he⟩ := he.rank_eq
  rw [hd, he]
  exact append_cons_le [7, b] hij

private theorem instAt?_eq_some {b i : Nat} {inst : Inst} : p.instAt? n b i = some inst ↔
    ∃ block, (p.blocksOf n)[b]? = some block ∧ (p.instsOf block)[i]? = some inst := Option.bind_eq_some_iff

private theorem finds_insts :
    Finds (((p.blocksOf n).flatMap p.instsOf).findSome? p.instObstacle?) fun d => d.Present p n ∧ d.stage = 7 := by
  rw [findSome?_flatMap]
  refine (finds_findSome? (fun b block _ => finds_block b block) ?_).congr fun d => ?_
  · rintro b c x y d e hbc ⟨i, inst, -, hd⟩ ⟨j, inst', -, he⟩
    obtain ⟨l, hd⟩ := hd.rank_eq
    obtain ⟨m, he⟩ := he.rank_eq
    rw [hd, he]
    exact append_cons_le [7] hbc
  · constructor
    · rintro ⟨b, block, hblock, i, inst, hinst, hdebug, ⟨rfl, hslot⟩ | ⟨k, x, hx, ⟨rfl, m, rfl⟩ | ⟨rfl, g, rfl⟩⟩⟩
      · exact ⟨⟨inst, instAt?_eq_some.mpr ⟨block, hblock, hinst⟩, hdebug, Action.usesReturnSlot_eq_true.mp hslot⟩, rfl⟩
      · exact ⟨⟨inst, m, instAt?_eq_some.mpr ⟨block, hblock, hinst⟩, hdebug, hx⟩, rfl⟩
      · exact ⟨⟨inst, g, instAt?_eq_some.mpr ⟨block, hblock, hinst⟩, hdebug, hx⟩, rfl⟩
    · rintro ⟨hd, hstage⟩
      cases d with
      | returnSlot b i =>
        obtain ⟨inst, hinst, hdebug, hslot⟩ := hd
        obtain ⟨block, hblock, hinst⟩ := instAt?_eq_some.mp hinst
        exact ⟨b, block, hblock, i, inst, hinst, hdebug, .inl ⟨rfl, Action.usesReturnSlot_eq_true.mpr hslot⟩⟩
      | functionAddress b i k =>
        obtain ⟨inst, m, hinst, hdebug, hx⟩ := hd
        obtain ⟨block, hblock, hinst⟩ := instAt?_eq_some.mp hinst
        exact ⟨b, block, hblock, i, inst, hinst, hdebug, .inr ⟨k, _, hx, .inl ⟨rfl, m, rfl⟩⟩⟩
      | globalAddress b i k =>
        obtain ⟨inst, g, hinst, hdebug, hx⟩ := hd
        obtain ⟨block, hblock, hinst⟩ := instAt?_eq_some.mp hinst
        exact ⟨b, block, hblock, i, inst, hinst, hdebug, .inr ⟨k, _, hx, .inr ⟨rfl, g, rfl⟩⟩⟩
      | _ => cases hstage

/-! ### The whole search -/

/-- The search as one check after the other. -/
private theorem obstacle?_eq_or (p : Program) (n : Node) : p.obstacle? n =
    (if (p.function n).traits.isVirtual = true then some virtualFunction.obstacle else none).or
      ((if p.name n = "main" then some mainFunction.obstacle else none).or
      ((if (p.function n).flags.addressTaken = true then some addressTaken.obstacle else none).or
      ((if 0 < (p.function n).indirectCalls then some indirectCalls.obstacle else none).or
      ((if (p.function n).traits.isConstructor = true ∨ (p.function n).traits.isDestructor = true then
        some constructorOrDestructor.obstacle else none).or
      (((p.edgesOf n).findSome? (p.edgeObstacle? (p.hasMarker n .kernel))).or
      ((nameObstacle? (p.name n)).or
      (((p.blocksOf n).flatMap p.instsOf).findSome? p.instObstacle?))))))) := by
  unfold obstacle? Function.obstacle? name
  simp only [Bool.or_eq_true]
  split_ifs <;> simp [Defect.obstacle, Option.or_assoc]

theorem finds_obstacle? (p : Program) (n : Node) : Finds (p.obstacle? n) (Present p n) := by
  have hcheck : ∀ (d₀ : Defect) (c : Prop) [Decidable c], (∀ d, d.Present p n ∧ d.stage = d₀.stage ↔ d = d₀ ∧ c) →
      Finds (if c then some d₀.obstacle else none) fun d => d.Present p n ∧ d.stage = d₀.stage := fun d₀ c _ h =>
    (finds_check d₀).congr fun d => (h d).symm
  have hname : Finds (nameObstacle? (p.name n)) fun d => d.Present p n ∧ d.stage = 6 :=
    (finds_nameObstacle? (p.name n)).congr fun d => by cases d <;> simp [Present, stage]
  have hbody : Finds (((p.blocksOf n).flatMap p.instsOf).findSome? p.instObstacle?) fun d =>
      d.Present p n ∧ 6 < d.stage :=
    finds_insts.congr fun d => and_congr_right fun _ => by cases d <;> simp [stage]
  rw [obstacle?_eq_or]
  refine Finds.congr (Finds.or_later (k := 0) (hcheck virtualFunction _ ?_) <|
    Finds.or_later (hcheck mainFunction _ ?_) <| Finds.or_later (hcheck addressTaken _ ?_) <|
    Finds.or_later (hcheck indirectCalls _ ?_) <| Finds.or_later (hcheck constructorOrDestructor _ ?_) <|
    Finds.or_later finds_edges <| Finds.or_later hname hbody) ?_
  all_goals
    intro d
    cases d <;> simp [Present, stage]

/-! ### Eligible functions -/

/-- The function at a node may run on the accelerator. -/
structure Eligible (p : Program) (n : Node) : Prop where
  not_virtual : (p.function n).traits.isVirtual = false
  not_main : p.name n ≠ "main"
  address_kept : (p.function n).flags.addressTaken = false
  direct : (p.function n).indirectCalls = 0
  not_constructor : (p.function n).traits.isConstructor = false
  not_destructor : (p.function n).traits.isDestructor = false
  /-- Every function that is called makes direct calls only. -/
  callees : ∀ x ∈ p.edgesOf n, (p.function x.callee).indirectCalls = 0
  /-- Only a kernel may make calls that throw. -/
  throws : ∀ x ∈ p.edgesOf n, x.throws = true → p.hasMarker n .kernel = true
  name : ∀ start, p.name n ≠ start ++ " "
  body : ∀ block ∈ p.blocksOf n, ∀ inst ∈ p.instsOf block, inst.action ≠ .debug →
    ¬inst.action.CallsIntoSlot ∧
      ∀ x ∈ p.operandsOf inst, (∀ m, x ≠ .address (.function m)) ∧ ∀ g, x ≠ .address (.global g)

private theorem Eligible.not_present (h : p.Eligible n) (d : Defect) : ¬d.Present p n := by
  -- what is at a place of the body fulfils what is said of the body
  have hinst : ∀ {b i inst}, p.instAt? n b i = some inst → inst.action ≠ .debug → ¬inst.action.CallsIntoSlot ∧
      ∀ x ∈ p.operandsOf inst, (∀ m, x ≠ .address (.function m)) ∧ ∀ g, x ≠ .address (.global g) := by
    intro b i inst hat hdebug
    obtain ⟨block, hblock, hmem⟩ := instAt?_eq_some.mp hat
    exact h.body block (List.mem_of_getElem? hblock) inst (List.mem_of_getElem? hmem) hdebug
  intro hd
  cases d with
  | virtualFunction => exact Bool.false_ne_true (h.not_virtual.symm.trans hd)
  | mainFunction => exact h.not_main hd
  | addressTaken => exact Bool.false_ne_true (h.address_kept.symm.trans hd)
  | indirectCalls => exact Nat.ne_of_gt hd h.direct
  | constructorOrDestructor =>
    rcases hd with hd | hd
    · exact Bool.false_ne_true (h.not_constructor.symm.trans hd)
    · exact Bool.false_ne_true (h.not_destructor.symm.trans hd)
  | throwingCall i =>
    obtain ⟨hkernel, x, hx, hthrows⟩ := hd
    exact Bool.false_ne_true (hkernel.symm.trans (h.throws x (List.mem_of_getElem? hx) hthrows))
  | callOfIndirectCaller i =>
    obtain ⟨x, hx, hindirect⟩ := hd
    exact Nat.ne_of_gt hindirect (h.callees x (List.mem_of_getElem? hx))
  | internalName =>
    obtain ⟨start, hname⟩ := hd
    exact h.name start hname
  | returnSlot b i =>
    obtain ⟨inst, hat, hdebug, hslot⟩ := hd
    exact (hinst hat hdebug).1 hslot
  | functionAddress b i k =>
    obtain ⟨inst, m, hat, hdebug, hx⟩ := hd
    exact ((hinst hat hdebug).2 _ (List.mem_of_getElem? hx)).1 m rfl
  | globalAddress b i k =>
    obtain ⟨inst, g, hat, hdebug, hx⟩ := hd
    exact ((hinst hat hdebug).2 _ (List.mem_of_getElem? hx)).2 g rfl

private theorem eligible_of_not_present (h : ∀ d : Defect, ¬d.Present p n) : p.Eligible n where
  not_virtual := Bool.eq_false_iff.mpr (h virtualFunction)
  not_main := h mainFunction
  address_kept := Bool.eq_false_iff.mpr (h addressTaken)
  direct := Nat.eq_zero_of_not_pos (h indirectCalls)
  not_constructor := Bool.eq_false_iff.mpr fun hc => h constructorOrDestructor (.inl hc)
  not_destructor := Bool.eq_false_iff.mpr fun hc => h constructorOrDestructor (.inr hc)
  callees x hx := by
    obtain ⟨i, hi⟩ := List.mem_iff_getElem?.mp hx
    exact Nat.eq_zero_of_not_pos fun hpos => h (callOfIndirectCaller i) ⟨x, hi, hpos⟩
  throws x hx ht := by
    obtain ⟨i, hi⟩ := List.mem_iff_getElem?.mp hx
    by_contra hk
    exact h (throwingCall i) ⟨Bool.eq_false_iff.mpr hk, x, hi, ht⟩
  name start hname := h internalName ⟨start, hname⟩
  body block hblock inst hinst hdebug := by
    obtain ⟨b, hb⟩ := List.mem_iff_getElem?.mp hblock
    obtain ⟨i, hi⟩ := List.mem_iff_getElem?.mp hinst
    have hat : p.instAt? n b i = some inst := instAt?_eq_some.mpr ⟨block, hb, hi⟩
    refine ⟨fun hslot => h (returnSlot b i) ⟨inst, hat, hdebug, hslot⟩, fun x hx => ?_⟩
    obtain ⟨k, hk⟩ := List.mem_iff_getElem?.mp hx
    constructor
    · rintro m rfl
      exact h (functionAddress b i k) ⟨inst, m, hat, hdebug, hk⟩
    · rintro g rfl
      exact h (globalAddress b i k) ⟨inst, g, hat, hdebug, hk⟩

/-- Two defects that the search comes upon at once are reported alike, since an operand has one kind. -/
private theorem obstacle_eq_of_rank_eq {d e : Defect} (hd : d.Present p n) (he : e.Present p n) (h : d.rank = e.rank) :
    d.obstacle = e.obstacle := by
  have hkind : ∀ {b i k}, (functionAddress b i k).Present p n → ¬(globalAddress b i k).Present p n := by
    rintro b i k ⟨inst, m, hat, -, hx⟩ ⟨inst', g, hat', -, hx'⟩
    rw [hat] at hat'
    cases hat'
    rw [hx] at hx'
    cases hx'
  cases d <;> cases e <;> simp_all [rank, stage, place, Defect.obstacle]

/-- The search for an obstacle finds none if and only if the function is eligible, and otherwise it reports what is
wrong first: the declaration is looked at first, then the calls one by one, then the name, then the body instruction by
instruction, and of an instruction a slot for the result before the operands. -/
theorem eligible_or_first_defect (p : Program) (n : Node) :
    (p.obstacle? n = none ↔ p.Eligible n) ∧
    ∀ o, p.obstacle? n = some o ↔
      ∃ d : Defect, d.Present p n ∧ d.obstacle = o ∧ ∀ e : Defect, e.Present p n → d.rank ≤ e.rank := by
  have hfinds := finds_obstacle? p n
  refine ⟨⟨fun h => eligible_of_not_present (hfinds.none h), fun h => ?_⟩, fun o => ⟨hfinds.some o, ?_⟩⟩
  · by_contra hne
    obtain ⟨o, ho⟩ := Option.ne_none_iff_exists'.mp hne
    obtain ⟨d, hd, -⟩ := hfinds.some o ho
    exact h.not_present d hd
  · rintro ⟨d, hd, rfl, hleast⟩
    cases ho : p.obstacle? n with
    | none => exact absurd hd (hfinds.none ho d)
    | some o =>
      obtain ⟨e, he, rfl, hleast'⟩ := hfinds.some o ho
      rw [obstacle_eq_of_rank_eq hd he (le_antisymm (hleast e he) (hleast' d hd))]

end Program

end Accelerator
