import Accelerator.Program.Printer
import Accelerator.Proofs.Accepted

/-!
# Declarations in the printed form

A declaration that is added to a program shows in its printed form and changes nothing before it
(`Declared.exists_render`), because the functions of a program that was read mention only functions that are there.
-/

namespace Accelerator.Program

variable {p q : Program} {n : Node}

/-- The program `q` is `p` with declarations added for names that were looked up. -/
inductive Declared (p : Program) : Program → Prop
  | refl : Declared p p
  | declare {q : Program} (h : Declared p q) (title : String) : Declared p (q.getOrDeclare title).2

/-- The tables fit together, and what is called and what addresses are taken of is there. -/
structure Closed (p : Program) : Prop where
  coherent : p.Coherent
  callee_lt : ∀ i ∈ p.insts, ∀ n, i.action.callee? = some n → n < p.functions.size
  function_lt : ∀ n, .address (.function n) ∈ p.operands → n < p.functions.size

theorem closed_parse {text : String} (hparse : Program.parse text = .ok p) : p.Closed := by
  have hcoherent := coherent_parse hparse
  obtain ⟨items, -, hwell, rfl⟩ := parse_wellFormed hparse
  exact ⟨hcoherent, hwell.laidOut.callee_lt, hwell.laidOut.function_lt⟩

private theorem mem_of_mem_span {α : Type} {s : Span} {table : Array α} {x : α} (h : x ∈ s.of table) : x ∈ table := by
  rw [Span.of, Array.toList_extract] at h
  exact Array.mem_def.mpr (List.mem_of_mem_drop (List.mem_of_mem_take h))

private theorem name_addFunction_old {f : Function} (hn : n < p.functions.size) :
    (p.addFunction f).name n = p.name n := by
  rw [name, name, function_addFunction, if_neg (Nat.ne_of_lt hn)]

private theorem renderInst_addFunction (h : p.Closed) (f : Function) {i : Inst} (hi : i ∈ p.insts) :
    (p.addFunction f).renderInst i = p.renderInst i := by
  have hoperands : (p.addFunction f).renderOperands i = p.renderOperands i := by
    unfold renderOperands
    congr 1
    apply List.map_congr_left
    intro o ho
    have hmem : o ∈ p.operands := mem_of_mem_span ho
    cases o with
    | address symbol =>
      cases symbol with
      | function n =>
        show "&" ++ (p.addFunction f).name n = "&" ++ p.name n
        rw [name_addFunction_old (h.function_lt n hmem)]
      | global g => rfl
    | _ => rfl
  have haction : (p.addFunction f).renderAction i = p.renderAction i := by
    unfold renderAction renderPlainTail renderCallTail
    rw [hoperands]
    cases ha : i.action with
    | call callee flags =>
      dsimp only
      rw [name_addFunction_old (h.callee_lt i hi callee (by rw [ha]; rfl))]
    | _ => rfl
  unfold renderInst
  rw [haction]

/-- A function that is added does not show in the lines of the others. -/
private theorem functionLines_addFunction (h : p.Closed) (f : Function) (hn : n ∈ p.live) :
    (p.addFunction f).functionLines n = p.functionLines n := by
  have hlt := lt_size_of_mem_live hn
  have hfunction : (p.addFunction f).function n = p.function n := by
    rw [function_addFunction, if_neg (Nat.ne_of_lt hlt)]
  have hedges : ((p.addFunction f).edgesOf n).map ((p.addFunction f).renderEdge (p.function n).name) =
      (p.edgesOf n).map (p.renderEdge (p.function n).name) := by
    rw [edgesOf, edgesOf, hfunction, List.map_map, List.map_map]
    apply List.map_congr_left
    intro e he
    have hcallee := lt_size_of_mem_live (h.coherent.callee_live hn he)
    show renderEdge _ _ (p.edge e) = renderEdge _ _ (p.edge e)
    unfold renderEdge
    rw [name_addFunction_old hcallee]
  have hblocks : ((p.addFunction f).blocksOf n).flatMap (p.addFunction f).blockLines =
      (p.blocksOf n).flatMap p.blockLines := by
    rw [blocksOf, blocksOf, hfunction]
    apply List.flatMap_congr
    intro b _
    have hinsts : (p.instsOf b).map (p.addFunction f).renderInst = (p.instsOf b).map p.renderInst :=
      List.map_congr_left fun i hi => renderInst_addFunction h f (mem_of_mem_span hi)
    exact congrArg (("  Block " ++ b.label) :: ·) hinsts
  unfold functionLines hasIndirectCalls
  dsimp only
  rw [hfunction, hedges, hblocks]

private theorem live_addFunction {f : Function} (hf : f.removed = false) :
    (p.addFunction f).live = p.live ++ [p.functions.size] := by
  have hold : ∀ n ∈ List.range p.functions.size,
      (!((p.addFunction f).function n).removed) = !(p.function n).removed := by
    intro n hn
    rw [function_addFunction, if_neg (Nat.ne_of_lt (List.mem_range.mp hn))]
  have hnew : (p.addFunction f).function p.functions.size = f := by rw [function_addFunction, if_pos rfl]
  rw [live, size_addFunction, List.range_succ, List.filter_append, List.filter_congr hold]
  simp [live, hnew, hf]

private theorem render_addFunction (h : p.Closed) {f : Function} (hf : f.removed = false) :
    (p.addFunction f).render = p.render ++
      String.join (((p.addFunction f).functionLines p.functions.size).map (· ++ "\n")) := by
  have hlines : (p.addFunction f).lines = p.lines ++ (p.addFunction f).functionLines p.functions.size := by
    unfold lines
    rw [live_addFunction hf, List.flatMap_append, List.flatMap_singleton, ← List.append_assoc]
    congr 2
    exact List.flatMap_congr fun n hn => functionLines_addFunction h f hn
  rw [← String.toList_inj]
  simp [render, hlines, String.toList_join]

private theorem Closed.addDeclaration (h : p.Closed) {title : String} (hname : p.names[title]? = none) :
    (p.addFunction (declaration title)).Closed := by
  have hcoherent := h.coherent.getOrDeclare title
  rw [getOrDeclare, hname] at hcoherent
  refine ⟨hcoherent, fun i hi n hn => ?_, fun n hn => ?_⟩
  · rw [size_addFunction]
    exact Nat.lt_succ_of_lt (h.callee_lt i hi n hn)
  · rw [size_addFunction]
    exact Nat.lt_succ_of_lt (h.function_lt n hn)

/-- What is declared shows at the end of the printed form. -/
theorem Declared.exists_render (h : p.Closed) (hq : Declared p q) :
    q.Closed ∧ ∃ more, q.render = p.render ++ more ∧ (more = "" → q = p) := by
  induction hq with
  | refl => exact ⟨h, "", by simp, fun _ => rfl⟩
  | @declare q _ title ih =>
    obtain ⟨hclosed, more, hmore, heq⟩ := ih
    unfold getOrDeclare
    cases hname : q.names[title]? with
    | some n => exact ⟨hclosed, more, hmore, heq⟩
    | none =>
      refine ⟨hclosed.addDeclaration hname, ?_⟩
      refine ⟨more ++ String.join
        (((q.addFunction (declaration title)).functionLines q.functions.size).map (· ++ "\n")), ?_, fun hempty => ?_⟩
      · show (q.addFunction (declaration title)).render = _
        rw [render_addFunction hclosed rfl, hmore, String.append_assoc]
      · -- a function has a head line
        rw [← String.toList_inj] at hempty
        simp [functionLines, String.toList_join] at hempty

end Accelerator.Program
