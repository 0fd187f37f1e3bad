import Accelerator.Proofs.Reachable
import Accelerator.Proofs.Tables

/-!
# Texts that are accepted

A text that is accepted is read to its end as a well-formed tree (`Program.parse_wellFormed`): the body of a function
has distinct labels because each label is compared with those before it, and every mention was looked up at the end.
So its tables are laid out and show that tree.
-/

namespace Accelerator

namespace Scanner

variable {τ ε σ : Type}

/-- A loop ends where its last round does. -/
private theorem exists_last_of_loop {round : σ → Scanner τ ε (Option σ)} {h : ∀ a, Progresses (round a)} {a b : σ}
    {s r : List τ} (hl : loop round h a s = .ok (b, r)) : ∃ t, round b t = .ok (none, r) := by
  fun_induction loop round h a s with
  | case1 => cases hl
  | case2 c t r' hs =>
    cases hl
    exact ⟨t, hs⟩
  | case3 c t d r' hs _ ih => exact ih hl

end Scanner

namespace Source

open Scanner

private theorem gives_body (owner : String) : Gives (body owner) fun bs => ((bs.getD []).map (·.label)).Nodup := by
  refine gives_bind fun declared => ?_
  split
  · exact gives_pure List.nodup_nil
  · refine gives_bind fun _ => Gives.bind (P := fun bs => (bs.map (·.label)).Nodup) ?_ fun bs hbs => gives_pure hbs
    refine gives_loop (fun bs hbs => gives_bind fun closes => ?_) List.nodup_nil
    split
    · exact gives_pure (by simp)
    · refine gives_bind fun _ => gives_bind fun _ => gives_bind fun b => ?_
      refine (gives_refuse _ _).bind fun _ hnew => gives_pure ?_
      rintro _ ⟨⟩
      have hfresh : b.label ∉ bs.map (·.label) := by simpa using hnew
      rw [List.map_append]
      exact hbs.append (List.nodup_singleton _) (by simpa using hfresh)

/-- What holds of every function that is read holds of the functions of a program. -/
private theorem gives_program_functions {P : Function Mention → Prop} (hP : ∀ title, Gives (function title) P) :
    Gives program fun items => ∀ f ∈ functions items, P f := by
  have hitem : ∀ items, Gives (item items) fun i => ∀ f, i.function? = some f → P f := by
    intro items
    refine gives_bind fun title => gives_bind fun _ => gives_bind fun next => ?_
    split
    · exact gives_bind fun title => gives_bind fun _ => gives_pure (by rintro f ⟨⟩)
    · refine gives_bind fun _ => (hP title).bind fun f hf => gives_pure ?_
      rintro _ ⟨⟩
      exact hf
  refine gives_loop (fun items hitems => gives_bind fun _ => gives_bind fun s => ?_) (by simp [functions])
  split
  · exact gives_pure (by simp)
  · refine (hitem items).bind fun i hi => gives_pure ?_
    rintro _ ⟨⟩ f hf
    rw [functions, List.filterMap_append, List.mem_append] at hf
    rcases hf with hf | hf
    · exact hitems f hf
    · exact hi f (by simpa using hf)

private theorem gives_labels : Gives program fun items => ∀ f ∈ functions items, (f.blocks.map (·.label)).Nodup := by
  refine gives_program_functions fun title => gives_bind fun args => gives_bind fun ms => gives_bind fun words => ?_
  exact (gives_body title).bind fun bs hbs => gives_pure hbs

/-- A program is read to the end of the text. -/
private theorem program_eq_ok {s r : List Char} {items : List (Item Mention)} (h : program s = .ok (items, r)) :
    r = [] := by
  obtain ⟨t, ht⟩ := exists_last_of_loop h
  obtain ⟨-, r₁, -, ht⟩ := bind_eq_ok.mp ht
  obtain ⟨s', r₂, hs, ht⟩ := bind_eq_ok.mp ht
  cases hs
  split at ht
  · rename_i hempty
    cases ht
    simpa using hempty
  · obtain ⟨i, r₃, -, ht⟩ := bind_eq_ok.mp ht
    cases ht

variable {items : List (Item Mention)}

private theorem labels_map (f : Function Mention) :
    (f.map (·.name)).blocks.map (·.label) = f.blocks.map (·.label) := by
  cases hb : f.body <;> simp [Function.map, Function.blocks, hb, Block.map, Function.comp_def]

theorem addressed_map : addressed (items.map (·.map (·.name))) = (addressed items).map (·.name) := by
  rw [addressed, addressed, insts_map, List.flatMap_map, List.map_flatMap]
  refine List.flatMap_congr fun i _ => ?_
  rw [Inst.map, List.filterMap_map, List.map_filterMap]
  apply List.filterMap_congr
  intro o _
  cases o <;> rfl

/-- A tree that was read, and in which every mention is defined, is well formed. -/
private theorem wellFormed_of_resolved {s r : List Char} (hprog : program s = .ok (items, r))
    (hr : unresolved? items = none) : WellFormed (items.map (·.map (·.name))) := by
  obtain ⟨hnames, hmarkers⟩ := gives_program _ _ _ hprog
  have hlabels := gives_labels _ _ _ hprog
  refine ⟨wellNamed_of_resolved hnames hmarkers hr, ?_, ?_⟩
  · intro f hf
    rw [functions_map, List.mem_map] at hf
    obtain ⟨g, hg, rfl⟩ := hf
    rw [labels_map]
    exact hlabels g hg
  · intro title ht
    rw [addressed_map, List.mem_map] at ht
    obtain ⟨m, hm, rfl⟩ := ht
    have hfind : (addressed items).find? (fun m => !(items.map (·.name)).contains m.name) = none := by
      simp only [unresolved?] at hr
      split at hr
      · cases hr
      · exact Option.map_eq_none_iff.mp hr
    have hknown := List.find?_eq_none.mp hfind m hm
    rw [names_map]
    simpa using hknown

end Source

namespace Program

theorem parse_wellFormed {text : String} {p : Program} (h : Program.parse text = .ok p) :
    ∃ items, Source.program text.toList = .ok (items, []) ∧ Source.WellFormed (items.map (·.map (·.name))) ∧
      p = Source.layOut (items.map (·.map (·.name))) := by
  unfold Program.parse at h
  simp only at h
  split at h
  · cases h
  · rename_i items rest hprog
    split at h
    · cases h
    · rename_i hres
      cases h
      have hwell := Source.wellFormed_of_resolved hprog hres
      rw [Source.program_eq_ok hprog] at hprog
      exact ⟨items, hprog, hwell, rfl⟩

/-- The tables of a text that is accepted are cut into consecutive parts, refer only to entries that are there and hold
the direct calls of the bodies as edges; and the text was read to its end as a tree that the tables show. -/
theorem tables_of_parse {text : String} {p : Program} (h : Program.parse text = .ok p) :
    p.LaidOut ∧
    ∃ items, Source.program text.toList = .ok (items, []) ∧ p.Shows (items.map (·.map (·.name))) := by
  obtain ⟨items, hprog, hwell, rfl⟩ := parse_wellFormed h
  exact ⟨hwell.laidOut, items, hprog, hwell.shows⟩

/-- Two functions and a global: one function is called `global`, what is mentioned is defined later, an instruction
follows its label, and lines end in comments. -/
def tangledText : String :=
  "\"global\"(%a, %b,)[hsa_universal, \"omp declare target\"]noclone ; a function\n" ++
  "\x7bin: call @\"a b\"(&later, -0x1f) throws\n" ++
  "%r = call_indirect %a(%b) ; no label: here\nsub &\"a b\", ^in,\n out : ret \x7d\n" ++
  "global later \"a b\"(\n)address_taken local!"

def tangledItems : List (Source.Item String) :=
  [.function ⟨"global", ["a", "b"], [.universal, .declareTarget], { noClone := true },
     some [⟨"in", [⟨none, .call "a b" { throws := true }, [.address "later", .immediate (-31)]⟩,
         ⟨some "r", .callIndirect "a" {}, [.value "b"]⟩, ⟨none, .other "sub", [.address "a b", .block "in"]⟩]⟩,
       ⟨"out", [⟨none, .other "ret", []⟩]⟩]⟩,
   .global "later",
   .function ⟨"a b", [], [], { isLocal := true, addressTaken := true }, none⟩]

theorem tables_of_parse_tangledText :
    Program.parse tangledText = .ok (Source.layOut tangledItems) ∧ (Source.layOut tangledItems).LaidOut ∧
    ∃ items, Source.program tangledText.toList = .ok (items, []) ∧
      (Source.layOut tangledItems).Shows (items.map (·.map (·.name))) := by
  have hparse : Program.parse tangledText = .ok (Source.layOut tangledItems) := by decide +kernel
  exact ⟨hparse, tables_of_parse hparse⟩

end Program

end Accelerator
