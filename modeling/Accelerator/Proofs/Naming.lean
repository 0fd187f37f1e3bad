import Accelerator.Proofs.Reachable
import Accelerator.Proofs.Sweep

/-!
# Naming clones

A clone is named after the function it is made from, a suffix and a number.  A counter of 32 bits is counted up until
the name with its number is free (`Searches`).  As long as no counter reaches `2 ^ 32`, the search ends at the least
number from the counter on whose name is free, because only finitely many names are taken (`searches_of_isLeast`).  The
name determines the function and the number, and a counter only goes up (`counter_le_edit`), so that no name is given
out twice, whatever is removed in between (`nodup_cloneNames`).
-/

namespace Accelerator.Program

variable {p : Program} {base suffix : String} {k n : Nat}

/-- The number from which the clones of `base` are numbered. -/
def counter (p : Program) (base : String) : Nat := p.cloneCounts.getD base 0

/-- The counters have room in 32 bits. -/
def CountersFit (p : Program) : Prop := ∀ base, p.counter base < 2 ^ 32

/-! ### The search for a name -/

/-- A counter of 32 bits is counted up from `k` until the name with its number is free, which is at `n`. -/
inductive Searches (p : Program) (base suffix : String) : UInt32 → UInt32 → Prop
  | free {k : UInt32} (h : cloneTitle base suffix k.toNat ∉ p.names) : Searches p base suffix k k
  | taken {k n : UInt32} (h : cloneTitle base suffix k.toNat ∈ p.names) (later : Searches p base suffix (k + 1) n) :
      Searches p base suffix k n

/-- The search ends at the least number whose name is free, if that has 32 bits. -/
theorem searches_of_isLeast (hn : n < 2 ^ 32)
    (h : IsLeast {i | k ≤ i ∧ cloneTitle base suffix i ∉ p.names} n) :
    Searches p base suffix k.toUInt32 n.toUInt32 := by
  obtain ⟨⟨hle, hfree⟩, hleast⟩ := h
  obtain ⟨d, rfl⟩ := Nat.exists_eq_add_of_le hle
  clear hle
  -- on the numbers that are still to be tried
  induction d generalizing k with
  | zero =>
    refine .free ?_
    rwa [show k.toUInt32.toNat = k from UInt32.toNat_ofNat_of_lt' hn]
  | succ d ih =>
    have htaken : cloneTitle base suffix k ∈ p.names := by
      by_contra hk
      have := hleast ⟨Nat.le_refl k, hk⟩
      omega
    have hk : k < UInt32.size := by
      rw [UInt32.size]
      omega
    have hstep : k + (d + 1) = k + 1 + d := by omega
    rw [hstep] at hn hfree hleast ⊢
    refine .taken (by rwa [show k.toUInt32.toNat = k from UInt32.toNat_ofNat_of_lt' hk]) ?_
    have hlater := ih hn (fun i hi => hleast ⟨Nat.le_of_succ_le hi.1, hi.2⟩) hfree
    rwa [Nat.toUInt32_eq, Nat.toUInt32_eq, UInt32.ofNat_add] at hlater

private theorem isLeast_free (p : Program) (base suffix : String) :
    IsLeast {i | p.counter base ≤ i ∧ cloneTitle base suffix i ∉ p.names} (p.cloneNumber base suffix) := by
  simpa [counter] using isLeast_cloneNumber p base suffix

/-- Functions are found under their names as long as they are live, and nothing else is found. -/
private theorem Reachable.mem_names (h : p.Reachable) (t : String) : t ∈ p.names ↔ ∃ n ∈ p.live, p.name n = t := by
  rw [Std.ExtTreeMap.mem_iff_isSome_getElem?, Option.isSome_iff_exists]
  simp only [h.coherent.names]

/-! ### Clones and removals in turn -/

/-- A change to a program: a clone is made, or a function is removed. -/
inductive Edit
  | clone (n : Node)
  | remove (n : Node)

/-- The program after a change; `suffix` is the suffix of all clones. -/
def edit (suffix : String) (p : Program) : Edit → Program
  | .clone n => (p.clone n suffix).2
  | .remove n => p.remove n

/-- The names that the clones get, in the order in which they are made. -/
def cloneNames (suffix : String) (p : Program) : List Edit → List String
  | [] => []
  | .clone n :: edits =>
    (p.clone n suffix).2.name (p.clone n suffix).1 :: cloneNames suffix (p.edit suffix (.clone n)) edits
  | .remove n :: edits => cloneNames suffix (p.edit suffix (.remove n)) edits

private theorem name_clone (p : Program) (n : Node) (suffix : String) :
    (p.clone n suffix).2.name (p.clone n suffix).1 =
      cloneTitle (p.name n) suffix (p.cloneNumber (p.name n) suffix) := by
  rw [clone_eq_extend, name, show (p.clone n suffix).1 = p.functions.size from rfl, function_extend_new]
  rfl

private theorem counter_nameClone (p : Program) (title suffix base : String) :
    (p.nameClone title suffix).2.counter base =
      if title = base then p.cloneNumber title suffix + 1 else p.counter base := by
  rw [counter, nameClone, Std.ExtTreeMap.getD_insert]
  simp [counter]

private theorem counter_clone (p : Program) (n : Node) (suffix base : String) :
    (p.clone n suffix).2.counter base =
      if p.name n = base then p.cloneNumber (p.name n) suffix + 1 else p.counter base :=
  counter_nameClone p (p.name n) suffix base

private theorem counter_remove (p : Program) (n : Node) (base : String) : (p.remove n).counter base = p.counter base :=
  rfl

/-- No change takes a counter back. -/
theorem counter_le_edit (suffix : String) (p : Program) (e : Edit) (base : String) :
    p.counter base ≤ (p.edit suffix e).counter base := by
  cases e with
  | remove n => exact (counter_remove p n base).ge
  | clone n =>
    rw [edit, counter_clone]
    split
    · rename_i h
      have := (isLeast_free p (p.name n) suffix).1.1
      rw [h] at this ⊢
      omega
    · exact Nat.le_refl _

private theorem counter_le_edits (suffix : String) (p : Program) (edits : List Edit) (base : String) :
    p.counter base ≤ (edits.foldl (edit suffix) p).counter base := by
  induction edits generalizing p with
  | nil => exact Nat.le_refl _
  | cons e edits ih => exact (counter_le_edit suffix p e base).trans (ih _)

/-- Every name that is given out has a number that the counter was at. -/
private theorem exists_of_mem_cloneNames {edits : List Edit} {t : String} (h : t ∈ cloneNames suffix p edits) :
    ∃ base k, t = cloneTitle base suffix k ∧ p.counter base ≤ k ∧
      k < (edits.foldl (edit suffix) p).counter base := by
  induction edits generalizing p with
  | nil => cases h
  | cons e edits ih =>
    have hlater : t ∈ cloneNames suffix (p.edit suffix e) edits → ∃ base k, t = cloneTitle base suffix k ∧
        p.counter base ≤ k ∧ k < (edits.foldl (edit suffix) (p.edit suffix e)).counter base := by
      intro ht
      obtain ⟨base, k, htitle, hk, hlast⟩ := ih ht
      exact ⟨base, k, htitle, (counter_le_edit suffix p e base).trans hk, hlast⟩
    cases e with
    | remove n => exact hlater h
    | clone n =>
      rcases List.mem_cons.mp h with rfl | ht
      · have hnext := counter_le_edits suffix (p.edit suffix (.clone n)) edits (p.name n)
        rw [edit, counter_clone, if_pos rfl] at hnext
        exact ⟨p.name n, _, name_clone p n suffix, (isLeast_free p (p.name n) suffix).1.1, hnext⟩
      · exact hlater ht

theorem nodup_cloneNames (suffix : String) (p : Program) (edits : List Edit) : (cloneNames suffix p edits).Nodup := by
  induction edits generalizing p with
  | nil => exact List.nodup_nil
  | cons e edits ih =>
    cases e with
    | remove n => exact ih _
    | clone n =>
      refine List.nodup_cons.mpr ⟨fun hmem => ?_, ih _⟩
      -- a later clone of the same name would be one of the same function, with a higher number
      obtain ⟨base, k, htitle, hk, -⟩ := exists_of_mem_cloneNames hmem
      rw [name_clone] at htitle
      obtain rfl := base_eq_of_cloneTitle_eq htitle
      obtain rfl := cloneTitle_inj htitle
      rw [edit, counter_clone, if_pos rfl] at hk
      omega

/-- As long as the counters have room in 32 bits, in every program, for every function name and every suffix, the
search for the name of a clone ends, at the least number from the counter on under whose name no function is found, and
leaves the counter at the next number.  In every reachable program this is the least number whose name no live function
has.  However clones with one suffix are made and functions removed in turn, no two clones get the same name, and all
names have numbers of 32 bits. -/
theorem clone_naming :
    (∀ (p : Program) (base suffix : String), (p.nameClone base suffix).2.CountersFit →
      ∃ n, Searches p base suffix (p.counter base).toUInt32 n.toUInt32 ∧
        p.nameClone base suffix = (base ++ "." ++ suffix ++ "." ++ toString n,
          { p with cloneCounts := p.cloneCounts.insert base (n + 1) }) ∧ n + 1 < 2 ^ 32 ∧
        IsLeast {k | p.counter base ≤ k ∧ base ++ "." ++ suffix ++ "." ++ toString k ∉ p.names} n ∧
        (p.Reachable → IsLeast {k | p.counter base ≤ k ∧
          ∀ m ∈ p.live, p.name m ≠ base ++ "." ++ suffix ++ "." ++ toString k} n)) ∧
    ∀ (suffix : String) (p : Program) (edits : List Edit), (edits.foldl (edit suffix) p).CountersFit →
      (cloneNames suffix p edits).Nodup ∧ ∀ t ∈ cloneNames suffix p edits,
        ∃ base n, t = base ++ "." ++ suffix ++ "." ++ toString n ∧ n + 1 < 2 ^ 32 := by
  constructor
  · intro p base suffix hfit
    have hleast := isLeast_free p base suffix
    have hcount : p.cloneNumber base suffix + 1 < 2 ^ 32 := by
      have := hfit base
      rwa [counter_nameClone, if_pos rfl] at this
    refine ⟨p.cloneNumber base suffix, searches_of_isLeast (by omega) hleast, rfl, hcount, hleast, fun hreach => ?_⟩
    have hfree : ∀ t, t ∉ p.names ↔ ∀ m ∈ p.live, p.name m ≠ t := by
      intro t
      rw [hreach.mem_names t]
      simp
    simp only [hfree] at hleast
    exact hleast
  · intro suffix p edits hfit
    refine ⟨nodup_cloneNames suffix p edits, fun t ht => ?_⟩
    obtain ⟨base, n, htitle, -, hlast⟩ := exists_of_mem_cloneNames ht
    exact ⟨base, n, htitle, Nat.lt_of_le_of_lt hlast (hfit base)⟩

/-- A function, and another one that has the first name for a clone of it. -/
def rivalItems : List (Source.Item String) :=
  [.function ⟨"f", [], [], {}, some [⟨"entry", [⟨none, .other "ret", []⟩]⟩]⟩,
   .function ⟨"f.hsa.0", [], [], {}, some [⟨"entry", [⟨none, .other "ret", []⟩]⟩]⟩]

def rivalText : String := "f() \x7b entry: ret \x7d\n\"f.hsa.0\"() \x7b entry: ret \x7d"

/-- Two clones of the function, and in between a clone of the other one; the first clone and the other function are
removed before the last one is made. -/
def rivalEdits : List Edit := [.clone 0, .remove 2, .clone 1, .remove 1, .clone 0]

/-- The first clone gets the second name, and after it is removed the next one gets the third. -/
theorem clone_naming_rivalText :
    let p := Source.layOut rivalItems
    (p.nameClone "f" "hsa").1 = "f.hsa.1" ∧ p.Reachable ∧ (p.nameClone "f" "hsa").2.CountersFit ∧
    (∃ n, Searches p "f" "hsa" (p.counter "f").toUInt32 n.toUInt32 ∧
      p.nameClone "f" "hsa" = ("f" ++ "." ++ "hsa" ++ "." ++ toString n,
        { p with cloneCounts := p.cloneCounts.insert "f" (n + 1) }) ∧
      IsLeast {k | p.counter "f" ≤ k ∧ ∀ m ∈ p.live, p.name m ≠ "f" ++ "." ++ "hsa" ++ "." ++ toString k} n) ∧
    cloneNames "hsa" p rivalEdits = ["f.hsa.1", "f.hsa.0.hsa.0", "f.hsa.2"] ∧
    (rivalEdits.foldl (edit "hsa") p).CountersFit ∧ (cloneNames "hsa" p rivalEdits).Nodup := by
  obtain ⟨hname, hdistinct⟩ := clone_naming
  have hparse : Program.parse rivalText = .ok (Source.layOut rivalItems) := by decide +kernel
  have hreach := Reachable.parse hparse
  have hzero : ∀ base, (Source.layOut rivalItems).counter base < 2 ^ 32 := by
    intro base
    show (∅ : Std.ExtTreeMap String Nat).getD base 0 < 2 ^ 32
    simp
  have hfit : ((Source.layOut rivalItems).nameClone "f" "hsa").2.CountersFit := by
    intro base
    rw [counter_nameClone]
    split
    · decide +kernel
    · exact hzero base
  have hfits : (rivalEdits.foldl (edit "hsa") (Source.layOut rivalItems)).CountersFit := by
    intro base
    simp only [rivalEdits, List.foldl_cons, List.foldl_nil, edit, counter_clone, counter_remove]
    split
    · decide +kernel
    · split
      · decide +kernel
      · split
        · decide +kernel
        · exact hzero base
  obtain ⟨n, hsearch, heq, -, -, hleast⟩ := hname (Source.layOut rivalItems) "f" "hsa" hfit
  exact ⟨by decide +kernel, hreach, hfit, ⟨n, hsearch, heq, hleast hreach⟩, by decide +kernel, hfits,
    (hdistinct _ _ _ hfits).1⟩

end Accelerator.Program
