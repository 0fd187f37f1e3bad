import Accelerator.Check.Matcher
import Mathlib

/-!
# What it means that output matches

A placement gives a directive, by its number, the line of the output on which it is met, or none.  It fits (`Fits`) if
the lines go up with the directives and each directive is met as it asks for (`Directive.Met`).  Output matches exactly
if some placement fits.

What is left to match is the same question again, from the line `start` on and with some patterns that are still to be
absent from there up to the next line that is given (`Spared`).  Following one directive gives it a line or none
(`follow_eq_ok`), and so takes it off the front of the placement (`fits_cons`, `spared_cons`).
-/

namespace Accelerator.Text

/-! ### Patterns and blank lines -/

private theorem occursIn_iff {pattern s : List Char} : occursIn pattern s = true ↔ pattern <:+: s := by
  induction s with
  | nil => simp [occursIn]
  | cons c r ih => rw [occursIn, Bool.or_eq_true, ih, List.isPrefixOf_iff_prefix, List.infix_cons_iff]

private theorem contains_iff {line pattern : String} : contains line pattern = true ↔ pattern.toList <:+: line.toList :=
  occursIn_iff

private theorem isEmpty_trim_iff {line : String} :
    (trim line).isEmpty = true ↔ ∀ c ∈ line.toList, isBlank c = true := by
  rw [String.isEmpty_iff, trim, String.ofList_eq_empty_iff, dropBlankEnd, List.reverse_eq_nil_iff,
    List.dropWhile_eq_nil_iff, dropBlankStart]
  constructor
  · intro h
    have hnil : line.toList.dropWhile isBlank = [] := by
      cases hrest : line.toList.dropWhile isBlank with
      | nil => rfl
      | cons c r =>
        have hc := List.head?_dropWhile_not isBlank line.toList
        rw [hrest] at h hc
        simp [h c (by simp)] at hc
    exact List.dropWhile_eq_nil_iff.mp hnil
  · intro h
    rw [List.dropWhile_eq_nil_iff.mpr h]
    simp

end Accelerator.Text

namespace Accelerator.Check

/-! ### Placements -/

/-- The pattern is on the line. -/
def Has (line pattern : String) : Prop := pattern.toList <:+: line.toList

/-- The line on which each directive is met, if it is met on one; directives and lines by number. -/
abbrev Placement := Nat → Option Nat

/-- The line is not before `start`, and it comes after those of all directives before number `i`. -/
def Placement.Follows (place : Placement) (start i l : Nat) : Prop := start ≤ l ∧ ∀ j < i, ∀ a ∈ place j, a < l

/-- The line comes before those of all directives after number `i`. -/
def Placement.Precedes (place : Placement) (i l : Nat) : Prop := ∀ j, i < j → ∀ b ∈ place j, l < b

/-- What a directive asks of the line that it is given.  The lines `after` are those behind the directives before it,
the lines `before` those ahead of the directives after it.  A pattern is on the first of the lines `after` that has it,
or, like a blank line, on the very first of them; only if there are none may a blank line be missing. -/
def Directive.Met (lines : List String) (after before : Nat → Prop) (at? : Option Nat) : Directive → Prop
  | .present pattern | .label pattern =>
    ∃ a line, at? = some a ∧ lines[a]? = some line ∧ Has line pattern ∧
      ∀ l, after l → l < a → ∀ line ∈ lines[l]?, ¬Has line pattern
  | .next pattern => ∃ a line, at? = some a ∧ lines[a]? = some line ∧ Has line pattern ∧ ∀ l, after l → ¬l < a
  | .blank =>
    (∃ a line, at? = some a ∧ lines[a]? = some line ∧ (∀ c ∈ line.toList, Text.isBlank c = true) ∧
      ∀ l, after l → ¬l < a) ∨
    (at? = none ∧ ∀ l, after l → ¬l < lines.length)
  | .absent pattern => at? = none ∧ ∀ l, after l → before l → ∀ line ∈ lines[l]?, ¬Has line pattern
  | .remark _ => at? = none

/-- From line `start` on, the placement gives each directive what it asks for, on lines that go up with the
directives. -/
structure Fits (lines : List String) (start : Nat) (ds : List Directive) (place : Placement) : Prop where
  increasing : ∀ i, ∀ a ∈ place i, place.Follows start i a
  met : ∀ i (d : Directive), ds[i]? = some d → d.Met lines (place.Follows start i) (place.Precedes i) (place i)
  idle : ∀ i, ds.length ≤ i → place i = none

variable {lines pending : List String} {start a : Nat} {at? : Option Nat} {d : Directive} {ds : List Directive}
  {place : Placement} {pattern : String}

/-! ### Regions of the output -/

/-- The pattern is on none of the lines from `start` up to the one before `stop`. -/
def Lacks (lines : List String) (start stop : Nat) (pattern : String) : Prop :=
  ∀ l, start ≤ l → l < stop → ∀ line ∈ lines[l]?, ¬Has line pattern

private theorem lacks_self {stop : Nat} (h : start = stop) : Lacks lines start stop pattern := fun l hl hlt => by omega

private theorem contains_iff_has {line : String} : Text.contains line pattern = true ↔ Has line pattern :=
  Text.contains_iff

private theorem mem_take_drop {k : Nat} {line : String} :
    line ∈ (lines.drop start).take k ↔ ∃ l, start ≤ l ∧ l < start + k ∧ line ∈ lines[l]? := by
  rw [List.mem_iff_getElem?]
  constructor
  · rintro ⟨i, hi⟩
    rw [List.getElem?_take] at hi
    split at hi
    · rw [List.getElem?_drop] at hi
      exact ⟨start + i, by omega, by omega, hi⟩
    · cases hi
  · rintro ⟨l, hl, hk, hline⟩
    refine ⟨l - start, ?_⟩
    rw [List.getElem?_take, if_pos (by omega), List.getElem?_drop, Nat.add_sub_cancel' hl]
    exact hline

private theorem unwanted?_eq_none {patterns ls : List String} :
    unwanted? patterns ls = none ↔ ∀ pattern ∈ patterns, ∀ line ∈ ls, ¬Has line pattern := by
  simp [unwanted?, contains_iff_has]

private theorem unwanted?_take {k : Nat} : unwanted? pending ((lines.drop start).take k) = none ↔
    ∀ pattern ∈ pending, Lacks lines start (start + k) pattern := by
  rw [unwanted?_eq_none]
  refine forall₂_congr fun pattern _ => ?_
  constructor
  · exact fun h l hl hk line hline => h line (mem_take_drop.mpr ⟨l, hl, hk, hline⟩)
  · intro h line hline
    obtain ⟨l, hl, hk, hmem⟩ := mem_take_drop.mp hline
    exact h l hl hk line hmem

/-- The first line from `start` on that has the pattern. -/
private theorem findIdx?_eq_some {k : Nat} : (lines.drop start).findIdx? (Text.contains · pattern) = some k ↔
    ∃ line, lines[start + k]? = some line ∧ Has line pattern ∧ Lacks lines start (start + k) pattern := by
  rw [List.findIdx?_eq_some_iff_getElem]
  constructor
  · rintro ⟨hk, hhas, hbefore⟩
    refine ⟨(lines.drop start)[k], ?_, contains_iff_has.mp hhas, fun l hl hlt line hline => ?_⟩
    · rw [← List.getElem?_drop, List.getElem?_eq_getElem hk]
    · obtain ⟨j, rfl⟩ := Nat.exists_eq_add_of_le hl
      obtain ⟨_, rfl⟩ := List.getElem?_eq_some_iff.mp hline
      have hno := hbefore j (by omega)
      rwa [List.getElem_drop, contains_iff_has] at hno
  · rintro ⟨line, hline, hhas, hbefore⟩
    obtain ⟨hlt, rfl⟩ := List.getElem?_eq_some_iff.mp hline
    refine ⟨by rw [List.length_drop]; omega, ?_, fun j hj => ?_⟩
    · rw [List.getElem_drop, contains_iff_has]
      exact hhas
    · rw [List.getElem_drop, contains_iff_has]
      exact hbefore (start + j) (by omega) (by omega) _ (List.getElem?_eq_getElem (by omega))

/-! ### Following one directive -/

/-- The first line that is not behind once a directive is met on this line, or on none. -/
def lineAfter (start : Nat) : Option Nat → Nat
  | none => start
  | some a => a + 1

/-- The patterns that a directive wants to be absent. -/
def Directive.unwanted : Directive → List String
  | .absent pattern => [pattern]
  | _ => []

/-- The patterns that are still to be absent once a directive is met on a line, or on none. -/
def Directive.leaves (d : Directive) (pending : List String) : Option Nat → List String
  | none => pending ++ d.unwanted
  | some _ => []

/-- How far matching has come when the lines before `start` are behind. -/
def progressAt (lines : List String) (start : Nat) (pending : List String) : Progress :=
  ⟨start, lines.drop start, pending⟩

/-- A pattern that is looked for is given the first line from `start` on that has it. -/
private theorem seek_eq_ok {cause : Mismatch} {now : Progress} :
    (progressAt lines start pending).seek pattern cause = .ok now ↔
    ∃ at?, (∀ a ∈ at?, start ≤ a) ∧ (Directive.present pattern).Met lines (start ≤ ·) (fun _ => False) at? ∧
      (∀ a ∈ at?, ∀ p ∈ pending, Lacks lines start a p) ∧
      now = progressAt lines (lineAfter start at?) ((Directive.present pattern).leaves pending at?) := by
  unfold Progress.seek
  constructor
  · intro h
    split at h
    · cases h
    · rename_i k hk
      obtain ⟨line, hline, hhas, hlacks⟩ := findIdx?_eq_some.mp hk
      split at h
      · cases h
      · rename_i hclear
        cases h
        refine ⟨some (start + k), by simp, ⟨start + k, line, rfl, hline, hhas, hlacks⟩, ?_, ?_⟩
        · rintro _ ⟨⟩
          exact unwanted?_take.mp hclear
        · simp only [progressAt, lineAfter, Directive.leaves, List.drop_drop, Nat.add_assoc]
  · rintro ⟨_, ha, ⟨a, line, rfl, hline, hhas, hlacks⟩, hclear, rfl⟩
    obtain ⟨k, rfl⟩ := Nat.exists_eq_add_of_le (ha a rfl)
    have hk := findIdx?_eq_some.mpr ⟨line, hline, hhas, hlacks⟩
    have hnone := unwanted?_take.mpr (hclear _ rfl)
    simp only [progressAt, lineAfter, Directive.leaves, hk, hnone, List.drop_drop, Nat.add_assoc]

private theorem drop_eq_cons {line : String} (h : lines[start]? = some line) :
    lines.drop start = line :: lines.drop (start + 1) := by
  obtain ⟨hlt, rfl⟩ := List.getElem?_eq_some_iff.mp h
  exact List.drop_eq_getElem_cons hlt

private theorem stepOver_eq_ok {now : Progress} : (progressAt lines start pending).stepOver pattern = .ok now ↔
    ∃ line, lines[start]? = some line ∧ Has line pattern ∧ now = progressAt lines (start + 1) [] := by
  cases hline : lines[start]? with
  | none =>
    have hrest : lines.drop start = [] := List.drop_eq_nil_of_le (List.getElem?_eq_none_iff.mp hline)
    simp [Progress.stepOver, progressAt, hrest]
  | some line =>
    simp only [Progress.stepOver, progressAt, drop_eq_cons hline]
    by_cases hhas : Has line pattern
    · rw [if_pos (contains_iff_has.mpr hhas)]
      simpa [hhas] using eq_comm
    · rw [if_neg fun h => hhas (contains_iff_has.mp h)]
      simp [hhas]

private theorem stepOverBlank_eq_ok {now : Progress} : (progressAt lines start pending).stepOverBlank = .ok now ↔
    (∃ line, lines[start]? = some line ∧ (∀ c ∈ line.toList, Text.isBlank c = true) ∧
      now = progressAt lines (start + 1) []) ∨
    (lines.length ≤ start ∧ now = progressAt lines start pending) := by
  cases hline : lines[start]? with
  | none =>
    have hle := List.getElem?_eq_none_iff.mp hline
    simpa [Progress.stepOverBlank, progressAt, List.drop_eq_nil_of_le hle, hle] using eq_comm
  | some line =>
    obtain ⟨hlt, -⟩ := List.getElem?_eq_some_iff.mp hline
    simp only [Progress.stepOverBlank, progressAt, drop_eq_cons hline]
    by_cases hblank : ∀ c ∈ line.toList, Text.isBlank c = true
    · rw [if_pos (Text.isEmpty_trim_iff.mpr hblank)]
      simpa [Nat.not_le.mpr hlt, and_iff_right hblank] using eq_comm
    · rw [if_neg fun h => hblank (Text.isEmpty_trim_iff.mp h)]
      simp [hblank, Nat.not_le.mpr hlt]

/-- Following a directive gives it a line or none, as it asks for; what it asks of the lines ahead is left for later. -/
theorem follow_eq_ok {now : Progress} : (progressAt lines start pending).follow d = .ok now ↔
    ∃ at?, (∀ a ∈ at?, start ≤ a) ∧ d.Met lines (start ≤ ·) (fun _ => False) at? ∧
      (∀ a ∈ at?, ∀ p ∈ pending, Lacks lines start a p) ∧
      now = progressAt lines (lineAfter start at?) (d.leaves pending at?) := by
  cases d with
  | remark comment => simp [Progress.follow, Directive.Met, lineAfter, Directive.leaves, Directive.unwanted, eq_comm]
  | absent pattern =>
    simp [Progress.follow, Directive.Met, progressAt, lineAfter, Directive.leaves, Directive.unwanted, eq_comm]
  | present pattern => exact seek_eq_ok
  | label pattern => exact seek_eq_ok
  | next pattern =>
    rw [Progress.follow, stepOver_eq_ok]
    constructor
    · rintro ⟨line, hline, hhas, rfl⟩
      refine ⟨some start, by simp, ⟨start, line, rfl, hline, hhas, fun l hl => Nat.not_lt.mpr hl⟩, ?_, rfl⟩
      exact fun a ha p _ => lacks_self (Option.some.inj ha)
    · rintro ⟨_, ha, ⟨a, line, rfl, hline, hhas, hfirst⟩, -, rfl⟩
      obtain rfl : start = a := Nat.le_antisymm (ha a rfl) (Nat.not_lt.mp (hfirst start (Nat.le_refl _)))
      exact ⟨line, hline, hhas, rfl⟩
  | blank =>
    rw [Progress.follow, stepOverBlank_eq_ok]
    constructor
    · rintro (⟨line, hline, hblank, rfl⟩ | ⟨hle, rfl⟩)
      · refine ⟨some start, by simp, .inl ⟨start, line, rfl, hline, hblank, fun l hl => Nat.not_lt.mpr hl⟩, ?_, rfl⟩
        exact fun a ha p _ => lacks_self (Option.some.inj ha)
      · refine ⟨none, by simp, .inr ⟨rfl, fun l hl => by omega⟩, by simp, ?_⟩
        simp [lineAfter, Directive.leaves, Directive.unwanted]
    · rintro ⟨_, ha, ⟨a, line, rfl, hline, hblank, hfirst⟩ | ⟨rfl, hnone⟩, -, rfl⟩
      · obtain rfl : start = a := Nat.le_antisymm (ha a rfl) (Nat.not_lt.mp (hfirst start (Nat.le_refl _)))
        exact .inl ⟨line, hline, hblank, rfl⟩
      · refine .inr ⟨Nat.not_lt.mp (hnone start (Nat.le_refl _)), ?_⟩
        simp [lineAfter, Directive.leaves, Directive.unwanted]

/-! ### Taking a directive off the front -/

/-- A placement with one more directive at the front. -/
def Placement.cons (at? : Option Nat) (place : Placement) : Placement
  | 0 => at?
  | i + 1 => place i

/-- The line comes before all that are given. -/
def Placement.Ahead (place : Placement) (l : Nat) : Prop := ∀ j, ∀ b ∈ place j, l < b

/-- The patterns are on no line from `start` up to the next one that is given. -/
def Spared (lines : List String) (start : Nat) (patterns : List String) (place : Placement) : Prop :=
  ∀ pattern ∈ patterns, ∀ l, start ≤ l → place.Ahead l → ∀ line ∈ lines[l]?, ¬Has line pattern

private theorem exists_cons {P : Placement → Prop} : (∃ place, P place) ↔ ∃ at? place, P (.cons at? place) := by
  constructor
  · rintro ⟨place, h⟩
    refine ⟨place 0, fun i => place (i + 1), ?_⟩
    have hplace : Placement.cons (place 0) (fun i => place (i + 1)) = place := by
      funext i
      cases i <;> rfl
    rwa [hplace]
  · rintro ⟨at?, place, h⟩
    exact ⟨_, h⟩

private theorem follows_zero (place : Placement) (start : Nat) : place.Follows start 0 = (start ≤ ·) := by
  funext l
  simp [Placement.Follows]

private theorem follows_cons (h : ∀ a ∈ at?, start ≤ a) (place : Placement) (i : Nat) :
    (Placement.cons at? place).Follows start (i + 1) = place.Follows (lineAfter start at?) i := by
  have hafter : ∀ l, lineAfter start at? ≤ l ↔ start ≤ l ∧ ∀ a ∈ at?, a < l := by
    intro l
    cases at? with
    | none => simp [lineAfter]
    | some a =>
      have := h a rfl
      simp only [lineAfter, Option.mem_def, Option.some.injEq, forall_eq']
      omega
  funext l
  rw [Placement.Follows, Placement.Follows, hafter, and_assoc, eq_iff_iff]
  refine and_congr_right fun _ => ⟨fun hbefore => ?_, fun ⟨hfirst, hbefore⟩ j hj => ?_⟩
  · exact ⟨hbefore 0 (Nat.succ_pos i), fun j hj => hbefore (j + 1) (Nat.succ_lt_succ hj)⟩
  · cases j with
    | zero => exact hfirst
    | succ j => exact hbefore j (Nat.lt_of_succ_lt_succ hj)

private theorem precedes_cons_zero (at? : Option Nat) (place : Placement) :
    (Placement.cons at? place).Precedes 0 = place.Ahead := by
  funext l
  rw [eq_iff_iff]
  refine ⟨fun h j => h (j + 1) (Nat.succ_pos j), fun h j hj => ?_⟩
  cases j with
  | zero => exact absurd hj (Nat.lt_irrefl 0)
  | succ j => exact h j

private theorem precedes_cons (at? : Option Nat) (place : Placement) (i : Nat) :
    (Placement.cons at? place).Precedes (i + 1) = place.Precedes i := by
  funext l
  rw [eq_iff_iff]
  refine ⟨fun h j hj => h (j + 1) (Nat.succ_lt_succ hj), fun h j hj => ?_⟩
  cases j with
  | zero => exact absurd hj (Nat.not_lt_zero _)
  | succ j => exact h j (Nat.lt_of_succ_lt_succ hj)

theorem fits_cons : Fits lines start (d :: ds) (.cons at? place) ↔ (∀ a ∈ at?, start ≤ a) ∧
    d.Met lines (start ≤ ·) place.Ahead at? ∧ Fits lines (lineAfter start at?) ds place := by
  constructor
  · intro h
    have hstart : ∀ a ∈ at?, start ≤ a := fun a ha => (h.increasing 0 a ha).1
    have hmet := h.met 0 d rfl
    rw [follows_zero, precedes_cons_zero] at hmet
    refine ⟨hstart, hmet, fun i a ha => ?_, fun i e he => ?_, fun i hi => h.idle (i + 1) (Nat.succ_le_succ hi)⟩
    · rw [← follows_cons hstart]
      exact h.increasing (i + 1) a ha
    · have hlater := h.met (i + 1) e he
      rwa [follows_cons hstart, precedes_cons] at hlater
  · rintro ⟨hstart, hmet, h⟩
    refine ⟨fun i => ?_, fun i => ?_, fun i hi => ?_⟩
    · cases i with
      | zero => exact fun a ha => follows_zero _ start ▸ hstart a ha
      | succ i => exact follows_cons hstart place i ▸ h.increasing i
    · cases i with
      | zero =>
        rintro _ ⟨⟩
        rw [follows_zero, precedes_cons_zero]
        exact hmet
      | succ i =>
        rw [follows_cons hstart, precedes_cons]
        exact h.met i
    · cases i with
      | zero => exact absurd hi (by simp)
      | succ i => exact h.idle i (Nat.le_of_succ_le_succ hi)

private theorem fits_nil : Fits lines start [] place ↔ ∀ i, place i = none := by
  constructor
  · exact fun h i => h.idle i (Nat.zero_le i)
  · intro h
    refine ⟨fun i a ha => ?_, fun i d hd => ?_, fun i _ => h i⟩
    · rw [h i] at ha
      cases ha
    · cases hd

/-- What a directive that is given a line asks for is all behind that line. -/
private theorem met_some {after : Nat → Prop} (before : Nat → Prop) :
    d.Met lines after before (some a) ↔ d.Met lines after (fun _ => False) (some a) := by
  cases d <;> simp [Directive.Met]

private theorem met_none {after before : Nat → Prop} :
    d.Met lines after before none ↔ d.Met lines after (fun _ => False) none ∧
      ∀ pattern ∈ d.unwanted, ∀ l, after l → before l → ∀ line ∈ lines[l]?, ¬Has line pattern := by
  cases d <;> simp [Directive.Met, Directive.unwanted]

/-- The patterns that must be absent are looked for in two parts: up to the line of the directive, if it has one, and
behind it. -/
theorem spared_cons (h : Fits lines (lineAfter start at?) ds place) :
    d.Met lines (start ≤ ·) place.Ahead at? ∧ Spared lines start pending (.cons at? place) ↔
      d.Met lines (start ≤ ·) (fun _ => False) at? ∧ (∀ a ∈ at?, ∀ p ∈ pending, Lacks lines start a p) ∧
        Spared lines (lineAfter start at?) (d.leaves pending at?) place := by
  cases at? with
  | none =>
    have hahead : (Placement.cons none place).Ahead = place.Ahead := by
      funext l
      rw [eq_iff_iff]
      refine ⟨fun hl j => hl (j + 1), fun hl j => ?_⟩
      cases j with
      | zero => simp [Placement.cons]
      | succ j => exact hl j
    rw [met_none, Spared, hahead, Spared, lineAfter, Directive.leaves, List.forall_mem_append, and_assoc]
    simp [and_comm]
  | some a =>
    have hahead : ∀ l, (Placement.cons (some a) place).Ahead l ↔ l < a := by
      intro l
      refine ⟨fun hl => hl 0 a rfl, fun hl j b hb => ?_⟩
      cases j with
      | zero => exact Option.some.inj hb ▸ hl
      | succ j =>
        have := (h.increasing j b hb).1
        rw [lineAfter] at this
        omega
    rw [met_some, Spared]
    simp [hahead, Lacks, Spared, Directive.leaves]

/-! ### All directives -/

private theorem run_cons {here : Progress} : (here.run (d :: ds)).mismatch = none ↔
    ∃ now, here.follow d = .ok now ∧ (now.run ds).mismatch = none := by
  rw [Progress.run]
  cases here.follow d with
  | error m => simp
  | ok now => simp

/-- From any line on, following the directives succeeds exactly if some placement fits. -/
private theorem run_iff : ((progressAt lines start pending).run ds).mismatch = none ↔
    ∃ place, Fits lines start ds place ∧ Spared lines start pending place := by
  induction ds generalizing start pending with
  | nil =>
    have hend : ((progressAt lines start pending).run []).mismatch = none ↔
        ∀ pattern ∈ pending, Lacks lines start (start + lines.length) pattern := by
      rw [← unwanted?_take, List.take_of_length_le (by rw [List.length_drop]; omega)]
      rfl
    rw [hend]
    constructor
    · intro h
      refine ⟨fun _ => none, fits_nil.mpr fun _ => rfl, fun pattern hp l hl _ line hline => ?_⟩
      obtain ⟨hlt, -⟩ := List.getElem?_eq_some_iff.mp hline
      exact h pattern hp l hl (by omega) line hline
    · rintro ⟨place, hfits, hspared⟩ pattern hp l hl _
      refine hspared pattern hp l hl fun j b hb => ?_
      rw [fits_nil.mp hfits j] at hb
      cases hb
  | cons d ds ih =>
    rw [run_cons, exists_cons]
    constructor
    · rintro ⟨now, hfollow, hrun⟩
      obtain ⟨at?, hstart, hmet, hlacks, rfl⟩ := follow_eq_ok.mp hfollow
      obtain ⟨place, hfits, hspared⟩ := ih.mp hrun
      obtain ⟨hmet, hspared⟩ := (spared_cons hfits).mpr ⟨hmet, hlacks, hspared⟩
      exact ⟨at?, place, fits_cons.mpr ⟨hstart, hmet, hfits⟩, hspared⟩
    · rintro ⟨at?, place, hfits, hspared⟩
      obtain ⟨hstart, hmet, hfits⟩ := fits_cons.mp hfits
      obtain ⟨hmet, hlacks, hspared⟩ := (spared_cons hfits).mp ⟨hmet, hspared⟩
      exact ⟨_, follow_eq_ok.mpr ⟨at?, hstart, hmet, hlacks, rfl⟩, ih.mpr ⟨place, hfits, hspared⟩⟩

/-! ### Patterns only -/

/-- The pattern that a directive looks for on any later line. -/
def Directive.sought? : Directive → Option String
  | .present pattern | .label pattern => some pattern
  | _ => none

/-- The directive looks for a pattern on a later line, or asks for nothing. -/
def Directive.IsPlain (d : Directive) : Prop := d.sought?.isSome ∨ ∃ comment, d = .remark comment

/-- The placement gives each pattern that is looked for a line that has it, on lines that go up with the directives. -/
structure Covers (lines : List String) (start : Nat) (ds : List Directive) (place : Placement) : Prop where
  increasing : ∀ i, ∀ a ∈ place i, place.Follows start i a
  matching : ∀ i (d : Directive), ds[i]? = some d → ∀ pattern ∈ d.sought?,
    ∃ a ∈ place i, ∃ line ∈ lines[a]?, Has line pattern

private theorem Fits.covers (h : Fits lines start ds place) : Covers lines start ds place := by
  refine ⟨h.increasing, fun i d hd pattern hpattern => ?_⟩
  have hmet := h.met i d hd
  cases d with
  | present p | label p =>
    obtain ⟨a, line, ha, hline, hhas, -⟩ := hmet
    cases hpattern
    exact ⟨a, ha, line, hline, hhas⟩
  | _ => cases hpattern

/-- Earlier lines leave more room, so a placement serves from any earlier line on. -/
private theorem Covers.mono {start' : Nat} (h : Covers lines start ds place) (hle : start' ≤ start) :
    Covers lines start' ds place :=
  ⟨fun i a ha => ⟨hle.trans (h.increasing i a ha).1, (h.increasing i a ha).2⟩, h.matching⟩

private theorem Covers.tail (h : Covers lines start (d :: ds) (.cons at? place)) :
    Covers lines (lineAfter start at?) ds place := by
  have hstart : ∀ a ∈ at?, start ≤ a := fun a ha => (h.increasing 0 a ha).1
  refine ⟨fun i a ha => ?_, fun i => h.matching (i + 1)⟩
  rw [← follows_cons hstart]
  exact h.increasing (i + 1) a ha

private theorem exists_first {line : String} (ha : start ≤ a) (hline : line ∈ lines[a]?) (hhas : Has line pattern) :
    ∃ b line, start ≤ b ∧ b ≤ a ∧ lines[b]? = some line ∧ Has line pattern ∧ Lacks lines start b pattern := by
  classical
  have hex : ∃ l, start ≤ l ∧ ∃ line ∈ lines[l]?, Has line pattern := ⟨a, ha, line, hline, hhas⟩
  obtain ⟨hb, first, hfirst, hpattern⟩ := Nat.find_spec hex
  refine ⟨Nat.find hex, first, hb, Nat.find_min' hex ⟨ha, line, hline, hhas⟩, hfirst, hpattern, ?_⟩
  exact fun l hl hlt line hline hhas => Nat.find_min hex hlt ⟨hl, line, hline, hhas⟩

/-- Giving each pattern the first line that is left for it never takes a line that a later one needs. -/
private theorem exists_fits_of_covers (hplain : ∀ d ∈ ds, d.IsPlain) (h : Covers lines start ds place) :
    ∃ place, Fits lines start ds place := by
  induction ds generalizing start place with
  | nil => exact ⟨fun _ => none, fits_nil.mpr fun _ => rfl⟩
  | cons d ds ih =>
    rw [List.forall_mem_cons] at hplain
    obtain ⟨at?, place, h⟩ := exists_cons.mp ⟨place, h⟩
    have hstart : ∀ a ∈ at?, start ≤ a := fun a ha => (h.increasing 0 a ha).1
    have hseek : ∀ pattern ∈ d.sought?, ∃ place, Fits lines start (d :: ds) place := by
      intro pattern hpattern
      obtain ⟨a, ha, line, hline, hhas⟩ := h.matching 0 d rfl pattern hpattern
      obtain ⟨b, first, hb, hle, hfirst, hhas, hlacks⟩ := exists_first (hstart a ha) hline hhas
      -- the rest is placed behind `a`, so it can be placed behind `b`
      have hrest : Covers lines (b + 1) ds place := by
        have htail := h.tail
        rw [show at? = some a from ha] at htail
        exact htail.mono (Nat.succ_le_succ hle)
      obtain ⟨later, hlater⟩ := ih hplain.2 hrest
      refine ⟨.cons (some b) later, fits_cons.mpr ⟨by simpa using hb, ?_, hlater⟩⟩
      cases d with
      | present p | label p =>
        cases hpattern
        exact ⟨b, first, rfl, hfirst, hhas, hlacks⟩
      | _ => cases hpattern
    rcases hplain.1 with hsought | ⟨comment, rfl⟩
    · obtain ⟨pattern, hpattern⟩ := Option.isSome_iff_exists.mp hsought
      exact hseek pattern hpattern
    · have hle : start ≤ lineAfter start at? := by
        cases at? with
        | none => exact Nat.le_refl _
        | some a => exact Nat.le_succ_of_le (hstart a rfl)
      obtain ⟨later, hlater⟩ := ih hplain.2 (h.tail.mono hle)
      exact ⟨.cons none later, fits_cons.mpr ⟨by simp, rfl, hlater⟩⟩

/-- Output matches exactly if its lines can be given to the directives as they ask for; and where the directives only
look for patterns on later lines, any lines will do that have the patterns and go up with the directives. -/
theorem matched_iff (output : String) (ds : List Directive) :
    ((matchOutput output ds).mismatch = none ↔ ∃ place, Fits (Text.lines output) 0 ds place) ∧
    ((∀ d ∈ ds, d.IsPlain) →
      ((matchOutput output ds).mismatch = none ↔ ∃ place, Covers (Text.lines output) 0 ds place)) := by
  have hfits : (matchOutput output ds).mismatch = none ↔ ∃ place, Fits (Text.lines output) 0 ds place := by
    have hrun : matchOutput output ds = (progressAt (Text.lines output) 0 []).run ds := rfl
    rw [hrun, run_iff]
    simp [Spared]
  refine ⟨hfits, fun hplain => hfits.trans ⟨fun ⟨place, h⟩ => ⟨place, h.covers⟩, ?_⟩⟩
  exact fun ⟨place, h⟩ => exists_fits_of_covers hplain h

/-- A line that ends in a carriage return, one of blanks, and a pattern that is on a line, but not on those that it must
be absent from. -/
def mixedOutput : String := "Function f\r\n  Flags: public\nnote\n \t\nSummary f: role=host\nend\n"

/-- Directives of all kinds; the last asks for a blank line where there is none left. -/
def mixedDirectives : List Directive :=
  [.remark "f", .label "Function", .next "Flags", .absent "role", .present "note", .blank, .absent "accelerator",
    .present "role=host", .absent "role", .present "end", .absent "role", .blank]

/-- The second lines that have the patterns, where the first ones would do. -/
def latePlacement : Placement
  | 0 => some 1
  | 2 => some 2
  | _ => none

theorem matched_iff_mixedOutput :
    (∃ place, Fits (Text.lines mixedOutput) 0 mixedDirectives place) ∧
    Covers (Text.lines "a\nab\nb") 0 [.present "a", .remark "b", .label "b"] latePlacement ∧
      (matchOutput "a\nab\nb" [.present "a", .remark "b", .label "b"]).mismatch = none := by
  have hplain : ∀ d ∈ [Directive.present "a", .remark "b", .label "b"], d.IsPlain := by
    simp [Directive.IsPlain, Directive.sought?]
  have hlines : Text.lines "a\nab\nb" = ["a", "ab", "b"] := by decide +kernel
  have hcovers : Covers (Text.lines "a\nab\nb") 0 [.present "a", .remark "b", .label "b"] latePlacement := by
    rw [hlines]
    refine ⟨fun i a ha => ⟨Nat.zero_le a, fun j hj b hb => ?_⟩, fun i d hd pattern hpattern => ?_⟩
    · rcases i with _ | _ | _ | i <;> rcases j with _ | _ | _ | j <;> simp_all [latePlacement]
      omega
    · rcases i with _ | _ | _ | i
      · cases hd
        cases hpattern
        exact ⟨1, rfl, "ab", rfl, Text.contains_iff.mp (by decide)⟩
      · cases hd
        cases hpattern
      · cases hd
        cases hpattern
        exact ⟨2, rfl, "b", rfl, Text.contains_iff.mp (by decide)⟩
      · cases hd
  exact ⟨(matched_iff _ _).1.mp (by decide +kernel), hcovers, ((matched_iff _ _).2 hplain).mpr ⟨_, hcovers⟩⟩

end Accelerator.Check
