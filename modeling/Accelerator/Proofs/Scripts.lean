import Accelerator.Check.Script
import Accelerator.Proofs.TrailingComments

/-!
# Check scripts as program texts

A check script is at the same time a program text, in which its directives are comments.  The text without the lines
of the directives has the same lines as the whole (`sameLines_text`), and so both are read as the same program, or
neither is.
-/

namespace Accelerator.Check

open Source

/-! ### Directives are comments -/

private theorem isComment_of_start (start : String) {line : String} (hstart : start.toList.head? = some ';')
    (h : (Text.afterStart? start (Text.trim line)).isSome = true) : IsComment line.toList := by
  obtain ⟨more, hmore⟩ : ∃ more, start.toList = ';' :: more := by
    cases hs : start.toList with
    | nil => simp [hs] at hstart
    | cons c more => exact ⟨more, by simpa [hs] using hstart⟩
  have htrim : (Text.trim line).toList <+: line.toList.dropWhile Text.isBlank := by
    rw [Text.trim, String.toList_ofList, Text.dropBlankEnd, Text.dropBlankStart, ← List.reverse_suffix,
      List.reverse_reverse]
    exact List.dropWhile_suffix _
  have hprefix : start.toList <+: (Text.trim line).toList := by
    by_contra hno
    have hnone : Text.after? start.toList (Text.trim line).toList = none := by
      simp [Text.after?, hno]
    simp [Text.afterStart?, hnone] at h
  obtain ⟨rest, hrest⟩ := hprefix.trans htrim
  refine ⟨line.toList.takeWhile Text.isBlank, more ++ rest, ?_, fun c hc => List.mem_takeWhile_imp hc⟩
  calc line.toList = line.toList.takeWhile Text.isBlank ++ line.toList.dropWhile Text.isBlank :=
        (List.takeWhile_append_dropWhile).symm
    _ = line.toList.takeWhile Text.isBlank ++ ';' :: (more ++ rest) := by rw [← hrest, hmore, List.cons_append]

/-- A line belongs to the program text as it is, or it is a comment. -/
private theorem text?_of (line : String) :
    (Line.of line).text? = some line ∨ ((Line.of line).text? = none ∧ IsComment line.toList) := by
  have hstarts : ∀ x ∈ patternDirectives, x.1.toList.head? = some ';' := by decide
  unfold Line.of
  dsimp only
  split
  · rename_i command hrun
    exact .inr ⟨rfl, isComment_of_start "; RUN:" rfl (by rw [hrun]; rfl)⟩
  · rename_i d _ hpattern
    obtain ⟨x, hx, hsome⟩ := List.exists_of_findSome?_eq_some hpattern
    obtain ⟨pattern, hafter, -⟩ := Option.map_eq_some_iff.mp hsome
    exact .inr ⟨rfl, isComment_of_start x.1 (hstarts x hx) (by rw [hafter]; rfl)⟩
  · split
    · rename_i hempty
      exact .inr ⟨rfl, isComment_of_start "; CHECK-EMPTY" rfl hempty⟩
    · exact .inl rfl

/-! ### Lines -/

/-- The lines that stand between newlines: each but the last may end in a carriage return, and the last may be empty. -/
def linesOf (parts : List (List Char)) : List (List Char) :=
  parts.dropLast.map Text.dropReturn ++
    (if (parts.getLast?.getD []).isEmpty then [] else [parts.getLast?.getD []])

/-- The lines that belong to the program text. -/
def textLines (ls : List (List Char)) : List (List Char) :=
  ls.filter fun l => (Line.of (String.ofList l)).text?.isSome

/-- Lines, each with the newline before it. -/
def joined (ls : List (List Char)) : List Char := ls.flatMap ('\n' :: ·)

private theorem lineEnds_joined (ls : List (List Char)) : LineEnds (joined ls) := by
  cases ls with
  | nil => exact lineEnds_nil
  | cons l ls => exact lineEnds_newline _

private theorem joined_cons (l : List Char) (ls : List (List Char)) : joined (l :: ls) = '\n' :: (l ++ joined ls) := rfl

private theorem linesOf_cons (p q : List Char) (parts : List (List Char)) :
    linesOf (p :: q :: parts) = Text.dropReturn p :: linesOf (q :: parts) := by
  simp [linesOf]

/-- A comment line is as good as no line. -/
private theorem sameLines_comment {line s t : List Char} (h : IsComment line) (hline : '\n' ∉ line) (hs : LineEnds s)
    (ht : LineEnds t) (hst : SameLines s t) : SameLines ('\n' :: (line ++ s)) t := by
  refine .gap (lineEnds_newline _) ht ?_
  rw [dropBlanks_blank isBlank_newline, dropBlanks_comment h hline hs]
  exact hst.afterBlanks

private theorem sameLines_return {s t : List Char} (hs : LineEnds s) (ht : LineEnds t) (hst : SameLines s t) :
    SameLines ('\r' :: s) t := by
  have hreturn : Text.isBlank '\r' = true := by decide
  refine .gap (lineEnds_cons.mpr (.inr ⟨hreturn, hs⟩)) ht ?_
  rw [dropBlanks_blank hreturn]
  exact hst.afterBlanks

private theorem dropReturn_cases (p : List Char) :
    Text.dropReturn p = p ∨ p = Text.dropReturn p ++ ['\r'] := by
  unfold Text.dropReturn
  split
  · rename_i hlast
    exact .inr (List.dropLast_append_getLast? '\r' hlast).symm
  · exact .inl rfl

private theorem textLines_cons (l : List Char) (ls : List (List Char)) :
    textLines (l :: ls) = l :: textLines ls ∨ (textLines (l :: ls) = textLines ls ∧ IsComment l) := by
  rcases text?_of (String.ofList l) with h | ⟨h, hcomment⟩
  · exact .inl (by simp [textLines, h])
  · rw [String.toList_ofList] at hcomment
    exact .inr ⟨by simp [textLines, h], hcomment⟩

/-- The lines of the program text are those of the whole text. -/
private theorem sameLines_textLines {parts : List (List Char)} (hne : parts ≠ []) (hparts : ∀ p ∈ parts, '\n' ∉ p) :
    SameLines (joined parts) (joined (textLines (linesOf parts))) := by
  induction parts with
  | nil => exact absurd rfl hne
  | cons p parts ih =>
    rw [List.forall_mem_cons] at hparts
    cases parts with
    | nil =>
      -- the last line
      by_cases hp : p.isEmpty = true
      · obtain rfl : p = [] := List.isEmpty_iff.mp hp
        exact .gap (lineEnds_joined _) (lineEnds_joined _) .nil
      · have hlines : linesOf [p] = [p] := by simp [linesOf, hp]
        rw [hlines]
        rcases textLines_cons p [] with htext | ⟨htext, hcomment⟩
        · rw [htext]
          exact .refl _
        · rw [htext]
          exact sameLines_comment hcomment hparts.1 lineEnds_nil lineEnds_nil .nil
    | cons q parts =>
      have hrest := ih (by simp) hparts.2
      have hs := lineEnds_joined (q :: parts)
      have ht := lineEnds_joined (textLines (linesOf (q :: parts)))
      rw [linesOf_cons, joined_cons]
      rcases textLines_cons (Text.dropReturn p) (linesOf (q :: parts)) with htext | ⟨htext, hcomment⟩
      · rw [htext, joined_cons]
        refine .cons '\n' ?_
        rcases dropReturn_cases p with hp | hp
        · rw [hp]
          exact hrest.append p
        · nth_rewrite 1 [hp]
          rw [List.append_assoc]
          exact (sameLines_return hs ht hrest).append _
      · rw [htext]
        have hcomment' : IsComment p := by
          rcases dropReturn_cases p with hp | hp
          · rwa [hp] at hcomment
          · obtain ⟨blank, rest, hline, hblank⟩ := hcomment
            exact ⟨blank, rest ++ ['\r'], by rw [hp, hline]; simp, hblank⟩
        exact sameLines_comment hcomment' hparts.1 hs ht hrest

private theorem joined_splitAtEach (s : List Char) :
    joined (Text.splitAtEach (· == '\n') s) = '\n' :: s ∧ ∀ p ∈ Text.splitAtEach (· == '\n') s, '\n' ∉ p := by
  induction s with
  | nil => simp [Text.splitAtEach, joined]
  | cons c s ih =>
    obtain ⟨hjoin, hparts⟩ := ih
    rw [Text.splitAtEach]
    by_cases hc : c = '\n'
    · simp only [hc, beq_self_eq_true, if_true]
      exact ⟨by rw [joined_cons, hjoin, List.nil_append], List.forall_mem_cons.mpr ⟨by simp, hparts⟩⟩
    · simp only [beq_iff_eq, hc, if_false]
      cases hsplit : Text.splitAtEach (· == '\n') s with
      | nil => simp [hsplit, joined] at hjoin
      | cons part parts =>
        rw [hsplit, joined_cons] at hjoin
        rw [hsplit, List.forall_mem_cons] at hparts
        dsimp only
        rw [joined_cons, List.cons_append, (List.cons.inj hjoin).2]
        refine ⟨rfl, List.forall_mem_cons.mpr ⟨?_, hparts.2⟩⟩
        rw [List.mem_cons, not_or]
        exact ⟨Ne.symm hc, hparts.1⟩

private theorem joined_eq_intercalate {ls : List (List Char)} (h : ls ≠ []) :
    joined ls = '\n' :: ['\n'].intercalate ls := by
  induction ls with
  | nil => exact absurd rfl h
  | cons l ls ih =>
    cases ls with
    | nil => simp [joined]
    | cons m ls =>
      rw [joined_cons, ih (by simp), List.intercalate_cons_cons]
      simp

/-! ### Scripts -/

private theorem toList_text {content : String} {script : Script} (h : Script.parse? content = some script) :
    script.text.toList = ['\n'].intercalate (textLines (Text.lineList content.toList)) := by
  have hkept : ∀ ls : List (List Char),
      (((ls.map String.ofList).map Line.of).filterMap Line.text?).map String.toList = textLines ls := by
    intro ls
    induction ls with
    | nil => rfl
    | cons l ls ih =>
      rcases text?_of (String.ofList l) with hl | ⟨hl, -⟩
      · rw [textLines, List.filter_cons_of_pos (by rw [hl]; rfl), List.map_cons, List.map_cons,
          List.filterMap_cons_some hl, List.map_cons, ih, String.toList_ofList]
        rfl
      · rw [textLines, List.filter_cons_of_neg (by rw [hl]; simp), List.map_cons, List.map_cons,
          List.filterMap_cons_none hl, ih]
        rfl
  unfold Script.parse? at h
  dsimp only at h
  split at h
  · cases h
  · cases h
    rw [String.toList_intercalate, Text.lines, hkept]
    rfl

/-- The program text of a script has the same lines as the script. -/
theorem sameLines_text {content : String} {script : Script} (h : Script.parse? content = some script) :
    SameLines ('\n' :: content.toList) ('\n' :: script.text.toList) := by
  obtain ⟨hjoin, hparts⟩ := joined_splitAtEach content.toList
  have hne : Text.splitAtEach (· == '\n') content.toList ≠ [] := by
    intro hnil
    simp [hnil, joined] at hjoin
  have hsame := sameLines_textLines hne hparts
  rw [hjoin] at hsame
  rw [toList_text h]
  by_cases hnone : textLines (Text.lineList content.toList) = []
  · -- nothing is left of the script
    rw [show linesOf _ = Text.lineList content.toList from rfl, hnone] at hsame
    rw [hnone]
    refine .gap (lineEnds_newline _) (lineEnds_newline _) ?_
    exact hsame.afterBlanks
  · rw [show linesOf _ = Text.lineList content.toList from rfl, joined_eq_intercalate hnone] at hsame
    exact hsame

/-- A script and its program text are accepted as the same program, or neither is accepted. -/
theorem script_program_iff {content : String} {script : Script} (h : Script.parse? content = some script)
    (p : Program) : Program.parse script.text = .ok p ↔ Program.parse content = .ok p :=
  ⟨parse_of_sameLines (sameLines_text h).symm, parse_of_sameLines (sameLines_text h)⟩

/-- Directives in the middle of a body and at the end, lines with and without carriage returns, and a comment that is no
directive. -/
def markedText : String :=
  "; RUN: accelerate %s\r\nf(%a) [hsa_function] \x7b\r\nentry:\r\n  %b = add %a, 1 ; CHECK: f\n" ++
    "\xA0; CHECK-NEXT: b\r\n  store &\"f\", %b\r\n\x7d\n\t; CHECK-EMPTY"

def markedScript : Script where
  runs := [⟨"accelerate", ["%s"]⟩]
  directives := [.next "b", .blank]
  text := "f(%a) [hsa_function] \x7b\nentry:\n  %b = add %a, 1 ; CHECK: f\n  store &\"f\", %b\n\x7d"

def markedItems : List (Source.Item String) :=
  [.function ⟨"f", ["a"], [.callable], {}, some [⟨"entry",
    [⟨some "b", .other "add", [.value "a", .immediate 1]⟩, ⟨none, .other "store", [.address "f", .value "b"]⟩]⟩]⟩]

theorem script_program_markedText :
    Script.parse? markedText = some markedScript ∧ Program.parse markedText = .ok (Source.layOut markedItems) ∧
      Program.parse markedScript.text = .ok (Source.layOut markedItems) := by
  have hscript : Script.parse? markedText = some markedScript := by decide +kernel
  have hprogram : Program.parse markedText = .ok (Source.layOut markedItems) := by decide +kernel
  exact ⟨hscript, hprogram, (script_program_iff hscript _).mpr hprogram⟩

end Accelerator.Check
