import Accelerator.Source.Grammar
import Accelerator.Source.Writer
import Mathlib

/-!
# Tokens that were written

A token is read back from a text if what follows cannot extend it (`Stops`).  A name ends at the first character that
does not continue it, a quoted name at its closing quote.  Blanks are never the start of a name, so it makes no
difference whether one stands before it.
-/

namespace Accelerator

namespace Scanner

variable {τ ε α β σ : Type}

/-- The scanner gets from `s` to `r`, and the value that it gives has the property. -/
def Yields (p : Scanner τ ε α) (s : List τ) (P : α → Prop) (r : List τ) : Prop := ∃ a, p s = .ok (a, r) ∧ P a

variable {p : Scanner τ ε α} {f : α → Scanner τ ε β} {s m r : List τ} {P : α → Prop} {Q : β → Prop}

theorem yields_pure {a : α} (h : P a) : Yields (pure a : Scanner τ ε α) s P s := ⟨a, rfl, h⟩

theorem Yields.step {a : α} (h : p s = .ok (a, m)) (hf : Yields (f a) m Q r) : Yields (p >>= f) s Q r := by
  obtain ⟨b, hb, hQ⟩ := hf
  exact ⟨b, bind_eq_ok.mpr ⟨a, m, h, hb⟩, hQ⟩

theorem Yields.bind (hp : Yields p s P m) (hf : ∀ a, P a → Yields (f a) m Q r) : Yields (p >>= f) s Q r := by
  obtain ⟨a, ha, hP⟩ := hp
  exact .step ha (hf a hP)

section

variable {round : σ → Scanner τ ε (Option σ)} {hr : ∀ a, Progresses (round a)} {a b : σ} {s' : List τ} {P : σ → Prop}

theorem loop_error {e : Halt τ ε} (h : round a s = .error e) : loop round hr a s = .error e := by
  rw [loop]
  split <;> simp_all

theorem loop_none (h : round a s = .ok (none, r)) : loop round hr a s = .ok (a, r) := by
  rw [loop]
  split <;> simp_all

theorem loop_some (h : round a s = .ok (some b, m)) : loop round hr a s = loop round hr b m := by
  rw [loop.eq_1 round hr a s]
  split <;> simp_all

theorem loop_congr (h : round a s = round a s') : loop round hr a s = loop round hr a s' := by
  rw [loop.eq_1 round hr a s, loop.eq_1 round hr a s']
  split <;> split <;> simp_all

/-- A loop over a list of entries: `text todo` is what stands before the entries that are still to be read, and the
invariant says which states stand for the entries that were read. -/
theorem yields_loop {I : List β → σ → Prop} (text : List β → List τ) {left : List τ} {all : List β}
    (hclose : ∀ a, round a (text []) = .ok (none, left))
    (hentry : ∀ done x todo, all = done ++ x :: todo → ∀ a, I done a →
      Yields (round a) (text (x :: todo)) (fun o => ∃ b, o = some b ∧ I (done ++ [x]) b) (text todo))
    {a : σ} (ha : I [] a) : Yields (loop round hr a) (text all) (I all) left := by
  have hrest : ∀ todo done, all = done ++ todo → ∀ a, I done a →
      Yields (loop round hr a) (text todo) (I all) left := by
    intro todo
    induction todo with
    | nil =>
      intro done hall a ha
      rw [List.append_nil] at hall
      subst hall
      exact ⟨a, loop_none (hclose a), ha⟩
    | cons x todo ih =>
      intro done hall a ha
      obtain ⟨_, hb, b, rfl, hI⟩ := hentry done x todo hall a ha
      obtain ⟨c, hc, hI'⟩ := ih (done ++ [x]) (by simp [hall]) b hI
      exact ⟨c, (loop_some hb).trans hc, hI'⟩
  exact hrest all [] rfl a ha

end

end Scanner

namespace Source

open Scanner

/-! ### Characters -/

/-- The code points of the blanks. -/
def blankCodes : List Nat :=
  [0x9, 0xA, 0xB, 0xC, 0xD, 0x20, 0x85, 0xA0, 0x1680, 0x2000, 0x2001, 0x2002, 0x2003, 0x2004, 0x2005, 0x2006, 0x2007,
    0x2008, 0x2009, 0x200A, 0x2028, 0x2029, 0x202F, 0x205F, 0x3000]

/-- What holds of the code points of all blanks holds of every blank. -/
theorem of_isBlank {P : Char → Prop} (hall : ∀ n ∈ blankCodes, P (Char.ofNat n)) {c : Char}
    (h : Text.isBlank c = true) : P c := by
  have hcode : c.toNat ∈ blankCodes := by
    simp only [Text.isBlank, Text.whiteSpace, Text.Ranges.holds, Bool.and_eq_true, Bool.or_eq_true, decide_eq_true_eq,
      Bool.false_eq_true, or_false] at h
    simp only [blankCodes, List.mem_cons, List.not_mem_nil, or_false]
    omega
  rw [← Char.ofNat_toNat c]
  exact hall _ hcode

/-- A blank is part of no name. -/
theorem continuesName_of_isBlank {c : Char} (h : Text.isBlank c = true) : continuesName c = false :=
  of_isBlank (P := fun c => continuesName c = false) (by decide +kernel) h

/-- A name does not begin with a blank. -/
theorem isBlank_of_startsName {c : Char} (h : startsName c = true) : Text.isBlank c = false := by
  by_contra hblank
  have hends := continuesName_of_isBlank (Bool.not_eq_false _ ▸ hblank)
  simp only [startsName, continuesName, Text.isAlphanumeric, Bool.or_eq_true, Bool.or_eq_false_iff] at h hends
  simp_all

/-- Characters of the format that are part of no name. -/
def marks : List Char := [' ', '\n', ',', ';', ':', '(', ')', '\x7b', '\x7d', '!', '%']

theorem continuesName_of_mem_marks {c : Char} (h : c ∈ marks) : continuesName c = false := by
  have hall : marks.all (fun c => !continuesName c) = true := by decide
  simpa using List.all_eq_true.mp hall c h

theorem ne_of_startsName {c d : Char} (h : startsName c = true) (hd : d ∈ marks) : c ≠ d := by
  rintro rfl
  have hends := continuesName_of_mem_marks hd
  simp only [startsName, continuesName, Text.isAlphanumeric, Bool.or_eq_true, Bool.or_eq_false_iff] at h hends
  simp_all

theorem digit_facts {c : Char} (h : c.isDigit = true) :
    continuesName c = true ∧ Text.isBlank c = false ∧ c ≠ '-' ∧ c ∉ [')', ';', '\x7d', ':'] := by
  have hbounds : 48 ≤ c.toNat ∧ c.toNat ≤ 57 := by
    simp only [Char.isDigit, Bool.and_eq_true, decide_eq_true_eq] at h
    exact h
  obtain ⟨hlow, hhigh⟩ := hbounds
  have hc : c = Char.ofNat c.toNat := (Char.ofNat_toNat c).symm
  rw [hc]
  interval_cases c.toNat <;> decide

/-! ### Blanks -/

theorem dropBlanks_cons {c : Char} (hblank : Text.isBlank c = false) (hc : c ≠ ';') (r : List Char) :
    dropBlanks (c :: r) = c :: r := by
  simp [dropBlanks, dropBlanksFrom, hblank, hc]

theorem dropBlanks_name {c : Char} (h : startsName c = true) (r : List Char) : dropBlanks (c :: r) = c :: r :=
  dropBlanks_cons (isBlank_of_startsName h) (ne_of_startsName h (by decide)) r

theorem dropInline_cons {c : Char} (hblank : Text.isBlank c = false) (r : List Char) :
    dropInline (c :: r) = c :: r := by
  simp [dropInline, hblank]

/-! ### Single characters -/

theorem accept_self {c : Char} (hblank : Text.isBlank c = false) (hc : c ≠ ';') (r : List Char) :
    accept c (c :: r) = .ok (true, r) := by
  rw [accept, dropBlanks_cons hblank hc]
  exact if_pos rfl

theorem accept_other {c d : Char} (hblank : Text.isBlank d = false) (hd : d ≠ ';') (hne : d ≠ c) (r : List Char) :
    accept c (d :: r) = .ok (false, d :: r) := by
  rw [accept, dropBlanks_cons hblank hd]
  exact if_neg hne

private theorem expect_self {c : Char} (hblank : Text.isBlank c = false) (hc : c ≠ ';') (r : List Char) :
    expect c (c :: r) = .ok ((), r) := by
  rw [expect, dropBlanks_cons hblank hc]
  exact if_pos rfl

/-! ### Names -/

/-- No name goes on here. -/
def Stops (rest : List Char) : Prop := ∀ c ∈ rest.head?, continuesName c = false

theorem stops_mark {c : Char} (h : c ∈ marks) (r : List Char) : Stops (c :: r) := by
  rintro _ ⟨⟩
  exact continuesName_of_mem_marks h

theorem takeWhile_dropWhile_stop {p : Char → Bool} {word rest : List Char} (hw : ∀ c ∈ word, p c = true)
    (hr : ∀ c ∈ rest.head?, p c = false) :
    (word ++ rest).takeWhile p = word ∧ (word ++ rest).dropWhile p = rest := by
  rw [List.takeWhile_append_of_pos hw, List.dropWhile_append_of_pos hw]
  cases rest with
  | nil => simp
  | cons c r =>
    have hc : p c = false := hr c rfl
    simp [hc]

theorem exists_cons_of_isName {word : String} (h : isName word = true) :
    ∃ c r, word.toList = c :: r ∧ startsName c = true ∧ ∀ d ∈ r, continuesName d = true := by
  unfold isName at h
  split at h
  · cases h
  · rename_i c r hw
    simp only [Bool.and_eq_true, List.all_eq_true] at h
    exact ⟨c, r, hw, h⟩

theorem name_word {word : String} (h : isName word = true) {rest : List Char} (hr : Stops rest) :
    name (word.toList ++ rest) = .ok (word, rest) := by
  obtain ⟨c, r, hw, hc, hall⟩ := exists_cons_of_isName h
  obtain ⟨htake, hdrop⟩ := takeWhile_dropWhile_stop hall hr
  have hword : String.ofList (c :: r) = word := by rw [← hw, String.ofList_toList]
  rw [hw, List.cons_append, name, dropBlanks_name hc]
  simp only [hc, if_true, htake, hdrop, hword]

theorem valueName_word {word : String} (h : isName word = true) {rest : List Char} (hr : Stops rest) :
    valueName ('%' :: (word.toList ++ rest)) = .ok (word, rest) :=
  bind_eq_ok.mpr ⟨(), _, expect_self (by decide) (by decide) _, name_word h hr⟩

private theorem quotedName_title {title : String} (h : isTitle title = true) (rest : List Char) :
    quotedName (title.toList ++ '"' :: rest) = .ok (title, rest) := by
  simp only [isTitle, Bool.and_eq_true, Bool.not_eq_true', List.all_eq_true] at h
  obtain ⟨hne, hall⟩ := h
  have hquote : ∀ c ∈ ('"' :: rest).head?, inQuotes c = false := by
    rintro _ ⟨⟩
    rfl
  obtain ⟨htake, hdrop⟩ := takeWhile_dropWhile_stop hall hquote
  have hbody : title.toList.isEmpty = false := by
    simpa using hne
  rw [quotedName, hdrop]
  simp only [htake, hbody, Bool.false_eq_true, if_false, String.ofList_toList]

theorem toList_quoted (title : String) : (quoted title).toList = '"' :: (title.toList ++ ['"']) := by
  simp [quoted]

theorem symbol_quoted {title : String} (h : isTitle title = true) (rest : List Char) :
    symbol ((quoted title).toList ++ rest) = .ok (title, rest) := by
  have hread := quotedName_title h rest
  simp only [toList_quoted, List.cons_append, List.append_assoc, List.nil_append]
  exact hread

end Source

end Accelerator
