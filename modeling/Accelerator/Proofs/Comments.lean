import Accelerator.Proofs.Tokens

/-!
# Texts that differ in comments

A text is `Commented` if it is another one with comments added at the ends of lines: the two agree character by
character except where a line of the first ends, and there the second may go on with blanks, newlines and comments of
its own.  No token and no comment reaches across the end of a line, and the end of the text ends a line, too, so every
reader of tokens that succeeds on the first text gives the same on the second and leaves texts that are related in the
same way (`Respects`).  It is not so the other way round: a quote that is open at the end of a line may be closed by
what is added there.

Two texts have the same lines (`SameLines`) if the line ends in both wherever they differ, and this is symmetric.
Values are compared through a `view`, which forgets where in the text a name was mentioned.
-/

namespace Accelerator.Source

open Scanner

/-! ### The ends of lines -/

/-- Nothing but blanks comes before the end of the line. -/
def LineEnds (s : List Char) : Prop := ∀ c ∈ (dropInline s).head?, c = '\n'

/-- Nothing but blanks comes before the end of the line or a comment. -/
def LineStops (s : List Char) : Prop := ∀ c ∈ (dropInline s).head?, c = '\n' ∨ c = ';'

/-- The characters that stand neither between tokens nor at the beginning of a comment. -/
abbrev InToken (c : Char) : Prop := Text.isBlank c = false ∧ c ≠ ';'

variable {s t : List Char} {c : Char}

private theorem LineEnds.stops (h : LineEnds s) : LineStops s := fun c hc => .inl (h c hc)

theorem isBlank_newline : Text.isBlank '\n' = true := by decide

private theorem isBlank_semicolon : Text.isBlank ';' = false := by decide

private theorem dropInline_cons_eq (c : Char) (s : List Char) :
    dropInline (c :: s) = if (Text.isBlank c && c != '\n') = true then dropInline s else c :: s :=
  List.dropWhile_cons

theorem dropBlanks_blank (hc : Text.isBlank c = true) (s : List Char) : dropBlanks (c :: s) = dropBlanks s := by
  have hne : c ≠ ';' := by
    rintro rfl
    rw [isBlank_semicolon] at hc
    cases hc
  simp [dropBlanks, dropBlanksFrom, hc, hne]

theorem lineEnds_nil : LineEnds [] := by
  intro c hc
  cases hc

theorem lineEnds_newline (s : List Char) : LineEnds ('\n' :: s) := by
  simp [LineEnds, dropInline]

/-- A line that ends goes on with a blank, if at all: with the newline or with one that comes before it. -/
theorem lineEnds_cons : LineEnds (c :: s) ↔ c = '\n' ∨ (Text.isBlank c = true ∧ LineEnds s) := by
  by_cases hc : c = '\n'
  · simp [hc, lineEnds_newline]
  · by_cases hblank : Text.isBlank c = true
    · simp [LineEnds, dropInline, hc, hblank]
    · simp [LineEnds, dropInline, hc, hblank]

theorem lineStops_cons : LineStops (c :: s) ↔ c = '\n' ∨ c = ';' ∨ (Text.isBlank c = true ∧ LineStops s) := by
  by_cases hc : c = '\n' ∨ c = ';'
  · rcases hc with rfl | rfl
    · simp [LineStops, dropInline]
    · simp [LineStops, dropInline, isBlank_semicolon]
  · rw [not_or] at hc
    by_cases hblank : Text.isBlank c = true
    · simp [LineStops, dropInline, hc, hblank]
    · simp [LineStops, dropInline, hc, hblank]

private theorem LineStops.not_inToken (h : LineStops s) : ∀ c ∈ s.head?, ¬InToken c := by
  cases s with
  | nil => simp
  | cons d s =>
    rintro _ ⟨⟩ ⟨hblank, hd⟩
    rcases lineStops_cons.mp h with rfl | rfl | ⟨hd, -⟩
    · rw [isBlank_newline] at hblank
      cases hblank
    · exact hd rfl
    · rw [hd] at hblank
      cases hblank

/-- Where a line ends, a comment ends, too, and where one begins it makes no difference whether one was open. -/
private theorem LineStops.dropBlanksFrom_eq (h : LineStops s) (inComment : Bool) :
    dropBlanksFrom inComment s = dropBlanks s := by
  induction s generalizing inComment with
  | nil => rfl
  | cons d s ih =>
    cases inComment with
    | false => rfl
    | true =>
      have hcomment : dropBlanksFrom true (d :: s) = dropBlanksFrom (d != '\n') s := rfl
      rcases lineStops_cons.mp h with rfl | rfl | ⟨hblank, hs⟩
      · rw [hcomment, dropBlanks_blank isBlank_newline]
        rfl
      · rfl
      · rw [hcomment, dropBlanks_blank hblank]
        exact ih hs _

private theorem dropBlanks_dropInline (s : List Char) : dropBlanks (dropInline s) = dropBlanks s := by
  induction s with
  | nil => rfl
  | cons d s ih =>
    rw [dropInline_cons_eq]
    split
    · rename_i hd
      rw [ih, dropBlanks_blank (Bool.and_eq_true_iff.mp hd).1]
    · rfl

private theorem dropInline_dropInline (s : List Char) : dropInline (dropInline s) = dropInline s :=
  List.dropWhile_idempotent _ s

private theorem LineEnds.dropInline (h : LineEnds s) : LineEnds (dropInline s) := by
  rw [LineEnds, dropInline_dropInline]
  exact h

private theorem LineStops.dropInline (h : LineStops s) : LineStops (dropInline s) := by
  rw [LineStops, dropInline_dropInline]
  exact h

/-- After blanks comes neither a blank nor a comment. -/
private theorem head_dropBlanksFrom (inComment : Bool) (s : List Char) :
    ∀ c ∈ (dropBlanksFrom inComment s).head?, InToken c := by
  induction s generalizing inComment with
  | nil => simp [dropBlanksFrom]
  | cons d s ih =>
    rw [dropBlanksFrom]
    split
    · exact ih _
    · split
      · exact ih _
      · rename_i hd
        split
        · exact ih _
        · rename_i hblank
          rintro _ ⟨⟩
          exact ⟨by simpa using hblank, by simpa using hd⟩

/-- Blanks, a semicolon and anything else. -/
def IsComment (line : List Char) : Prop :=
  ∃ blank rest, line = blank ++ ';' :: rest ∧ ∀ c ∈ blank, Text.isBlank c = true

/-- A comment up to the end of its line is skipped. -/
theorem dropBlanks_comment {line s : List Char} (h : IsComment line) (hline : '\n' ∉ line) (hs : LineEnds s) :
    dropBlanks (line ++ s) = dropBlanks s := by
  obtain ⟨blank, rest, rfl, hblank⟩ := h
  have hbefore : ∀ u : List Char, dropBlanks (blank ++ u) = dropBlanks u := by
    intro u
    clear hline
    induction blank with
    | nil => rfl
    | cons c blank ih =>
      rw [List.forall_mem_cons] at hblank
      rw [List.cons_append, dropBlanks_blank hblank.1, ih hblank.2]
  have hinside : dropBlanksFrom true (rest ++ s) = dropBlanksFrom true s := by
    have hrest : '\n' ∉ rest := fun hmem => hline (by simp [hmem])
    clear hline
    induction rest with
    | nil => rfl
    | cons c rest ih =>
      rw [List.mem_cons, not_or] at hrest
      have hc : (c != '\n') = true := by simpa using Ne.symm hrest.1
      rw [List.cons_append, dropBlanksFrom, if_pos rfl, hc, ih hrest.2]
  have hcomment : dropBlanks (';' :: (rest ++ s)) = dropBlanksFrom true (rest ++ s) := rfl
  rw [List.append_assoc, hbefore, List.cons_append, hcomment, hinside, hs.stops.dropBlanksFrom_eq]

/-! ### Texts with comments added -/

/-- The texts are the same but for blanks, newlines and comments where a line ends in the first and `Ends` holds of the
second. -/
inductive Aligned (Ends : List Char → Prop) : List Char → List Char → Prop
  | nil : Aligned Ends [] []
  | cons (c : Char) {s t : List Char} (h : Aligned Ends s t) : Aligned Ends (c :: s) (c :: t)
  | gap {s t : List Char} (hs : LineEnds s) (ht : Ends t) (h : Aligned Ends (dropBlanks s) (dropBlanks t)) :
      Aligned Ends s t

/-- The texts are the same but for blanks, newlines and comments where lines end in both. -/
abbrev SameLines : List Char → List Char → Prop := Aligned LineEnds

/-- The second text is the first with comments added where lines end. -/
abbrev Commented : List Char → List Char → Prop := Aligned LineStops

section

variable {Ends Ends' : List Char → Prop}

theorem Aligned.refl (s : List Char) : Aligned Ends s s := by
  induction s with
  | nil => exact .nil
  | cons c s ih => exact .cons c ih

theorem Aligned.append (u : List Char) (h : Aligned Ends s t) : Aligned Ends (u ++ s) (u ++ t) := by
  induction u with
  | nil => exact h
  | cons c u ih => exact .cons c ih

private theorem Aligned.mono (hends : ∀ u, Ends u → Ends' u) (h : Aligned Ends s t) : Aligned Ends' s t := by
  induction h with
  | nil => exact .nil
  | cons c _ ih => exact .cons c ih
  | gap hs ht _ ih => exact .gap hs (hends _ ht) ih

private theorem Aligned.dropBlanksFrom (hends : ∀ u, Ends u → LineStops u) (h : Aligned Ends s t) (inComment : Bool) :
    Aligned Ends (dropBlanksFrom inComment s) (dropBlanksFrom inComment t) := by
  induction h generalizing inComment with
  | nil => exact .nil
  | @cons c s t h ih =>
    rw [Source.dropBlanksFrom.eq_def inComment (c :: s), Source.dropBlanksFrom.eq_def inComment (c :: t)]
    dsimp only
    split
    · exact ih _
    · split
      · exact ih _
      · split
        · exact ih _
        · exact .cons c h
  | gap hs ht h _ =>
    rw [hs.stops.dropBlanksFrom_eq, (hends _ ht).dropBlanksFrom_eq]
    exact h

end

theorem SameLines.symm (h : SameLines s t) : SameLines t s := by
  induction h with
  | nil => exact .nil
  | cons c _ ih => exact .cons c ih
  | gap hs ht _ ih => exact .gap ht hs ih

theorem SameLines.commented (h : SameLines s t) : Commented s t := h.mono fun _ => LineEnds.stops

theorem SameLines.afterBlanks (h : SameLines s t) : SameLines (dropBlanks s) (dropBlanks t) :=
  h.dropBlanksFrom (fun _ => LineEnds.stops) false

private theorem Commented.afterBlanks (h : Commented s t) : Commented (dropBlanks s) (dropBlanks t) :=
  h.dropBlanksFrom (fun _ => id) false

theorem Commented.dropInline (h : Commented s t) : Commented (dropInline s) (dropInline t) := by
  induction h with
  | nil => exact .nil
  | @cons c s t h ih =>
    rw [dropInline_cons_eq, dropInline_cons_eq]
    split
    · exact ih
    · exact .cons c h
  | gap hs ht h _ =>
    refine .gap hs.dropInline ht.dropInline ?_
    rw [dropBlanks_dropInline, dropBlanks_dropInline]
    exact h

/-- Such texts begin with the same character, or a line of the first ends. -/
private theorem Commented.cons_or_ends (h : Commented s t) :
    (∃ c s' t', s = c :: s' ∧ t = c :: t' ∧ Commented s' t') ∨ (LineEnds s ∧ LineStops t) := by
  cases h with
  | nil => exact .inr ⟨lineEnds_nil, lineEnds_nil.stops⟩
  | cons c h => exact .inl ⟨c, _, _, rfl, rfl, h⟩
  | gap hs ht _ => exact .inr ⟨hs, ht⟩

/-- After blanks both texts are at an end, or the same token begins. -/
private theorem Commented.token (h : Commented s t) :
    (dropBlanks s = [] ∧ dropBlanks t = []) ∨
      ∃ c s' t', dropBlanks s = c :: s' ∧ dropBlanks t = c :: t' ∧ Commented s' t' := by
  rcases h.afterBlanks.cons_or_ends with hcons | ⟨hs, ht⟩
  · exact .inr hcons
  · have hnil : ∀ u, LineStops (dropBlanks u) → dropBlanks u = [] := by
      intro u hu
      cases hd : dropBlanks u with
      | nil => rfl
      | cons d r =>
        have hhead : (dropBlanks u).head? = some d := by rw [hd, List.head?_cons]
        exact absurd (head_dropBlanksFrom false u d hhead) (hu.not_inToken d hhead)
    exact .inl ⟨hnil s hs.stops, hnil t ht⟩

theorem Commented.head_eq_iff (h : Commented s t) (hc : InToken c) : s.head? = some c ↔ t.head? = some c := by
  rcases h.cons_or_ends with ⟨d, s', t', rfl, rfl, -⟩ | ⟨hs, ht⟩
  · exact Iff.rfl
  · exact iff_of_false (fun hhead => hs.stops.not_inToken c hhead hc) fun hhead => ht.not_inToken c hhead hc

private theorem Commented.tail (h : Commented s t) (hc : InToken c) (hs : s.head? = some c) :
    Commented s.tail t.tail := by
  rcases h.cons_or_ends with ⟨d, s', t', rfl, rfl, hrest⟩ | ⟨hends, -⟩
  · exact hrest
  · exact absurd hc (hends.stops.not_inToken c hs)

private theorem Commented.head_dropBlanks (h : Commented s t) : (dropBlanks s).head? = (dropBlanks t).head? := by
  rcases h.token with ⟨hs, ht⟩ | ⟨c, s', t', hs, ht, -⟩
  · rw [hs, ht]
  · rw [hs, ht, List.head?_cons, List.head?_cons]

/-- A run of characters within a token is the same in both texts. -/
private theorem Commented.takeWhile (h : Commented s t) {p : Char → Bool} (hp : ∀ c, p c = true → InToken c) :
    s.takeWhile p = t.takeWhile p ∧ Commented (s.dropWhile p) (t.dropWhile p) := by
  have hstop : ∀ u, LineStops u → u.takeWhile p = [] ∧ u.dropWhile p = u := by
    intro u hu
    cases u with
    | nil => exact ⟨rfl, rfl⟩
    | cons d u =>
      have hd : ¬p d = true := fun hd => hu.not_inToken d rfl (hp d hd)
      exact ⟨List.takeWhile_cons_of_neg hd, List.dropWhile_cons_of_neg hd⟩
  induction h with
  | nil => exact ⟨rfl, .nil⟩
  | @cons c s t h ih =>
    by_cases hc : p c = true
    · simp only [List.takeWhile_cons_of_pos hc, List.dropWhile_cons_of_pos hc]
      exact ⟨congrArg _ ih.1, ih.2⟩
    · simp only [List.takeWhile_cons_of_neg hc, List.dropWhile_cons_of_neg hc]
      exact ⟨trivial, .cons c h⟩
  | @gap s t hs ht h _ =>
    rw [(hstop s hs.stops).1, (hstop s hs.stops).2, (hstop t ht).1, (hstop t ht).2]
    exact ⟨rfl, .gap hs ht h⟩

/-- A quoted name is the same in both texts, or not closed on its line in the first. -/
private theorem Commented.quoted (h : Commented s t) :
    (∃ s' t', s.dropWhile inQuotes = '"' :: s' ∧ t.dropWhile inQuotes = '"' :: t' ∧
      s.takeWhile inQuotes = t.takeWhile inQuotes ∧ Commented s' t') ∨
    (s.dropWhile inQuotes).head? ≠ some '"' := by
  have hopen : ∀ u, LineEnds u → (u.dropWhile inQuotes).head? ≠ some '"' := by
    intro u hu
    induction u with
    | nil => simp
    | cons d u ih =>
      by_cases hd : d = '\n'
      · simp [hd, inQuotes]
      · obtain ⟨hblank, hu⟩ := (lineEnds_cons.mp hu).resolve_left hd
        have hne : d ≠ '"' := by
          rintro rfl
          revert hblank
          decide
        rw [List.dropWhile_cons_of_pos (by simp [inQuotes, hd, hne])]
        exact ih hu
  induction h with
  | nil => exact .inr (by simp)
  | @cons c s t h ih =>
    by_cases hc : inQuotes c = true
    · simp only [List.takeWhile_cons_of_pos hc, List.dropWhile_cons_of_pos hc]
      rcases ih with ⟨s', t', hs, ht, htake, hrest⟩ | hopen
      · exact .inl ⟨s', t', hs, ht, congrArg _ htake, hrest⟩
      · exact .inr hopen
    · simp only [List.takeWhile_cons_of_neg hc, List.dropWhile_cons_of_neg hc]
      by_cases hquote : c = '"'
      · exact .inl ⟨s, t, by rw [hquote], by rw [hquote], trivial, h⟩
      · exact .inr (by simp [hquote])
  | @gap s _ hs _ _ _ => exact .inr (hopen s hs)

/-! ### Readers that agree -/

section

variable {α β γ δ σ : Type}

/-- The first fails, or both give values with the same view and leave texts that differ in added comments only. -/
inductive Agree (view : α → γ) :
    Except (Halt Char Cause) (α × List Char) → Except (Halt Char Cause) (α × List Char) → Prop
  | ok {a b : α} {s t : List Char} (h : view a = view b) (hs : Commented s t) : Agree view (.ok (a, s)) (.ok (b, t))
  | error (h : Halt Char Cause) (y : Except (Halt Char Cause) (α × List Char)) : Agree view (.error h) y

/-- What the first reader makes of a text the second makes of any text that is related to it. -/
def Respects (E : List Char → List Char → Prop) (view : α → γ) (p q : Reader α) : Prop :=
  ∀ s t, E s t → Agree view (p s) (q t)

/-- Texts that differ in added comments only and both begin with `o`. -/
def Both (o : Option Char) (s t : List Char) : Prop := Commented s t ∧ s.head? = o ∧ t.head? = o

theorem Both.isEmpty_eq {o : Option Char} {s t : List Char} (h : Both o s t) : s.isEmpty = t.isEmpty := by
  have hhead : s.head? = t.head? := h.2.1.trans h.2.2.symm
  cases s <;> cases t <;> simp_all

variable {E : List Char → List Char → Prop} {v : α → γ} {w : β → δ} {p q : Reader α} {f g : α → Reader β}

theorem Respects.both (h : Respects Commented v p q) (o : Option Char) : Respects (Both o) v p q :=
  fun s t hst => h s t hst.1

theorem respects_pure {a b : α} (h : v a = v b) : Respects Commented v (pure a) (pure b) := fun _ _ hst => .ok h hst

theorem respects_fail (c : Cause) (q : Reader α) : Respects E v (fail c) q := fun _ _ _ => .error _ _

theorem respects_refuse {a b : Bool} (h : a = b) (c d : Cause) :
    Respects Commented (id : Unit → Unit) (refuse a c) (refuse b d) := by
  subst h
  cases a with
  | true => exact respects_fail c _
  | false => exact respects_pure rfl

theorem Respects.bind (hp : Respects E v p q) (hf : ∀ a b, v a = v b → Respects Commented w (f a) (g b)) :
    Respects E w (p >>= f) (q >>= g) := by
  intro s t hst
  have hagree := hp s t hst
  rw [bind_apply, bind_apply]
  generalize p s = x at hagree ⊢
  generalize q t = y at hagree ⊢
  cases hagree with
  | ok h hs => exact hf _ _ h _ _ hs
  | error h y => exact .error h _

theorem Respects.then (hp : Respects E (id : α → α) p q) (hf : ∀ a, Respects Commented w (f a) (g a)) :
    Respects E w (p >>= f) (q >>= g) := by
  refine hp.bind fun a b hab => ?_
  rw [show b = a from hab.symm]
  exact hf a

theorem respects_loop {round : σ → Reader (Option σ)} {hr : ∀ a, Progresses (round a)} {v : σ → γ}
    (hround : ∀ a b, v a = v b → Respects Commented (Option.map v) (round a) (round b)) {a b : σ} (hab : v a = v b) :
    Respects Commented v (loop round hr a) (loop round hr b) := by
  intro s t hst
  -- along the rounds on the first text
  fun_induction loop round hr a s generalizing b t with
  | case1 a s e hs => exact .error e _
  | case2 a s r hs =>
    have hagree := hround a b hab s t hst
    rw [hs] at hagree
    generalize ht : round b t = y at hagree
    cases hagree with
    | @ok _ o _ _ ho hrest =>
      cases o with
      | some b' => cases ho
      | none =>
        rw [loop_none ht]
        exact .ok hab hrest
  | case3 a s a' r hs _ ih =>
    have hagree := hround a b hab s t hst
    rw [hs] at hagree
    generalize ht : round b t = y at hagree
    cases hagree with
    | @ok _ o _ _ ho hrest =>
      cases o with
      | none => cases ho
      | some b' =>
        rw [loop_some ht]
        exact ih (Option.some.inj ho) _ hrest

/-! ### Blanks and single characters -/

theorem respects_blanks : Respects Commented (id : Unit → Unit) blanks blanks :=
  fun _ _ h => .ok rfl h.afterBlanks

theorem respects_advance {c : Char} (hc : InToken c) :
    Respects (Both (some c)) (id : Unit → Unit) advance advance :=
  fun _ _ h => .ok rfl (h.1.tail hc h.2.1)

theorem respects_remaining {f g : List Char → Reader β} (hf : ∀ s t, E s t → Respects E w (f s) (g t)) :
    Respects E w (remaining >>= f) (remaining >>= g) := fun s t h => hf s t h s t h

/-- After blanks both texts show the same character. -/
theorem respects_blanks_both {p q : Reader β} (hp : ∀ o, Respects (Both o) w p q) :
    Respects Commented w (blanks >>= fun _ => p) (blanks >>= fun _ => q) :=
  fun _ _ h => hp _ _ _ ⟨h.afterBlanks, h.head_dropBlanks, rfl⟩

section

variable {f g : Option Char → Reader β}

theorem respects_blanks_peek (hf : ∀ o, Respects (Both o) w (f o) (g o)) :
    Respects Commented w (blanks >>= fun _ => peek >>= f) (blanks >>= fun _ => peek >>= g) := by
  refine respects_blanks_both fun o s t h => ?_
  have hleft : (peek >>= f) s = f o s := by
    rw [← h.2.1]
    rfl
  have hright : (peek >>= g) t = g o t := by
    rw [← h.2.2]
    rfl
  rw [hleft, hright]
  exact hf o s t h

/-- After the blanks of a line both texts show the same character, or a line of the first ends. -/
theorem respects_inline_peek (hsame : ∀ o, Respects (Both o) w (f o) (g o))
    (hend : ∀ o ∈ [none, some '\n'], ∀ o' ∈ [none, some '\n', some ';'], Respects Commented w (f o) (g o')) :
    Respects Commented w (inlineBlanks >>= fun _ => peek >>= f) (inlineBlanks >>= fun _ => peek >>= g) := by
  intro s t h
  have hleft : (inlineBlanks >>= fun _ => peek >>= f) s = f (dropInline s).head? (dropInline s) := rfl
  have hright : (inlineBlanks >>= fun _ => peek >>= g) t = g (dropInline t).head? (dropInline t) := rfl
  rw [hleft, hright]
  rcases h.dropInline.cons_or_ends with ⟨c, s', t', hs, ht, -⟩ | ⟨hs, ht⟩
  · have hhead : (dropInline s).head? = (dropInline t).head? := by rw [hs, ht, List.head?_cons, List.head?_cons]
    rw [hhead]
    exact hsame _ _ _ ⟨h.dropInline, hhead, rfl⟩
  · have hends : (dropInline s).head? ∈ [none, some '\n'] := by
      rw [LineEnds, dropInline_dropInline] at hs
      cases hhead : (dropInline s).head? with
      | none => simp
      | some c => simp [hs c hhead]
    have hstops : (dropInline t).head? ∈ [none, some '\n', some ';'] := by
      rw [LineStops, dropInline_dropInline] at ht
      cases hhead : (dropInline t).head? with
      | none => simp
      | some c => simp [ht c hhead]
    exact hend _ hends _ hstops _ _ h.dropInline

/-- A test for a character of a token has the same outcome on both texts. -/
theorem respects_peek (hf : ∀ o o', (∀ c, InToken c → (o == some c) = (o' == some c)) →
      Respects Commented w (f o) (g o')) : Respects Commented w (peek >>= f) (peek >>= g) := by
  intro s t h
  refine hf s.head? t.head? (fun c hc => ?_) s t h
  rw [Bool.eq_iff_iff, beq_iff_eq, beq_iff_eq]
  exact h.head_eq_iff hc

end

theorem respects_accept {f g : Bool → Reader β} (c : Char) (htrue : Respects Commented w (f true) (g true))
    (hfalse : ∀ o, Respects (Both o) w (f false) (g false)) :
    Respects Commented w (accept c >>= f) (accept c >>= g) := by
  intro s t h
  rw [bind_apply, bind_apply, accept, accept]
  rcases h.token with ⟨hs, ht⟩ | ⟨d, s', t', hs, ht, hrest⟩
  · rw [hs, ht]
    exact hfalse none [] [] ⟨.nil, rfl, rfl⟩
  · rw [hs, ht]
    by_cases hd : d = c
    · simp only [hd, if_true]
      exact htrue s' t' hrest
    · simp only [hd, if_false]
      exact hfalse (some d) (d :: s') (d :: t') ⟨.cons d hrest, rfl, rfl⟩

theorem respects_expect (c : Char) : Respects Commented (id : Unit → Unit) (expect c) (expect c) := by
  intro s t h
  rw [expect, expect]
  rcases h.token with ⟨hs, ht⟩ | ⟨d, s', t', hs, ht, hrest⟩
  · rw [hs, ht]
    exact .error _ _
  · rw [hs, ht]
    by_cases hd : d = c
    · simp only [hd, if_true]
      exact .ok rfl hrest
    · simp only [hd, if_false]
      exact .error _ _

theorem respects_separator {close : Char} (hclose : InToken close) (cause : Cause) :
    Respects Commented (id : Unit → Unit) (separator close cause) (separator close cause) := by
  have hafter : ∀ comma : Bool, Respects Commented (id : Unit → Unit)
      (do let next ← peek; refuse (!comma && next != some close) cause)
      (do let next ← peek; refuse (!comma && next != some close) cause) := by
    intro comma
    refine respects_peek fun o o' ho => respects_refuse ?_ cause cause
    rw [bne, bne, ho close hclose]
  exact respects_accept ',' (hafter true) fun o => (hafter false).both o

/-! ### Names and numbers -/

private theorem inToken_of_continuesName (hc : continuesName c = true) : InToken c := by
  constructor
  · by_contra hblank
    rw [continuesName_of_isBlank (by simpa using hblank)] at hc
    cases hc
  · rintro rfl
    rw [continuesName_of_mem_marks (by decide)] at hc
    cases hc

/-- A plain name is the same in both texts, or there is none in either. -/
theorem Commented.name (h : Commented s t) :
    (∃ k k', name s = .error k ∧ name t = .error k') ∨
      ∃ word s' t', name s = .ok (word, s') ∧ name t = .ok (word, t') ∧ Commented s' t' := by
  rw [Source.name, Source.name]
  rcases h.token with ⟨hs, ht⟩ | ⟨c, s', t', hs, ht, hrest⟩
  · rw [hs, ht]
    exact .inl ⟨_, _, rfl, rfl⟩
  · obtain ⟨htake, hdrop⟩ := hrest.takeWhile fun _ => inToken_of_continuesName
    rw [hs, ht]
    by_cases hc : startsName c = true
    · simp only [hc, if_true, htake]
      exact .inr ⟨_, _, _, rfl, rfl, hdrop⟩
    · simp only [hc]
      exact .inl ⟨_, _, rfl, rfl⟩

theorem respects_name : Respects Commented (id : String → String) name name := by
  intro s t h
  rcases h.name with ⟨k, k', hs, -⟩ | ⟨word, s', t', hs, ht, hrest⟩
  · rw [hs]
    exact .error k _
  · rw [hs, ht]
    exact .ok rfl hrest

private theorem respects_quotedName : Respects Commented (id : String → String) quotedName quotedName := by
  intro s t h
  have hclosed : ∀ u r : List Char, u.dropWhile inQuotes = '"' :: r →
      quotedName u = if (u.takeWhile inQuotes).isEmpty = true then .error ⟨r, .emptyName⟩
        else .ok (String.ofList (u.takeWhile inQuotes), r) := by
    intro u r hu
    rw [quotedName, hu]
    rfl
  have hopen : ∀ u : List Char, (u.dropWhile inQuotes).head? ≠ some '"' →
      quotedName u = .error ⟨u.dropWhile inQuotes, .unterminatedName⟩ := by
    intro u hu
    rw [quotedName]
    split
    · rename_i r hr
      rw [hr] at hu
      exact absurd rfl hu
    · rfl
  rcases h.quoted with ⟨s', t', hs, ht, htake, hrest⟩ | hs
  · rw [hclosed s s' hs, hclosed t t' ht, htake]
    split
    · exact .error _ _
    · exact .ok rfl hrest
  · rw [hopen s hs]
    exact .error _ _

theorem respects_symbol : Respects Commented (id : String → String) symbol symbol := by
  refine respects_blanks_peek fun o => ?_
  by_cases ho : o = some '"'
  · subst ho
    exact (respects_advance (by decide)).then fun _ => respects_quotedName
  · have hne : (o == some '"') = false := by simpa using ho
    simp only [hne]
    exact respects_name.both o

theorem respects_valueName : Respects Commented (id : String → String) valueName valueName :=
  (respects_expect '%').then fun _ => respects_name

private theorem splitSign_eq (s : List Char) :
    splitSign s = if s.head? = some '-' then (true, s.tail) else (false, s) := by
  unfold splitSign
  split
  · simp
  · rename_i hne
    rw [if_neg]
    intro hs
    cases s with
    | nil => cases hs
    | cons c r => exact hne r (by simpa using hs)

private theorem splitBase_eq (s : List Char) :
    splitBase s = if s.head? = some '0' ∧ (s.tail.head? = some 'x' ∨ s.tail.head? = some 'X')
      then (16, s.tail.tail) else (10, s) := by
  unfold splitBase
  split
  · simp
  · simp
  · rename_i hlower hupper
    rw [if_neg]
    rintro ⟨hs, hx⟩
    rcases s with _ | ⟨c, _ | ⟨d, r⟩⟩
    · cases hs
    · simp at hx
    · obtain rfl : c = '0' := by simpa using hs
      rcases hx with hx | hx
      · exact hlower r (by simpa using hx)
      · exact hupper r (by simpa using hx)

private theorem Commented.splitSign (h : Commented s t) :
    (splitSign s).1 = (splitSign t).1 ∧ Commented (splitSign s).2 (splitSign t).2 := by
  have hminus : InToken '-' := by decide
  have hiff := h.head_eq_iff hminus
  rw [splitSign_eq, splitSign_eq]
  by_cases hs : s.head? = some '-'
  · rw [if_pos hs, if_pos (hiff.mp hs)]
    exact ⟨rfl, h.tail hminus hs⟩
  · rw [if_neg hs, if_neg fun ht => hs (hiff.mpr ht)]
    exact ⟨rfl, h⟩

private theorem Commented.splitBase (h : Commented s t) :
    (splitBase s).1 = (splitBase t).1 ∧ Commented (splitBase s).2 (splitBase t).2 := by
  have hzero : InToken '0' := by decide
  have hlower : InToken 'x' := by decide
  have hupper : InToken 'X' := by decide
  have hiff := h.head_eq_iff hzero
  rw [splitBase_eq, splitBase_eq]
  by_cases hs : s.head? = some '0'
  · have htail := h.tail hzero hs
    have hmark : (s.tail.head? = some 'x' ∨ s.tail.head? = some 'X') ↔
        (t.tail.head? = some 'x' ∨ t.tail.head? = some 'X') :=
      or_congr (htail.head_eq_iff hlower) (htail.head_eq_iff hupper)
    by_cases hx : s.tail.head? = some 'x' ∨ s.tail.head? = some 'X'
    · rw [if_pos ⟨hs, hx⟩, if_pos ⟨hiff.mp hs, hmark.mp hx⟩]
      refine ⟨rfl, ?_⟩
      rcases hx with hx | hx
      · exact htail.tail hlower hx
      · exact htail.tail hupper hx
    · rw [if_neg fun hand => hx hand.2, if_neg fun hand => hx (hmark.mpr hand.2)]
      exact ⟨rfl, h⟩
  · rw [if_neg fun hand => hs hand.1, if_neg fun hand => hs (hiff.mpr hand.1)]
    exact ⟨rfl, h⟩

private theorem inToken_of_isDigitIn {base : Nat} (hc : isDigitIn base c = true) : InToken c := by
  have hhex : isDigitIn 16 c = true := by
    simp only [isDigitIn, Bool.or_eq_true, Bool.and_eq_true, beq_self_eq_true, true_and] at hc ⊢
    exact hc.imp_right And.right
  constructor
  · by_contra hblank
    have hno : isDigitIn 16 c = false :=
      of_isBlank (P := fun c => isDigitIn 16 c = false) (by decide) (by simpa using hblank)
    rw [hno] at hhex
    cases hhex
  · rintro rfl
    revert hhex
    decide

theorem respects_number : Respects Commented (id : Int → Int) number number := by
  intro s t h
  obtain ⟨hsign, hunsigned⟩ := h.splitSign
  obtain ⟨hbase, hdigits⟩ := hunsigned.splitBase
  simp only [number, hsign, hbase]
  obtain ⟨htake, hdrop⟩ := hdigits.takeWhile (p := isDigitIn (splitBase (Source.splitSign t).2).1) fun _ =>
    inToken_of_isDigitIn
  rw [htake]
  split
  · exact .error _ _
  · split
    · exact .ok rfl hdrop
    · exact .error _ _

end

end Accelerator.Source
