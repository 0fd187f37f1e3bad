import Accelerator.Program.Layout
import Accelerator.Proofs.Tokens

/-!
# Where the reading of a text stands

A place in a text is a rest of it.  Every reader goes from places to places, also where it stops (`Stays`), and the
places of the mentions that it finds are among them (`MentionedAt`).  In bytes a place is the boundary of a character
(`isValid_placeOf`), and the newlines before it give the line of a fault (`lineOf_eq`).

A round of a loop that goes on has come to a later place.  So each loop is over after as many rounds as there are
characters left, and one (`roundsWithin_eq`), whatever the text.
-/

namespace Accelerator

namespace Scanner

variable {τ ε α β σ : Type} {whole : List τ} {P : α → Prop} {Q : β → Prop}

/-- From any place in the whole, the scanner comes to a place with a value that has the property, or stops at a
place. -/
def Stays (whole : List τ) (P : α → Prop) (p : Scanner τ ε α) : Prop :=
  ∀ s, s <:+ whole → (∀ a r, p s = .ok (a, r) → r <:+ whole ∧ P a) ∧ ∀ h, p s = .error h → h.rest <:+ whole

private theorem stays_pure {a : α} (h : P a) : Stays whole P (pure a : Scanner τ ε α) := by
  intro s hs
  constructor
  · rintro _ _ ⟨⟩
    exact ⟨hs, h⟩
  · rintro _ ⟨⟩

private theorem stays_fail (cause : ε) : Stays whole P (fail cause : Scanner τ ε α) := by
  intro s hs
  constructor
  · rintro _ _ ⟨⟩
  · rintro _ ⟨⟩
    exact hs

private theorem stays_refuse (condition : Bool) (cause : ε) :
    Stays whole (fun _ => True) (refuse condition cause : Scanner τ ε Unit) := by
  cases condition with
  | true => exact stays_fail cause
  | false => exact stays_pure trivial

/-- A step that cannot stop leads to a later part of the input. -/
private theorem stays_of_suffix {p : Scanner τ ε α} {value : List τ → α} {drop : List τ → List τ}
    (hp : ∀ s, p s = .ok (value s, drop s)) (hdrop : ∀ s, drop s <:+ s) (h : ∀ s, s <:+ whole → P (value s)) :
    Stays whole P p := by
  intro s hs
  rw [hp s]
  constructor
  · rintro _ _ ⟨⟩
    exact ⟨(hdrop s).trans hs, h s hs⟩
  · rintro _ ⟨⟩

private theorem stays_remaining : Stays whole (· <:+ whole) (remaining : Scanner τ ε (List τ)) :=
  stays_of_suffix (fun _ => rfl) List.suffix_refl fun _ hs => hs

private theorem stays_peek : Stays whole (fun _ => True) (peek : Scanner τ ε (Option τ)) :=
  stays_of_suffix (fun _ => rfl) List.suffix_refl fun _ _ => trivial

private theorem stays_advance : Stays whole (fun _ => True) (advance : Scanner τ ε Unit) :=
  stays_of_suffix (fun _ => rfl) List.tail_suffix fun _ _ => trivial

private theorem stays_skip {drop : List τ → List τ} (h : ∀ s, drop s <:+ s) :
    Stays whole (fun _ => True) (skip drop : Scanner τ ε Unit) :=
  stays_of_suffix (fun _ => rfl) h fun _ _ => trivial

private theorem Stays.bind {p : Scanner τ ε α} {f : α → Scanner τ ε β} (hp : Stays whole P p)
    (hf : ∀ a, P a → Stays whole Q (f a)) : Stays whole Q (p >>= f) := by
  intro s hs
  obtain ⟨hok, herror⟩ := hp s hs
  rw [bind_apply]
  cases hr : p s with
  | error h =>
    constructor
    · rintro _ _ ⟨⟩
    · rintro _ ⟨⟩
      exact herror h hr
  | ok x =>
    obtain ⟨a, r⟩ := x
    obtain ⟨hrest, ha⟩ := hok a r hr
    exact hf a ha r hrest

private theorem Stays.then {p : Scanner τ ε α} {f : α → Scanner τ ε β} (hp : Stays whole P p)
    (hf : ∀ a, Stays whole Q (f a)) : Stays whole Q (p >>= f) := hp.bind fun a _ => hf a

private theorem Stays.weaken {p : Scanner τ ε α} {P' : α → Prop} (hp : Stays whole P p) (h : ∀ a, P a → P' a) :
    Stays whole P' p :=
  fun s hs => ⟨fun a r hr => ((hp s hs).1 a r hr).imp_right (h a), (hp s hs).2⟩

/-- A property of the state that every round keeps is there at the end of a loop. -/
private theorem stays_loop {round : σ → Scanner τ ε (Option σ)} {h : ∀ a, Progresses (round a)} {P : σ → Prop}
    (hround : ∀ a, P a → Stays whole (fun o => ∀ b ∈ o, P b) (round a)) {a : σ} (ha : P a) :
    Stays whole P (loop round h a : Scanner τ ε σ) := by
  intro s hs
  fun_induction loop round h a s with
  | case1 a s e he =>
    constructor
    · rintro _ _ ⟨⟩
    · rintro _ ⟨⟩
      exact (hround a ha s hs).2 e he
  | case2 a s r hr =>
    constructor
    · rintro _ _ ⟨⟩
      exact ⟨((hround a ha s hs).1 _ _ hr).1, ha⟩
    · rintro _ ⟨⟩
  | case3 a s b r hr _ ih =>
    obtain ⟨hrest, hb⟩ := (hround a ha s hs).1 _ _ hr
    exact ih (hb b rfl) hrest

private theorem stays_loop_place {round : σ → Scanner τ ε (Option σ)} {h : ∀ a, Progresses (round a)}
    (hround : ∀ a, Stays whole (fun _ => True) (round a)) (a : σ) :
    Stays whole (fun _ => True) (loop round h a : Scanner τ ε σ) :=
  stays_loop (fun a _ => (hround a).weaken fun _ _ _ _ => trivial) trivial

/-! ### Rounds -/

/-- The result of a loop if it is over after at most `n` rounds. -/
def roundsWithin (round : σ → Scanner τ ε (Option σ)) : Nat → σ → List τ → Option (Except (Halt τ ε) (σ × List τ))
  | 0, _, _ => none
  | n + 1, a, s =>
    match round a s with
    | .error e => some (.error e)
    | .ok (none, r) => some (.ok (a, r))
    | .ok (some b, r) => roundsWithin round n b r

/-- A round that goes on takes a token, so there are at most as many of them as there are tokens. -/
theorem roundsWithin_eq {round : σ → Scanner τ ε (Option σ)} (h : ∀ a, Progresses (round a)) {n : Nat} {a : σ}
    {s : List τ} (hn : s.length < n) : roundsWithin round n a s = some (loop round h a s) := by
  induction n generalizing a s with
  | zero => exact absurd hn (Nat.not_lt_zero _)
  | succ n ih =>
    rw [roundsWithin]
    split
    · rename_i e hr
      rw [loop_error hr]
    · rename_i r hr
      rw [loop_none hr]
    · rename_i b r hr
      have hlt := (h a s _ _ hr).2 rfl
      rw [loop_some hr]
      exact ih (by omega)

/-- What a round of a loop does, wherever it begins: it stops or leaves the loop at a place of the input, or it goes on
at a later one; and what this comes to, that the loop is over after as many rounds as there are tokens, and one. -/
structure Advances (round : σ → Scanner τ ε (Option σ)) : Prop where
  stops : ∀ a s h, round a s = .error h → h.rest <:+ s
  leaves : ∀ a s r, round a s = .ok (none, r) → r <:+ s
  goesOn : ∀ a s b r, round a s = .ok (some b, r) → r <:+ s ∧ r ≠ s
  ends : ∀ h a s, roundsWithin round (s.length + 1) a s = some (loop round h a s)

private theorem advances_of_stays {round : σ → Scanner τ ε (Option σ)} (hprogress : ∀ a, Progresses (round a))
    (hround : ∀ whole a, Stays whole (fun _ => True) (round a)) : Advances round := by
  refine ⟨fun a s h hs => ?_, fun a s r hs => ?_, fun a s b r hs => ⟨?_, ?_⟩, fun h a s => ?_⟩
  · exact (hround s a s (List.suffix_refl s)).2 h hs
  · exact ((hround s a s (List.suffix_refl s)).1 _ r hs).1
  · exact ((hround s a s (List.suffix_refl s)).1 _ r hs).1
  · rintro rfl
    exact absurd ((hprogress a r _ _ hs).2 rfl) (Nat.lt_irrefl _)
  · exact roundsWithin_eq h (Nat.lt_succ_self _)

end Scanner

namespace Source

open Scanner

variable {whole : List Char} {Q : List Char → Prop}

/-! ### Tokens -/

private theorem dropBlanks_suffix (s : List Char) : dropBlanks s <:+ s := by
  have hfrom : ∀ inComment, dropBlanksFrom inComment s <:+ s := by
    induction s with
    | nil => exact fun _ => List.suffix_refl []
    | cons c s ih =>
      intro inComment
      have hlater : ∀ b, dropBlanksFrom b s <:+ c :: s := fun b => (ih b).trans (List.suffix_cons c s)
      rw [dropBlanksFrom]
      split
      · exact hlater _
      · split
        · exact hlater _
        · split
          · exact hlater _
          · exact List.suffix_refl _
  exact hfrom false

private theorem stays_blanks : Stays whole (fun _ => True) blanks := stays_skip dropBlanks_suffix

private theorem stays_inlineBlanks : Stays whole (fun _ => True) inlineBlanks :=
  stays_skip fun _ => List.dropWhile_suffix _

private theorem suffix_of_cons {s r : List Char} {c : Char} (h : c :: r <:+ s) : r <:+ s :=
  (List.suffix_cons c r).trans h

private theorem stays_accept (c : Char) : Stays whole (fun _ => True) (accept c) := by
  intro s hs
  have hblanks := (dropBlanks_suffix s).trans hs
  rw [accept]
  split
  · rename_i hnil
    rw [hnil] at hblanks
    exact stays_pure trivial [] hblanks
  · rename_i d r hcons
    rw [hcons] at hblanks
    split
    · exact stays_pure trivial r (suffix_of_cons hblanks)
    · exact stays_pure trivial (d :: r) hblanks

private theorem stays_expect (c : Char) : Stays whole (fun _ => True) (expect c) := by
  intro s hs
  have hblanks := (dropBlanks_suffix s).trans hs
  rw [expect]
  split
  · rename_i hnil
    rw [hnil] at hblanks
    exact stays_fail _ [] hblanks
  · rename_i d r hcons
    rw [hcons] at hblanks
    split
    · exact stays_pure trivial r (suffix_of_cons hblanks)
    · exact stays_fail _ (d :: r) hblanks

private theorem stays_separator (close : Char) (cause : Cause) : Stays whole (fun _ => True) (separator close cause) :=
  (stays_accept _).then fun _ => stays_peek.then fun _ => stays_refuse _ _

private theorem stays_name : Stays whole (fun _ => True) name := by
  intro s hs
  have hblanks := (dropBlanks_suffix s).trans hs
  rw [name]
  split
  · rename_i hnil
    rw [hnil] at hblanks
    exact stays_fail _ [] hblanks
  · rename_i c r hcons
    rw [hcons] at hblanks
    split
    · exact stays_pure trivial _ ((List.dropWhile_suffix _).trans (suffix_of_cons hblanks))
    · exact stays_fail _ (c :: r) hblanks

private theorem stays_quotedName : Stays whole (fun _ => True) quotedName := by
  intro s hs
  have hrest : s.dropWhile inQuotes <:+ whole := (List.dropWhile_suffix _).trans hs
  rw [quotedName]
  split
  · rename_i r hclosed
    rw [hclosed] at hrest
    dsimp only
    split
    · exact stays_fail _ r (suffix_of_cons hrest)
    · exact stays_pure trivial r (suffix_of_cons hrest)
  · exact stays_fail _ _ hrest

private theorem stays_symbol : Stays whole (fun _ => True) symbol := by
  refine stays_blanks.then fun _ => stays_peek.then fun _ => ?_
  split
  · exact stays_advance.then fun _ => stays_quotedName
  · exact stays_name

private theorem stays_valueName : Stays whole (fun _ => True) valueName := (stays_expect _).then fun _ => stays_name

private theorem stays_number : Stays whole (fun _ => True) number := by
  intro s hs
  have hsign : (splitSign s).2 <:+ s := by
    unfold splitSign
    split
    · exact List.suffix_cons _ _
    · exact List.suffix_refl _
  have hbase : ∀ t, (splitBase t).2 <:+ t := by
    intro t
    unfold splitBase
    split
    · exact List.suffix_append ['0', 'x'] _
    · exact List.suffix_append ['0', 'X'] _
    · exact List.suffix_refl _
  have hrest := (List.dropWhile_suffix (isDigitIn (splitBase (splitSign s).2).1)).trans
    ((hbase _).trans (hsign.trans hs))
  simp only [number]
  split
  · exact stays_fail _ s hs
  · split
    · exact stays_pure trivial _ hrest
    · exact stays_fail _ _ hrest

/-! ### Instructions -/

/-- What an operand takes the address of, it mentions at a place with the property. -/
def AddressedAt (Q : List Char → Prop) (o : Operand Mention) : Prop := ∀ m ∈ o.addressed?, Q m.rest

/-- What an instruction mentions, it mentions at places with the property. -/
def MentionedAt (Q : List Char → Prop) (i : Inst Mention) : Prop :=
  (∀ m ∈ i.action.callee?, Q m.rest) ∧ ∀ o ∈ i.operands, AddressedAt Q o

private theorem mentionedAt_true (i : Inst Mention) : MentionedAt (fun _ => True) i :=
  ⟨fun _ _ => trivial, fun _ _ _ _ => trivial⟩

private theorem forall_mem_snoc {α : Type} {P : α → Prop} {as : List α} {a : α} (hs : ∀ x ∈ as, P x) (h : P a) :
    ∀ x ∈ as ++ [a], P x := by
  simpa [or_imp, forall_and] using ⟨hs, h⟩

private theorem stays_endsInst : Stays whole (fun _ => True) endsInst := by
  refine stays_inlineBlanks.then fun _ => stays_peek.then fun _ => ?_
  split <;> exact stays_pure trivial

private theorem stays_callFlagRound (flags : CallFlags) : Stays whole (fun _ => True) (callFlagRound flags) := by
  refine stays_endsInst.then fun _ => ?_
  split
  · exact stays_pure trivial
  · refine stays_name.then fun _ => ?_
    split
    · exact stays_pure trivial
    · exact stays_pure trivial
    · exact stays_fail _

private theorem stays_result : Stays whole (fun _ => True) result := by
  refine stays_blanks.then fun _ => stays_peek.then fun _ => ?_
  split
  · exact stays_valueName.then fun _ => (stays_expect _).then fun _ => stays_pure trivial
  · exact stays_pure trivial

section

variable (hQ : ∀ s, s <:+ whole → Q s)
include hQ

private theorem stays_mention : Stays whole (fun m => Q m.rest) mention :=
  stays_remaining.bind fun s hs => stays_symbol.then fun _ => stays_pure (hQ s hs)

private theorem stays_address : Stays whole (AddressedAt Q) address := by
  refine stays_peek.then fun _ => ?_
  split
  · exact stays_valueName.then fun _ => stays_pure (by rintro _ ⟨⟩)
  · refine (stays_mention hQ).bind fun m hm => stays_pure ?_
    rintro _ ⟨⟩
    exact hm

private theorem stays_operand : Stays whole (AddressedAt Q) operand := by
  refine stays_inlineBlanks.then fun _ => stays_peek.then fun _ => ?_
  split
  · exact stays_valueName.then fun _ => stays_pure (by rintro _ ⟨⟩)
  · exact stays_advance.then fun _ => stays_name.then fun _ => stays_pure (by rintro _ ⟨⟩)
  · exact stays_advance.then fun _ => stays_address hQ
  · split
    · exact stays_number.then fun _ => stays_pure (by rintro _ ⟨⟩)
    · exact stays_fail _
  · exact stays_fail _

private theorem stays_operandRound {ops : List (Operand Mention)} (hops : ∀ o ∈ ops, AddressedAt Q o) :
    Stays whole (fun more => ∀ ops ∈ more, ∀ o ∈ ops, AddressedAt Q o) (operandRound ops) := by
  refine stays_endsInst.then fun _ => ?_
  split
  · exact stays_pure (by simp)
  · refine (stays_operand hQ).bind fun op hop => stays_inlineBlanks.then fun _ => stays_peek.then fun _ => ?_
    have hmore : ∀ ops' ∈ some (ops ++ [op]), ∀ o ∈ ops', AddressedAt Q o := by
      rintro _ ⟨⟩
      exact forall_mem_snoc hops hop
    split
    · exact stays_advance.then fun _ => stays_pure hmore
    · refine stays_endsInst.then fun _ => ?_
      split
      · exact stays_pure hmore
      · exact stays_fail _

private theorem stays_callArgumentRound {ops : List (Operand Mention)} (hops : ∀ o ∈ ops, AddressedAt Q o) :
    Stays whole (fun more => ∀ ops ∈ more, ∀ o ∈ ops, AddressedAt Q o) (callArgumentRound ops) := by
  refine (stays_accept _).then fun _ => ?_
  split
  · exact stays_pure (by simp)
  · refine stays_blanks.then fun _ => (stays_operand hQ).bind fun op hop => (stays_separator _ _).then fun _ => ?_
    refine stays_pure ?_
    rintro _ ⟨⟩
    exact forall_mem_snoc hops hop

private theorem stays_operands : Stays whole (fun ops => ∀ o ∈ ops, AddressedAt Q o) operands :=
  stays_loop (fun _ hops => stays_operandRound hQ hops) (by simp)

private theorem stays_callArguments : Stays whole (fun ops => ∀ o ∈ ops, AddressedAt Q o) callArguments :=
  (stays_expect _).then fun _ => stays_loop (fun _ hops => stays_callArgumentRound hQ hops) (by simp)

private theorem stays_action (opcode : String) :
    Stays whole (fun x => (∀ m ∈ x.1.callee?, Q m.rest) ∧ ∀ o ∈ x.2, AddressedAt Q o) (action opcode) := by
  unfold action
  split
  · refine (stays_expect _).then fun _ => (stays_mention hQ).bind fun callee hcallee => ?_
    refine (stays_callArguments hQ).bind fun ops hops => (stays_loop_place stays_callFlagRound _).then fun flags => ?_
    refine stays_pure ⟨?_, hops⟩
    rintro _ ⟨⟩
    exact hcallee
  · refine stays_valueName.then fun _ => (stays_callArguments hQ).bind fun ops hops => ?_
    exact (stays_loop_place stays_callFlagRound _).then fun flags => stays_pure ⟨by rintro _ ⟨⟩, hops⟩
  · exact (stays_operands hQ).bind fun ops hops => stays_pure ⟨by rintro _ ⟨⟩, hops⟩
  · exact (stays_operands hQ).bind fun ops hops => stays_pure ⟨by rintro _ ⟨⟩, hops⟩

private theorem stays_inst : Stays whole (MentionedAt Q) inst := by
  refine stays_result.then fun _ => stays_name.then fun opcode => (stays_action hQ opcode).bind fun x hx => ?_
  obtain ⟨act, ops⟩ := x
  exact stays_pure hx

/-! ### Blocks, functions and programs -/

private theorem stays_instRound {is : List (Inst Mention)} (his : ∀ i ∈ is, MentionedAt Q i) :
    Stays whole (fun more => ∀ is ∈ more, ∀ i ∈ is, MentionedAt Q i) (instRound is) := by
  refine stays_blanks.then fun _ => stays_remaining.then fun _ => ?_
  split
  · exact stays_pure (by simp)
  · refine (stays_inst hQ).bind fun i hi => stays_pure ?_
    rintro _ ⟨⟩
    exact forall_mem_snoc his hi

private theorem stays_block : Stays whole (fun b => ∀ i ∈ b.insts, MentionedAt Q i) block := by
  refine stays_name.then fun _ => (stays_expect _).then fun _ => ?_
  exact (stays_loop (fun _ his => stays_instRound hQ his) (by simp)).bind fun is his => stays_pure his

private theorem stays_blockRound (owner : String) {bs : List (Block Mention)}
    (hbs : ∀ b ∈ bs, ∀ i ∈ b.insts, MentionedAt Q i) :
    Stays whole (fun more => ∀ bs ∈ more, ∀ b ∈ bs, ∀ i ∈ b.insts, MentionedAt Q i) (blockRound owner bs) := by
  refine (stays_accept _).then fun _ => ?_
  split
  · exact stays_pure (by simp)
  · refine stays_remaining.then fun _ => (stays_refuse _ _).then fun _ => (stays_block hQ).bind fun b hb => ?_
    refine (stays_refuse _ _).then fun _ => stays_pure ?_
    rintro _ ⟨⟩
    exact forall_mem_snoc hbs hb

end

private theorem stays_argumentRound (args : List String) : Stays whole (fun _ => True) (argumentRound args) := by
  refine (stays_accept _).then fun _ => ?_
  split
  · exact stays_pure trivial
  · exact stays_valueName.then fun _ => (stays_separator _ _).then fun _ => stays_pure trivial

private theorem stays_markerRound (ms : List Marker) : Stays whole (fun _ => True) (markerRound ms) := by
  refine (stays_accept _).then fun _ => ?_
  split
  · exact stays_pure trivial
  · refine stays_symbol.then fun _ => ?_
    split
    · exact stays_fail _
    · exact (stays_separator _ _).then fun _ => stays_pure trivial

private theorem stays_flagRound (words : FlagWords) : Stays whole (fun _ => True) (flagRound words) := by
  refine stays_blanks.then fun _ => stays_peek.then fun _ => ?_
  split
  · exact stays_pure trivial
  · exact stays_pure trivial
  · exact stays_pure trivial
  · refine stays_name.then fun _ => ?_
    split
    · exact stays_fail _
    · exact stays_pure trivial

private theorem stays_markers : Stays whole (fun _ => True) markers := by
  refine (stays_accept _).then fun opens => ?_
  cases opens with
  | true => exact stays_loop_place stays_markerRound _
  | false => exact stays_pure trivial

section

variable (hQ : ∀ s, s <:+ whole → Q s)
include hQ

private theorem stays_body (owner : String) :
    Stays whole (fun body => ∀ bs ∈ body, ∀ b ∈ bs, ∀ i ∈ b.insts, MentionedAt Q i) (body owner) := by
  refine (stays_accept _).then fun _ => ?_
  split
  · exact stays_pure (by simp)
  · refine (stays_expect _).then fun _ => ?_
    refine (stays_loop (fun _ hbs => stays_blockRound hQ owner hbs) (by simp)).bind fun bs hbs => stays_pure ?_
    rintro _ ⟨⟩
    exact hbs

private theorem stays_function (title : String) :
    Stays whole (fun f => ∀ i ∈ f.insts, MentionedAt Q i) (function title) := by
  refine ((stays_expect _).then fun _ => stays_loop_place stays_argumentRound _).then fun args => ?_
  refine stays_markers.then fun ms => (stays_loop_place stays_flagRound _).then fun words => ?_
  refine (stays_body hQ title).bind fun body hbody => stays_pure fun i hi => ?_
  obtain ⟨b, hb, hib⟩ := List.mem_flatMap.mp hi
  cases body with
  | none => cases hb
  | some bs => exact hbody bs rfl b hb i hib

private theorem stays_item (items : List (Item Mention)) :
    Stays whole (fun i => ∀ f ∈ i.function?, ∀ i ∈ f.insts, MentionedAt Q i) (item items) := by
  refine stays_symbol.then fun title => stays_blanks.then fun _ => stays_peek.then fun _ => ?_
  split
  · exact stays_symbol.then fun _ => (stays_refuse _ _).then fun _ => stays_pure (by rintro _ ⟨⟩)
  · refine (stays_refuse _ _).then fun _ => (stays_function hQ title).bind fun f hf => stays_pure ?_
    rintro _ ⟨⟩
    exact hf

private theorem stays_itemRound {items : List (Item Mention)}
    (hitems : ∀ i ∈ items, ∀ f ∈ i.function?, ∀ i ∈ f.insts, MentionedAt Q i) :
    Stays whole (fun more => ∀ items ∈ more, ∀ i ∈ items, ∀ f ∈ i.function?, ∀ i ∈ f.insts, MentionedAt Q i)
      (itemRound items) := by
  refine stays_blanks.then fun _ => stays_remaining.then fun _ => ?_
  split
  · exact stays_pure (by simp)
  · refine (stays_item hQ items).bind fun i hi => stays_pure ?_
    rintro _ ⟨⟩
    exact forall_mem_snoc hitems hi

private theorem stays_program : Stays whole (fun items => ∀ i ∈ insts items, MentionedAt Q i) program := by
  refine (stays_loop (fun _ hitems => stays_itemRound hQ hitems) (by simp)).weaken fun items hitems i hi => ?_
  obtain ⟨f, hf, hif⟩ := List.mem_flatMap.mp hi
  obtain ⟨it, hit, hfit⟩ := List.mem_filterMap.mp hf
  exact hitems it hit f hfit i hif

end

/-! ### Bytes and lines -/

/-- The place of a rest of a text, in bytes from the start of the text. -/
def placeOf (text : String) (rest : List Char) : String.Pos.Raw :=
  ⟨text.utf8ByteSize - (String.ofList rest).utf8ByteSize⟩

theorem isValid_placeOf {text : String} {rest : List Char} (h : rest <:+ text.toList) :
    (placeOf text rest).IsValid text := by
  obtain ⟨before, hbefore⟩ := h
  have htext : text = String.ofList before ++ String.ofList rest := by
    rw [← String.ofList_append, hbefore, String.ofList_toList]
  refine String.Pos.Raw.isValid_iff_exists_append.mpr ⟨String.ofList before, String.ofList rest, htext, ?_⟩
  rw [placeOf, htext, String.utf8ByteSize_append, Nat.add_sub_cancel]
  rfl

theorem lineOf_eq (before rest : List Char) : lineOf (before ++ rest) rest = 1 + before.count '\n' := by
  rw [lineOf, List.count_append, Nat.add_sub_cancel]

/-- A name that nothing defines is reported at a place where it was mentioned. -/
private theorem unresolved?_place {items : List (Item Mention)} (hitems : ∀ i ∈ insts items, MentionedAt Q i)
    {halt : Halt Char Cause} (h : unresolved? items = some halt) : Q halt.rest := by
  unfold unresolved? at h
  dsimp only at h
  split at h
  · rename_i m hfind
    cases h
    obtain ⟨i, hi, hm⟩ := List.mem_filterMap.mp (List.mem_of_find?_eq_some hfind)
    exact (hitems i hi).1 m hm
  · obtain ⟨m, hfind, rfl⟩ := Option.map_eq_some_iff.mp h
    obtain ⟨i, hi, hmem⟩ := List.mem_flatMap.mp (List.mem_of_find?_eq_some hfind)
    obtain ⟨o, ho, hm⟩ := List.mem_filterMap.mp hmem
    exact (hitems i hi).2 o ho m hm

/-- A text is read, or refused at one of its places. -/
private theorem parse_ok_or_halt (text : String) : (∃ p, Program.parse text = .ok p) ∨
    ∃ halt, Program.parse text = .error (faultOf text.toList halt) ∧ halt.rest <:+ text.toList := by
  have hstays : Stays text.toList (fun items => ∀ i ∈ insts items, MentionedAt (· <:+ text.toList) i) program :=
    stays_program fun _ hs => hs
  have hprogram := hstays text.toList (List.suffix_refl _)
  unfold Program.parse
  dsimp only
  split
  · rename_i halt hhalt
    exact .inr ⟨halt, rfl, hprogram.2 halt hhalt⟩
  · rename_i items rest hitems
    split
    · rename_i halt hhalt
      exact .inr ⟨halt, rfl, unresolved?_place (hprogram.1 items rest hitems).2 hhalt⟩
    · exact .inl ⟨_, rfl⟩

/-- Every text is read or refused: each loop of the grammar takes a character with every round that goes on, so that it
is over after as many rounds as there are characters, and one; places are boundaries of characters; and a text is
refused at one of its places, on the line that the newlines before it give. -/
theorem parse_terminates (text : String) :
    (Advances itemRound ∧ Advances argumentRound ∧ Advances markerRound ∧ Advances flagRound ∧
      (∀ owner, Advances (blockRound owner)) ∧ Advances instRound ∧ Advances callArgumentRound ∧
      Advances callFlagRound ∧ Advances operandRound) ∧
    (∀ rest, rest <:+ text.toList → (placeOf text rest).IsValid text) ∧
    ((∃ p, Program.parse text = .ok p) ∨
      ∃ halt before, Program.parse text = .error (faultOf text.toList halt) ∧ before ++ halt.rest = text.toList ∧
        (faultOf text.toList halt).line = 1 + before.count '\n' ∧ 1 ≤ (faultOf text.toList halt).line ∧
        (faultOf text.toList halt).line ≤ 1 + text.toList.count '\n') := by
  -- where no mention matters, every place has the property
  have hall : ∀ {whole : List Char} (s : List Char), s <:+ whole → (fun _ => True) s := fun _ _ => trivial
  refine ⟨⟨?_, ?_, ?_, ?_, fun owner => ?_, ?_, ?_, ?_, ?_⟩, fun _ => isValid_placeOf, ?_⟩
  · exact advances_of_stays progresses_itemRound fun _ items =>
      (stays_itemRound hall fun _ _ _ _ i _ => mentionedAt_true i).weaken fun _ _ => trivial
  · exact advances_of_stays progresses_argumentRound fun _ => stays_argumentRound
  · exact advances_of_stays progresses_markerRound fun _ => stays_markerRound
  · exact advances_of_stays progresses_flagRound fun _ => stays_flagRound
  · exact advances_of_stays (progresses_blockRound owner) fun _ bs =>
      (stays_blockRound hall owner fun _ _ i _ => mentionedAt_true i).weaken fun _ _ => trivial
  · exact advances_of_stays progresses_instRound fun _ is =>
      (stays_instRound hall fun i _ => mentionedAt_true i).weaken fun _ _ => trivial
  · exact advances_of_stays progresses_callArgumentRound fun _ ops =>
      (stays_callArgumentRound hall fun _ _ _ _ => trivial).weaken fun _ _ => trivial
  · exact advances_of_stays progresses_callFlagRound fun _ => stays_callFlagRound
  · exact advances_of_stays progresses_operandRound fun _ ops =>
      (stays_operandRound hall fun _ _ _ _ => trivial).weaken fun _ _ => trivial
  · rcases parse_ok_or_halt text with hok | ⟨halt, herror, before, hbefore⟩
    · exact .inl hok
    · have hline : (faultOf text.toList halt).line = 1 + before.count '\n' := by
        rw [← hbefore]
        exact lineOf_eq before halt.rest
      have hcount : text.toList.count '\n' = before.count '\n' + halt.rest.count '\n' := by
        rw [← hbefore, List.count_append]
      exact .inr ⟨halt, before, herror, hbefore, hline, by omega, by omega⟩

/-- Letters of two and of four bytes, and a call of a function that is nowhere defined, found when all was read. -/
def unresolvedText : String := "é() \x7b ; 𝒜\nin: call @\n \"𝒜\"(%ä)\nret \x7d\nglobal g"

theorem parse_terminates_unresolvedText :
    Program.parse unresolvedText = .error ⟨2, .unknownFunction "𝒜"⟩ ∧
    (∃ before rest, before ++ rest = unresolvedText.toList ∧ before.count '\n' = 1) ∧
    (placeOf unresolvedText "\nret \x7d\nglobal g".toList).IsValid unresolvedText := by
  have hparse : Program.parse unresolvedText = .error ⟨2, .unknownFunction "𝒜"⟩ := by decide +kernel
  obtain ⟨-, hplace, ⟨p, hok⟩ | ⟨halt, before, herror, hbefore, hline, -⟩⟩ := parse_terminates unresolvedText
  · rw [hparse] at hok
    cases hok
  · rw [hparse] at herror
    have hfault := congrArg Fault.line (Except.error.inj herror)
    rw [hline] at hfault
    refine ⟨hparse, ⟨before, halt.rest, hbefore, ?_⟩, hplace _ (by decide +kernel)⟩
    have : 2 = 1 + before.count '\n' := hfault
    omega

end Source

end Accelerator
