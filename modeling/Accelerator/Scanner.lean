/-!
# Scanners

A scanner reads a value from the front of a list of tokens and gives the tokens it left.  When it stops, it says
why and hands back the tokens that were not read yet, so the position of a fault is the length of the input less
the length of that rest.  Program text is scanned character by character, summary streams byte by byte.

A scanner *keeps* its input when it never gives more than it got, and *consumes* when it always takes at least one
token.  `loop` repeats a round that takes a token whenever it goes on; this is the only loop of the library that
reads, and it ends because the input gets shorter.
-/

namespace Accelerator

/-- Where and why a scan stopped: the tokens not yet read, and the cause. -/
structure Halt (τ ε : Type) where
  rest : List τ
  cause : ε
deriving Repr, DecidableEq

/-- Reads a value of type `α` from the front of a list of `τ`, or stops with a cause of type `ε`. -/
def Scanner (τ ε α : Type) : Type := List τ → Except (Halt τ ε) (α × List τ)

namespace Scanner

variable {τ ε α β σ : Type}

instance : Monad (Scanner τ ε) where
  pure a := fun s => .ok (a, s)
  bind p f := fun s =>
    match p s with
    | .ok (a, r) => f a r
    | .error e => .error e

/-- Stops here. -/
def fail (cause : ε) : Scanner τ ε α := fun s => .error ⟨s, cause⟩

/-- Stops here if the condition holds. -/
def refuse (condition : Bool) (cause : ε) : Scanner τ ε Unit := if condition then fail cause else pure ()

/-- The tokens not yet read. -/
def remaining : Scanner τ ε (List τ) := fun s => .ok (s, s)

/-- The next token, which stays in the input. -/
def peek : Scanner τ ε (Option τ) := fun s => .ok (s.head?, s)

/-- Leaves out the next token. -/
def advance : Scanner τ ε Unit := fun s => .ok ((), s.tail)

/-- Replaces the input by a later part of it. -/
def skip (drop : List τ → List τ) : Scanner τ ε Unit := fun s => .ok ((), drop s)

theorem pure_apply (a : α) (s : List τ) : (pure a : Scanner τ ε α) s = .ok (a, s) := rfl

theorem bind_apply (p : Scanner τ ε α) (f : α → Scanner τ ε β) (s : List τ) :
    (p >>= f) s = match p s with | .ok (a, r) => f a r | .error e => .error e := rfl

theorem bind_eq_ok {p : Scanner τ ε α} {f : α → Scanner τ ε β} {s : List τ} {x : β × List τ} :
    (p >>= f) s = .ok x ↔ ∃ a r, p s = .ok (a, r) ∧ f a r = .ok x := by
  rw [bind_apply]
  cases h : p s with
  | error e => simp
  | ok y =>
    obtain ⟨a, r⟩ := y
    constructor
    · exact fun hf => ⟨a, r, rfl, hf⟩
    · rintro ⟨a', r', e, hf⟩
      cases e
      exact hf

/-! ### How much a scanner takes -/

/-- Never leaves more than it was given. -/
def Keeps (p : Scanner τ ε α) : Prop :=
  ∀ s a r, p s = .ok (a, r) → r.length ≤ s.length

/-- Takes at least one token whenever it gives a value. -/
def Consumes (p : Scanner τ ε α) : Prop :=
  ∀ s a r, p s = .ok (a, r) → r.length < s.length

/-- A round of a loop: `none` ends the loop, and to go on at least one token has to be taken. -/
def Progresses (p : Scanner τ ε (Option σ)) : Prop :=
  ∀ s o r, p s = .ok (o, r) → r.length ≤ s.length ∧ (o.isSome → r.length < s.length)

theorem Consumes.keeps {p : Scanner τ ε α} (h : Consumes p) : Keeps p :=
  fun s a r e => Nat.le_of_lt (h s a r e)

theorem Consumes.progresses {p : Scanner τ ε (Option σ)} (h : Consumes p) : Progresses p :=
  fun s o r e => ⟨Nat.le_of_lt (h s o r e), fun _ => h s o r e⟩

theorem keeps_pure (a : α) : Keeps (pure a : Scanner τ ε α) := by
  intro s b r h
  rw [pure_apply] at h
  cases h
  exact Nat.le_refl _

theorem progresses_none : Progresses (pure none : Scanner τ ε (Option σ)) := by
  intro s o r h
  rw [pure_apply] at h
  cases h
  simp

theorem consumes_fail (cause : ε) : Consumes (fail cause : Scanner τ ε α) := by
  intro s a r h
  simp [fail] at h

theorem keeps_refuse (condition : Bool) (cause : ε) : Keeps (refuse condition cause : Scanner τ ε Unit) := by
  unfold refuse
  split
  · exact (consumes_fail _).keeps
  · exact keeps_pure _

theorem keeps_remaining : Keeps (remaining : Scanner τ ε (List τ)) := by
  intro s a r h
  simp only [remaining, Except.ok.injEq, Prod.mk.injEq] at h
  exact Nat.le_of_eq (congrArg List.length h.2.symm)

theorem keeps_peek : Keeps (peek : Scanner τ ε (Option τ)) := by
  intro s a r h
  simp only [peek, Except.ok.injEq, Prod.mk.injEq] at h
  exact Nat.le_of_eq (congrArg List.length h.2.symm)

theorem keeps_advance : Keeps (advance : Scanner τ ε Unit) := by
  intro s a r h
  simp only [advance, Except.ok.injEq, Prod.mk.injEq] at h
  rw [← h.2, List.length_tail]
  omega

theorem keeps_skip {drop : List τ → List τ} (hd : ∀ s, (drop s).length ≤ s.length) :
    Keeps (skip drop : Scanner τ ε Unit) := by
  intro s a r h
  simp only [skip, Except.ok.injEq, Prod.mk.injEq] at h
  rw [← h.2]
  exact hd s

theorem Keeps.bind {p : Scanner τ ε α} {f : α → Scanner τ ε β} (hp : Keeps p) (hf : ∀ a, Keeps (f a)) :
    Keeps (p >>= f) := by
  intro s b r h
  obtain ⟨a, m, h₁, h₂⟩ := bind_eq_ok.1 h
  have := hp s a m h₁
  have := hf a m b r h₂
  omega

theorem Consumes.bind {p : Scanner τ ε α} {f : α → Scanner τ ε β} (hp : Consumes p) (hf : ∀ a, Keeps (f a)) :
    Consumes (p >>= f) := by
  intro s b r h
  obtain ⟨a, m, h₁, h₂⟩ := bind_eq_ok.1 h
  have := hp s a m h₁
  have := hf a m b r h₂
  omega

theorem Keeps.bind_consumes {p : Scanner τ ε α} {f : α → Scanner τ ε β} (hp : Keeps p)
    (hf : ∀ a, Consumes (f a)) : Consumes (p >>= f) := by
  intro s b r h
  obtain ⟨a, m, h₁, h₂⟩ := bind_eq_ok.1 h
  have := hp s a m h₁
  have := hf a m b r h₂
  omega

theorem Keeps.bind_progresses {p : Scanner τ ε α} {f : α → Scanner τ ε (Option σ)} (hp : Keeps p)
    (hf : ∀ a, Progresses (f a)) : Progresses (p >>= f) := by
  intro s b r h
  obtain ⟨a, m, h₁, h₂⟩ := bind_eq_ok.1 h
  have := hp s a m h₁
  have := hf a m b r h₂
  grind

/-! ### Repetition -/

/-- Repeats a round until it ends the loop; the state of the last round that went on is the result. -/
def loop (round : σ → Scanner τ ε (Option σ)) (h : ∀ a, Progresses (round a)) (a : σ) (s : List τ) :
    Except (Halt τ ε) (σ × List τ) :=
  match hs : round a s with
  | .error e => .error e
  | .ok (none, r) => .ok (a, r)
  | .ok (some b, r) =>
    have : r.length < s.length := (h a s _ _ hs).2 rfl
    loop round h b r
termination_by s.length

theorem keeps_loop (round : σ → Scanner τ ε (Option σ)) (h : ∀ a, Progresses (round a)) (a : σ) :
    Keeps (loop round h a : Scanner τ ε σ) := by
  intro s b r hl
  fun_induction loop round h a s with
  | case1 => simp at hl
  | case2 c t r' hs =>
    cases hl
    exact (h _ _ _ _ hs).1
  | case3 c t d r' hs _ ih =>
    have := (h _ _ _ _ hs).1
    have := ih hl
    omega

end Scanner

end Accelerator
