import Accelerator.Proofs.Echo
import Accelerator.Proofs.Rejection

/-!
# A pass that goes on from a stream

The summaries of a pass that was run have entries that no stream carries, since a function that was only looked at has
one too.  But runs from workspaces that agree on what is decided about every function (`Alike`) end in such, and report
the same (`Alike.run`).  A stream that is accepted brings back all that is decided, because nothing is decided about a
function that does not take part (`Tacit`).
-/

namespace Accelerator

namespace Workspace

variable {w v : Workspace} {gone made : List Node} {n : Node}

/-! ### Workspaces that are alike -/

/-- The workspace `v` differs from `w` in which functions were looked at, if at all. -/
structure Alike (w v : Workspace) : Prop extends Same w v where
  journal : v.journal = w.journal

/-- The workspaces are alike, and the results are the same. -/
structure Agree {α : Type} (a b : Workspace × α) : Prop where
  alike : Alike a.1 b.1
  result : b.2 = a.2

private theorem alike_iff_near : Alike w v ↔ Near (fun _ => False) w v := by
  constructor
  · intro h
    exact ⟨h.program, h.journal, fun m => .inl (h.summaries m)⟩
  · intro h
    exact ⟨⟨h.program, fun m => (h.summaries m).resolve_right fun hidle => hidle.1⟩, h.journal⟩

/-- Runs from workspaces that are alike end in such, and give the same report. -/
theorem Alike.run (h : Alike w v) (options : Options) : Agree (w.run options) (v.run options) := by
  obtain ⟨hrun, hresult⟩ := (alike_iff_near.mp h).run (fun _ hidle => hidle.elim) options
  exact ⟨alike_iff_near.mpr hrun, hresult⟩

/-! ### What streams do not carry -/

/-- Nothing is decided about a function that does not take part. -/
def Tacit (s : Summaries) : Prop := ∀ n, (s.of n).isParticipant = false → s.of n = {}

private theorem tacit_empty : Tacit ∅ := fun n _ => Summaries.of_empty n

private theorem Move.tacit (hm : Move w gone made v) (h : Tacit w.summaries) : Tacit v.summaries := by
  intro n hn
  have hdecided := hm.decided n
  generalize v.summaries.of n = s at hdecided hn ⊢
  cases hdecided with
  | same => exact h n hn
  | removed => rfl
  | released hb =>
    rw [h n hn] at hb
    cases hb
  | kernel | function => cases hn
  | host _ _ hkind => simp [Summary.isParticipant, hkind] at hn
  | twin _ hkind => simp [Summary.isParticipant, hkind] at hn

private theorem Moves.tacit (hm : Moves w gone made v) (h : Tacit w.summaries) : Tacit v.summaries := by
  induction hm with
  | refl => exact h
  | step _ hmove ih => exact hmove.tacit ih

end Workspace

namespace Pass

variable {text : String} {options : Options} {start p : Program} {reports : List Report} {pass : Pass}
variable {bytes : List UInt8} {count : Nat}

/-- A fresh pass that accepts the stream of a pass has the same decisions about every function, and the program stays as
it is. -/
private theorem History.readStream_eq (hparse : Program.parse text = .ok start)
    (hist : History options start reports pass p) (hwrite : pass.stream? p (Roster.ofProgram p) = some bytes)
    (hread : (({ options } : Pass).readStream p (Roster.ofProgram p) bytes).2 = .ok count) :
    ∃ t : Summaries, (∀ n, t.of n = pass.summariesOrEmpty.of n) ∧
      (({ options } : Pass).readStream p (Roster.ofProgram p) bytes).1 = ({ options, summaries := some t }, p) := by
  have hpaired := hist.paired (Program.coherent_parse hparse) {}
  have hcoherent : p.Coherent := hpaired.coherent
  have htacit : Workspace.Tacit pass.summariesOrEmpty := (hist.moves {} {}).tacit Workspace.tacit_empty
  obtain ⟨s, hs, rfl⟩ := Option.map_eq_some_iff.mp hwrite
  have hdecided : pass.summariesOrEmpty = s := by rw [summariesOrEmpty, hs, Option.getD_some]
  have hdead : ∀ n, n ∉ p.live → s.of n = {} := hdecided ▸ hpaired.dead
  have hlive : ∀ n ∈ (Roster.ofProgram p).nodes, (s.of n).isParticipant = true → ∀ b, (s.of n).bound = some b →
      b ∈ p.live := by
    intro n _ _ b hb
    rw [← hdecided] at hb
    exact (hpaired.pair n b hb).twin_live
  rw [readStream_fresh] at hread ⊢
  rw [hdecided] at htacit ⊢
  cases hresult : (Stream.read (Roster.ofProgram p) (p, ∅) (Stream.write p s (Roster.ofProgram p))).2 with
  | error fault =>
    rw [hresult] at hread
    cases hread
  | ok count =>
    rw [Stream.read_write_of_ok hcoherent hlive hresult]
    refine ⟨_, fun n => ?_, rfl⟩
    rw [Stream.of_entered, nodes_ofProgram, Summaries.of_empty]
    -- what the stream does not carry is the empty summary
    by_cases hn : n ∈ p.live
    · cases hpart : (s.of n).isParticipant with
      | true => simp [hn]
      | false => simp [htacit n hpart]
    · simp [hn, hdead n hn]

/-- A fresh pass that accepts the stream of a pass goes on like that pass: the next runs of both on the program give the
same report, program and journal, and the same text for the summaries. -/
theorem execute_restored (hparse : Program.parse text = .ok start) (hist : History options start reports pass p)
    (hwrite : pass.stream? p (Roster.ofProgram p) = some bytes)
    (hread : (({ options } : Pass).readStream p (Roster.ofProgram p) bytes).2 = .ok count) (j : Journal) :
    let restored := (({ options } : Pass).readStream p (Roster.ofProgram p) bytes).1
    let next := pass.execute p j
    let next' := restored.1.execute p j
    restored.2 = p ∧ next'.2 = next.2 ∧ next'.1.2.1 = next.1.2.1 ∧ next'.1.2.2 = next.1.2.2 ∧
      next'.1.1.dump next'.1.2.1 = next.1.1.dump next.1.2.1 := by
  obtain ⟨t, ht, hrestored⟩ := hist.readStream_eq hparse hwrite hread
  have halike : Workspace.Alike (pass.workspace p j) (Pass.workspace { options, summaries := some t } p j) :=
    ⟨⟨rfl, ht⟩, rfl⟩
  have hrun := halike.run options
  rw [hrestored]
  dsimp only
  rw [execute_eq, execute_eq, hist.options_eq]
  generalize (pass.workspace p j).run options = a at hrun ⊢
  generalize (Pass.workspace { options, summaries := some t } p j).run options = b at hrun ⊢
  refine ⟨rfl, hrun.result, hrun.alike.program, hrun.alike.journal, ?_⟩
  show b.1.summaries.render b.1.program = a.1.summaries.render a.1.program
  rw [hrun.alike.program]
  exact Summaries.render_congr fun n _ => .inl (hrun.alike.summaries n)

/-- A function, one that calls it, and a kernel that cannot be offloaded because it calls through a value. -/
def resumeItems : List (Source.Item String) :=
  [.function ⟨"g", [], [], {}, some [⟨"entry", [⟨none, .other "ret", []⟩]⟩]⟩,
   .function ⟨"f", [], [], {}, some [⟨"entry",
      [⟨none, .call "k" {}, []⟩, ⟨none, .call "g" {}, []⟩, ⟨none, .other "ret", []⟩]⟩]⟩,
   .function ⟨"k", ["p"], [.kernel], {}, some [⟨"entry",
      [⟨none, .callIndirect "p" {}, []⟩, ⟨none, .other "ret", []⟩]⟩]⟩]

def resumeText : String :=
  "g() \x7b entry: ret \x7d\nf() \x7b\nentry: call @k()\ncall @g()\nret\n\x7d\n" ++
  "k(%p) [hsa_kernel] \x7b\nentry: call_indirect %p()\nret\n\x7d"

private theorem parse_resumeText : Program.parse resumeText = .ok (Source.layOut resumeItems) := by decide +kernel

/-- A run that clones the first function and removes the kernel. -/
def resumeRun : (Pass × Program × Journal) × Report :=
  ({ options := { parallel := true } } : Pass).execute (Source.layOut resumeItems) {}

private theorem history_resumeRun :
    History { parallel := true } (Source.layOut resumeItems) [resumeRun.2] resumeRun.1.1 resumeRun.1.2.1 := by
  have h₀ : History { parallel := true } (Source.layOut resumeItems) [] _ _ := .fresh
  have h := h₀.execute {}
  rwa [List.nil_append, ← resumeRun] at h

/-- The stream of the pass after the run. -/
def resumeStream : List UInt8 := [2, 0, 10, 7, 103, 46, 104, 115, 97, 46, 48, 2, 6, 0]

/-- The next run clones the other function, which was looked at before but is not in the stream, and sends the call of
its clone to the first clone. -/
theorem execute_restored_resumeText :
    let restored := ({ options := { parallel := true } } : Pass).readStream resumeRun.1.2.1
      (Roster.ofProgram resumeRun.1.2.1) resumeStream
    let next := resumeRun.1.1.execute resumeRun.1.2.1 {}
    let next' := restored.1.1.execute resumeRun.1.2.1 {}
    resumeRun.1.1.stream? resumeRun.1.2.1 (Roster.ofProgram resumeRun.1.2.1) = some resumeStream ∧
    restored.2 = .ok 2 ∧ next.2 = ⟨[], [4], 1⟩ ∧
    restored.1.2 = resumeRun.1.2.1 ∧ next'.2 = next.2 ∧ next'.1.2.1 = next.1.2.1 ∧ next'.1.2.2 = next.1.2.2 ∧
      next'.1.1.dump next'.1.2.1 = next.1.1.dump next.1.2.1 := by
  have hwrite : resumeRun.1.1.stream? resumeRun.1.2.1 (Roster.ofProgram resumeRun.1.2.1) = some resumeStream := by
    decide +kernel
  have hread : (({ options := { parallel := true } } : Pass).readStream resumeRun.1.2.1
      (Roster.ofProgram resumeRun.1.2.1) resumeStream).2 = .ok 2 := by decide +kernel
  exact ⟨hwrite, hread, by decide +kernel, execute_restored parse_resumeText history_resumeRun hwrite hread {}⟩

end Pass

end Accelerator
