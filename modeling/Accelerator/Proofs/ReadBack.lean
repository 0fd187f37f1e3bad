import Accelerator.Proofs.Accepted
import Accelerator.Proofs.Immediates

/-!
# Programs that were written

The text of a program is read back as that program (`Source.yields_program`), whatever names it uses: between quotes
nothing ends a name, a label is told from an instruction by the colon after it, and the word `global` from a function of
that name by its quotes.  Each reader of the grammar gets a lemma that says where it stands afterwards.  A line is read
up to its end, and the next round skips the end of the line, so the lemmas about rounds begin and end there.
-/

namespace Accelerator

namespace Source

open Scanner

/-! ### Operands -/

/-- An operand begins with a character that neither is a blank nor ends anything. -/
private theorem exists_cons_operandText {o : Operand String} (ho : isWritableOperand o = true) :
    ∃ c r, (operandText o).toList = c :: r ∧ Text.isBlank c = false ∧ c ∉ [')', ';', '\x7d', ':'] := by
  cases o with
  | value name => exact ⟨'%', name.toList, by simp [operandText], by decide, by decide⟩
  | block label => exact ⟨'^', label.toList, by simp [operandText], by decide, by decide⟩
  | address title => exact ⟨'&', (quoted title).toList, by simp [operandText], by decide, by decide⟩
  | localAddress name => exact ⟨'&', '%' :: name.toList, by simp [operandText], by decide, by decide⟩
  | immediate n =>
    obtain ⟨c, r, htext, rfl | hdigit⟩ := exists_cons_toString n
    · exact ⟨'-', r, htext, by decide, by decide⟩
    · exact ⟨c, r, htext, (digit_facts hdigit).2.1, (digit_facts hdigit).2.2.2⟩

private theorem yields_mention {title : String} (h : isTitle title = true) (rest : List Char) :
    Yields mention ((quoted title).toList ++ rest) (·.name = title) rest := by
  refine .step rfl (.step (symbol_quoted h rest) (yields_pure rfl))

private theorem yields_operand {o : Operand String} (ho : isWritableOperand o = true) {rest : List Char}
    (hr : Stops rest) : Yields operand ((operandText o).toList ++ rest) (·.map (·.name) = o) rest := by
  obtain ⟨c, r, htext, hblank, -⟩ := exists_cons_operandText ho
  have hskip : inlineBlanks ((operandText o).toList ++ rest) = .ok ((), (operandText o).toList ++ rest) := by
    rw [htext, List.cons_append, inlineBlanks, skip, dropInline_cons hblank]
  cases o with
  | value name =>
    refine .step hskip (.step rfl ?_)
    simp only [operandText, String.toList_append, List.append_assoc]
    exact .step (valueName_word ho hr) (yields_pure rfl)
  | block label =>
    refine .step hskip (.step rfl ?_)
    simp only [operandText, String.toList_append, List.append_assoc]
    exact .step rfl (.step (name_word ho hr) (yields_pure rfl))
  | address title =>
    refine .step hskip (.step rfl ?_)
    have hread := yields_mention ho rest
    simp only [operandText, toList_quoted, String.toList_append, List.append_assoc, List.cons_append] at hread ⊢
    refine .step rfl (.step rfl (hread.bind fun m hm => yields_pure ?_))
    simp [Operand.map, hm]
  | localAddress name =>
    refine .step hskip (.step rfl ?_)
    simp only [operandText, String.toList_append, List.append_assoc]
    exact .step rfl (.step rfl (.step (valueName_word ho hr) (yields_pure rfl)))
  | immediate n =>
    have hn : n.natAbs ≤ maxMagnitude := by simpa [isWritableOperand] using ho
    obtain ⟨c, r, htext, hc⟩ := exists_cons_toString n
    have hstart : (toString n).toList ++ rest = c :: (r ++ rest) := by rw [htext, List.cons_append]
    have hread := Spells.decimal.number_eq_ok_iff.mpr ⟨hn, hr.ends (toString n).toList⟩
    exact ⟨.immediate n, (operand_eq_ok_iff ⟨c, r ++ rest, hstart, hc⟩).mpr hread, rfl⟩

/-! ### Lists -/

/-- What stands after an entry of a list, and what is left once the separator is taken. -/
inductive Separates (stop : List Char) : List Char → List Char → Prop
  | comma (r : List Char) : Separates stop (',' :: r) r
  | last : Separates stop stop stop

private theorem Separates.stops {stop next r : List Char} (h : Separates stop next r) (hs : Stops stop) :
    Stops next := by
  cases h with
  | comma => exact stops_mark (by decide) r
  | last => exact hs

private theorem Separates.separator {close : Char} (hblank : Text.isBlank close = false) (hc : close ≠ ';')
    (hne : close ≠ ',') {rest next r : List Char} (h : Separates (close :: rest) next r) (cause : Cause) :
    separator close cause next = .ok ((), r) := by
  cases h with
  | comma => exact bind_eq_ok.mpr ⟨true, r, accept_self (by decide) (by decide) r, rfl⟩
  | last =>
    refine bind_eq_ok.mpr ⟨false, close :: rest, accept_other hblank hc hne rest, ?_⟩
    simp [bind_apply, peek, refuse, pure_apply]

/-- What stands before the entries of a list from the second one on. -/
def listTail (stop : List Char) (texts : List String) : List Char :=
  match texts with
  | [] => stop
  | text :: texts => ' ' :: ((listed (text :: texts)).toList ++ stop)

private theorem separates_listTail (stop : List Char) (text : String) (texts : List String) :
    ∃ next, (listed (text :: texts)).toList ++ stop = text.toList ++ next ∧
      Separates stop next (listTail stop texts) := by
  cases texts with
  | nil => exact ⟨stop, by simp [listed], .last⟩
  | cons text' texts =>
    refine ⟨_, ?_, .comma _⟩
    simp [listed, listTail]

/-- A loop over the entries of a list: a round reads an entry with its separator, does not mind a blank before it, and
ends at the closing text. -/
private theorem yields_loop_listed {σ β : Type} {round : σ → Reader (Option σ)} (hr : ∀ a, Progresses (round a))
    {text : β → String} {I : List β → σ → Prop} {stop left : List Char} {all : List β}
    (hclose : ∀ a, round a stop = .ok (none, left)) (hblank : ∀ a s, round a (' ' :: s) = round a s)
    (hentry : ∀ done x todo, all = done ++ x :: todo → ∀ a, I done a → ∀ next r, Separates stop next r →
      Yields (round a) ((text x).toList ++ next) (fun o => ∃ b, o = some b ∧ I (done ++ [x]) b) r)
    {a : σ} (ha : I [] a) : Yields (loop round hr a) ((listed (all.map text)).toList ++ stop) (I all) left := by
  have hloop : Yields (loop round hr a) (listTail stop (all.map text)) (I all) left := by
    refine yields_loop (fun todo => listTail stop (todo.map text)) hclose ?_ ha
    intro done x todo hall b hb
    obtain ⟨next, htext, hsep⟩ := separates_listTail stop (text x) (todo.map text)
    obtain ⟨o, ho, hI⟩ := hentry done x todo hall b hb next _ hsep
    refine ⟨o, ?_, hI⟩
    rw [List.map_cons, listTail, hblank, htext]
    exact ho
  obtain ⟨b, hb, hI⟩ := hloop
  refine ⟨b, ?_, hI⟩
  cases hall : all.map text with
  | nil =>
    rw [hall] at hb
    exact hb
  | cons text' texts =>
    rw [hall] at hb
    exact (loop_congr (hblank a _)).symm.trans hb

/-! ### Arguments, markers and flag words -/

/-- In a list without repetitions an entry is not among those before it. -/
private theorem not_mem_of_nodup_append_cons {α : Type} {done todo : List α} {x : α} (h : (done ++ x :: todo).Nodup) :
    x ∉ done := by
  intro hx
  exact List.disjoint_of_nodup_append h hx List.mem_cons_self

private theorem arguments_listed {args : List String} (h : ∀ arg ∈ args, isName arg = true) (rest : List Char) :
    arguments ('(' :: ((listed (args.map ("%" ++ ·))).toList ++ ')' :: rest)) = .ok (args, rest) := by
  have hentry : ∀ done x todo, args = done ++ x :: todo → ∀ a, a = done → ∀ next r, Separates (')' :: rest) next r →
      Yields (argumentRound a) (("%" ++ x).toList ++ next) (fun o => ∃ b, o = some b ∧ b = done ++ [x]) r := by
    rintro _ x todo hargs done rfl next r hsep
    have hx : isName x = true := h x (by simp [hargs])
    have htext : ("%" ++ x).toList ++ next = '%' :: (x.toList ++ next) := by simp
    rw [htext]
    refine .step (accept_other (by decide) (by decide) (by decide) _) ?_
    refine .step (valueName_word hx (hsep.stops (stops_mark (by decide) rest))) ?_
    exact .step (hsep.separator (by decide) (by decide) (by decide) _) (yields_pure ⟨_, rfl, rfl⟩)
  have hclose : ∀ a, argumentRound a (')' :: rest) = .ok (none, rest) := fun _ => rfl
  obtain ⟨_, hloop, rfl⟩ := yields_loop_listed progresses_argumentRound hclose (fun _ _ => rfl) hentry rfl
  exact bind_eq_ok.mpr ⟨(), _, rfl, hloop⟩

private theorem ofName?_name (m : Marker) : Marker.ofName? m.name = some m := by cases m <;> rfl

private theorem isTitle_name (m : Marker) : isTitle m.name = true := by cases m <;> rfl

private theorem markers_listed {ms : List Marker} (h : ms.Nodup) (rest : List Char) :
    markers (' ' :: '[' :: ((listed (ms.map fun m => quoted m.name)).toList ++ ']' :: rest)) = .ok (ms, rest) := by
  have hentry : ∀ done x todo, ms = done ++ x :: todo → ∀ a, a = done → ∀ next r, Separates (']' :: rest) next r →
      Yields (markerRound a) ((quoted x.name).toList ++ next) (fun o => ∃ b, o = some b ∧ b = done ++ [x]) r := by
    rintro _ x todo hms done rfl next r hsep
    have hnew : x ∉ done := not_mem_of_nodup_append_cons (hms ▸ h)
    have hquote : accept ']' ((quoted x.name).toList ++ next) = .ok (false, (quoted x.name).toList ++ next) := by
      rw [toList_quoted]
      exact accept_other (by decide) (by decide) (by decide) _
    refine .step hquote (.step (symbol_quoted (isTitle_name x) next) ?_)
    rw [ofName?_name]
    refine .step (hsep.separator (by decide) (by decide) (by decide) _) (yields_pure ⟨_, rfl, ?_⟩)
    rw [if_neg hnew]
  have hclose : ∀ a, markerRound a (']' :: rest) = .ok (none, rest) := fun _ => rfl
  obtain ⟨_, hloop, rfl⟩ := yields_loop_listed progresses_markerRound hclose (fun _ _ => rfl) hentry rfl
  exact bind_eq_ok.mpr ⟨true, _, rfl, hloop⟩

/-- The flag words of a function, written one after the other, give the same flags. -/
private theorem foldlM_add?_list (w : FlagWords) : w.list.foldlM FlagWords.add? {} = some w := by
  obtain ⟨a, b, c, d, e, f, g⟩ := w
  revert a b c d e f g
  decide

private theorem isName_of_mem_list {w : FlagWords} {word : String} (h : word ∈ w.list) : isName word = true := by
  have hall : w.list.all isName = true := by
    obtain ⟨a, b, c, d, e, f, g⟩ := w
    clear h
    revert a b c d e f g
    decide
  exact List.all_eq_true.mp hall word h

private theorem flagRound_word {word : String} (h : isName word = true) {words words' : FlagWords}
    (hadd : words.add? word = some words') {rest : List Char} (hr : Stops rest) :
    flagRound words (' ' :: (word.toList ++ rest)) = .ok (some words', rest) := by
  obtain ⟨c, s, hc, hstart, -⟩ := exists_cons_of_isName h
  have hskip : blanks (' ' :: (word.toList ++ rest)) = .ok ((), word.toList ++ rest) := by
    rw [hc]
    exact congrArg (fun s => Except.ok ((), s)) (dropBlanks_name hstart _)
  have hmark : c ≠ '!' := ne_of_startsName hstart (by decide)
  have hbrace : c ≠ '\x7b' := ne_of_startsName hstart (by decide)
  have hnext : peek (word.toList ++ rest) = (.ok (some c, word.toList ++ rest) : Except (Halt Char Cause) _) := by
    rw [hc]
    rfl
  have hround : Yields (flagRound words) (' ' :: (word.toList ++ rest)) (· = some words') rest := by
    refine .step hskip (.step hnext ?_)
    split
    · rename_i he
      cases he
    · rename_i he
      cases he
      exact absurd rfl hmark
    · rename_i he
      cases he
      exact absurd rfl hbrace
    · refine .step (name_word h hr) ?_
      rw [hadd]
      exact yields_pure rfl
  obtain ⟨_, hread, rfl⟩ := hround
  exact hread

private theorem flags_list (w : FlagWords) {c : Char} (hc : c = '!' ∨ c = '\x7b') (rest : List Char) :
    loop flagRound progresses_flagRound {} (' ' :: ((String.join (w.list.map (· ++ " "))).toList ++ c :: rest)) =
      .ok (w, c :: rest) := by
  have hclose : ∀ words, flagRound words (' ' :: c :: rest) = .ok (none, c :: rest) := by
    intro words
    rcases hc with rfl | rfl <;> rfl
  have hloop : Yields (loop flagRound progresses_flagRound {})
      (' ' :: ((String.join (w.list.map (· ++ " "))).toList ++ c :: rest))
      (fun words => w.list.foldlM FlagWords.add? {} = some words) (c :: rest) := by
    refine yields_loop (I := fun done words => done.foldlM FlagWords.add? {} = some words)
      (fun todo => ' ' :: ((String.join (todo.map (· ++ " "))).toList ++ c :: rest)) hclose ?_ rfl
    intro done word todo hall words hwords
    have hword : isName word = true := isName_of_mem_list (w := w) (by simp [hall])
    obtain ⟨words', hadd⟩ : ∃ words', words.add? word = some words' := by
      have hfold := foldlM_add?_list w
      rw [hall, List.foldlM_append, hwords] at hfold
      cases hadd : words.add? word with
      | none => simp [List.foldlM_cons, hadd] at hfold
      | some words' => exact ⟨words', rfl⟩
    refine ⟨some words', ?_, words', rfl, ?_⟩
    · have hstop : Stops (' ' :: ((String.join (todo.map (· ++ " "))).toList ++ c :: rest)) :=
        stops_mark (by decide) _
      have hround := flagRound_word hword hadd hstop
      simpa [String.toList_join] using hround
    · simp [List.foldlM_append, hwords, hadd]
  obtain ⟨words, hread, hwords⟩ := hloop
  rw [foldlM_add?_list] at hwords
  cases hwords
  exact hread

/-! ### Operands of an instruction -/

private theorem yields_callArguments {ops : List (Operand String)} (h : ∀ o ∈ ops, isWritableOperand o = true)
    (rest : List Char) :
    Yields callArguments ('(' :: ((listed (ops.map operandText)).toList ++ ')' :: rest))
      (·.map (·.map (·.name)) = ops) rest := by
  have hentry : ∀ done x todo, ops = done ++ x :: todo → ∀ a : List (Operand Mention), a.map (·.map (·.name)) = done →
      ∀ next r, Separates (')' :: rest) next r → Yields (callArgumentRound a) ((operandText x).toList ++ next)
        (fun o => ∃ b, o = some b ∧ b.map (·.map (·.name)) = done ++ [x]) r := by
    rintro done x todo hops a ha next r hsep
    have hx : isWritableOperand x = true := h x (by simp [hops])
    have hread := yields_operand hx (hsep.stops (stops_mark (by decide) rest))
    obtain ⟨c, s, htext, hblank, hc⟩ := exists_cons_operandText hx
    have hcomment : c ≠ ';' := by grind
    have hclose : c ≠ ')' := by grind
    have hskip : blanks ((operandText x).toList ++ next) = .ok ((), (operandText x).toList ++ next) := by
      rw [htext, List.cons_append, blanks, skip, dropBlanks_cons hblank hcomment]
    have hopen : accept ')' ((operandText x).toList ++ next) = .ok (false, (operandText x).toList ++ next) := by
      rw [htext]
      exact accept_other hblank hcomment hclose _
    refine .step hopen (.step hskip (hread.bind fun o ho => ?_))
    refine .step (hsep.separator (by decide) (by decide) (by decide) _) (yields_pure ⟨_, rfl, ?_⟩)
    rw [List.map_append, ha, List.map_singleton, ho]
  refine .step (m := (listed (ops.map operandText)).toList ++ ')' :: rest) rfl ?_
  exact yields_loop_listed _ (fun _ => rfl) (fun _ _ => rfl) hentry rfl

private theorem endsInst_cons {c : Char} (hblank : Text.isBlank c = false) (hc : c ∉ [';', '\x7d']) (r : List Char) :
    endsInst (c :: r) = .ok (false, c :: r) := by
  have hnewline : c ≠ '\n' := by
    rintro rfl
    cases hblank
  refine bind_eq_ok.mpr ⟨(), c :: r, by rw [inlineBlanks, skip, dropInline_cons hblank], ?_⟩
  refine bind_eq_ok.mpr ⟨some c, c :: r, rfl, congrFun (?_ : _ = (pure false : Reader Bool)) (c :: r)⟩
  split <;> simp_all

private theorem toList_plainTail (ops : List (Operand String)) (rest : List Char) :
    (plainTail ops).toList ++ rest = ' ' :: ((listed (ops.map operandText)).toList ++ rest) := by
  simp [plainTail]

private theorem yields_operands {ops : List (Operand String)} (h : ∀ o ∈ ops, isWritableOperand o = true)
    (rest : List Char) :
    Yields operands ((plainTail ops).toList ++ '\n' :: rest) (·.map (·.map (·.name)) = ops) ('\n' :: rest) := by
  have hentry : ∀ done x todo, ops = done ++ x :: todo → ∀ a : List (Operand Mention), a.map (·.map (·.name)) = done →
      ∀ next r, Separates ('\n' :: rest) next r → Yields (operandRound a) ((operandText x).toList ++ next)
        (fun o => ∃ b, o = some b ∧ b.map (·.map (·.name)) = done ++ [x]) r := by
    rintro done x todo hops a ha next r hsep
    have hx : isWritableOperand x = true := h x (by simp [hops])
    have hread := yields_operand hx (hsep.stops (stops_mark (by decide) rest))
    obtain ⟨c, s, htext, hblank, hc⟩ := exists_cons_operandText hx
    have hgoes : endsInst ((operandText x).toList ++ next) = .ok (false, (operandText x).toList ++ next) := by
      rw [htext]
      exact endsInst_cons hblank (by grind) _
    refine .step hgoes (hread.bind fun o ho => ?_)
    have hmore : (a ++ [o]).map (·.map (·.name)) = done ++ [x] := by
      rw [List.map_append, ha, List.map_singleton, ho]
    cases hsep with
    | comma => exact .step rfl (.step rfl (.step rfl (yields_pure ⟨_, rfl, hmore⟩)))
    | last => exact .step rfl (.step rfl (.step rfl (yields_pure ⟨_, rfl, hmore⟩)))
  have hclose : ∀ a, operandRound a ('\n' :: rest) = .ok (none, '\n' :: rest) := fun _ => rfl
  obtain ⟨os, hloop, hos⟩ := yields_loop_listed progresses_operandRound hclose (fun _ _ => rfl) hentry (a := []) rfl
  have hblank : ∀ s, operandRound [] (' ' :: s) = operandRound [] s := fun _ => rfl
  rw [toList_plainTail]
  exact ⟨os, (loop_congr (hblank _)).trans hloop, hos⟩

/-- The flag words of a call. -/
def callWords (flags : CallFlags) : String :=
  (if flags.throws then " throws" else "") ++ if flags.returnSlot then " rso" else ""

private theorem callFlags_words (flags : CallFlags) (rest : List Char) :
    callFlags ((callWords flags).toList ++ '\n' :: rest) = .ok (flags, '\n' :: rest) := by
  have hend : ∀ f, callFlagRound f ('\n' :: rest) = .ok (none, '\n' :: rest) := fun _ => rfl
  obtain ⟨_ | _, _ | _⟩ := flags
  · exact loop_none (hend _)
  · exact (loop_some rfl).trans (loop_none (hend _))
  · exact (loop_some rfl).trans (loop_none (hend _))
  · exact (loop_some rfl).trans ((loop_some rfl).trans (loop_none (hend _)))

/-! ### Instructions -/

/-- The operation word of an action. -/
def opcodeOf : Action String → String
  | .debug => "dbg"
  | .call _ _ => "call"
  | .callIndirect _ _ => "call_indirect"
  | .other opcode => opcode

/-- What follows the operation word of an action. -/
def tailOf (ops : List (Operand String)) : Action String → String
  | .debug | .other _ => plainTail ops
  | .call callee flags => " @" ++ quoted callee ++ callTail ops flags
  | .callIndirect target flags => " %" ++ target ++ callTail ops flags

private theorem actionText_eq (ops : List (Operand String)) (a : Action String) :
    actionText ops a = opcodeOf a ++ tailOf ops a := by
  cases a <;> simp [actionText, opcodeOf, tailOf, ← String.toList_inj]

private theorem isName_opcodeOf {a : Action String} (ha : isWritableAction a = true) : isName (opcodeOf a) = true := by
  cases a with
  | debug => decide
  | call =>
    show isName "call" = true
    decide
  | callIndirect =>
    show isName "call_indirect" = true
    decide
  | other opcode => exact (Bool.and_eq_true _ _ ▸ ha).1

private theorem toList_callTail (ops : List (Operand String)) (flags : CallFlags) (rest : List Char) :
    (callTail ops flags).toList ++ rest =
      '(' :: ((listed (ops.map operandText)).toList ++ ')' :: ((callWords flags).toList ++ rest)) := by
  simp [callTail, callWords]

private theorem toList_tailOf_call (ops : List (Operand String)) (callee : String) (flags : CallFlags)
    (rest : List Char) :
    (tailOf ops (.call callee flags)).toList ++ rest =
      ' ' :: '@' :: ((quoted callee).toList ++ ((callTail ops flags).toList ++ rest)) := by
  simp [tailOf]

private theorem toList_tailOf_callIndirect (ops : List (Operand String)) (target : String) (flags : CallFlags)
    (rest : List Char) : (tailOf ops (.callIndirect target flags)).toList ++ rest =
      ' ' :: '%' :: (target.toList ++ ((callTail ops flags).toList ++ rest)) := by
  simp [tailOf]

private theorem yields_action {ops : List (Operand String)} (hops : ∀ o ∈ ops, isWritableOperand o = true)
    {a : Action String} (ha : isWritableAction a = true) (rest : List Char) :
    Yields (action (opcodeOf a)) ((tailOf ops a).toList ++ '\n' :: rest)
      (fun x => x.1.map (·.name) = a ∧ x.2.map (·.map (·.name)) = ops) ('\n' :: rest) := by
  cases a with
  | debug => exact (yields_operands hops rest).bind fun os hos => yields_pure ⟨rfl, hos⟩
  | call callee flags =>
    rw [toList_tailOf_call, toList_callTail]
    refine .step rfl ((yields_mention ha _).bind fun m hm => (yields_callArguments hops _).bind fun os hos => ?_)
    refine .step (callFlags_words flags rest) (yields_pure ⟨?_, hos⟩)
    simp [Action.map, hm]
  | callIndirect target flags =>
    have hopen : Stops ('(' :: ((listed (ops.map operandText)).toList ++ ')' :: ((callWords flags).toList ++
        '\n' :: rest))) := stops_mark (by decide) _
    rw [toList_tailOf_callIndirect, toList_callTail]
    refine .step (valueName_word ha hopen) ((yields_callArguments hops _).bind fun os hos => ?_)
    exact .step (callFlags_words flags rest) (yields_pure ⟨rfl, hos⟩)
  | other opcode =>
    have hown : opcode ∉ ownWords := by
      simp only [isWritableAction, Bool.and_eq_true, Bool.not_eq_true', List.contains_eq_mem,
        decide_eq_false_iff_not] at ha
      exact ha.2
    show Yields (action opcode) ((plainTail ops).toList ++ '\n' :: rest) _ _
    unfold action
    split
    · exact absurd (by decide) hown
    · exact absurd (by decide) hown
    · exact absurd (by decide) hown
    · exact (yields_operands hops rest).bind fun os hos => yields_pure ⟨rfl, hos⟩

/-- The line of an instruction without its end. -/
def Inst.line (i : Inst String) : String :=
  (i.result.map fun r => "%" ++ r ++ " = ").getD "" ++ actionText i.operands i.action

private theorem toList_line_none (a : Action String) (ops : List (Operand String)) :
    (Inst.line ⟨none, a, ops⟩).toList = (actionText ops a).toList := by
  simp [Inst.line]

private theorem toList_line_some (r : String) (a : Action String) (ops : List (Operand String)) (rest : List Char) :
    (Inst.line ⟨some r, a, ops⟩).toList ++ rest =
      '%' :: (r.toList ++ ' ' :: '=' :: ' ' :: ((actionText ops a).toList ++ rest)) := by
  simp [Inst.line]

private theorem toList_tailOf (ops : List (Operand String)) (a : Action String) :
    ∃ s, (tailOf ops a).toList = ' ' :: s := by
  cases a <;> simp [tailOf, plainTail]

private theorem stops_tailOf (ops : List (Operand String)) (a : Action String) (rest : List Char) :
    Stops ((tailOf ops a).toList ++ rest) := by
  obtain ⟨s, hs⟩ := toList_tailOf ops a
  rw [hs]
  exact stops_mark (by decide) _

private theorem yields_actionText {ops : List (Operand String)} (hops : ∀ o ∈ ops, isWritableOperand o = true)
    {a : Action String} (ha : isWritableAction a = true) (rest : List Char) (r : Option String) :
    Yields (do let opcode ← name
               let (act, ops) ← action opcode
               return (⟨r, act, ops⟩ : Inst Mention))
      ((actionText ops a).toList ++ '\n' :: rest) (·.map (·.name) = ⟨r, a, ops⟩) ('\n' :: rest) := by
  rw [actionText_eq, String.toList_append, List.append_assoc]
  refine .step (name_word (isName_opcodeOf ha) (stops_tailOf ops a _)) ((yields_action hops ha rest).bind ?_)
  rintro ⟨act, os⟩ ⟨hact, hos⟩
  refine yields_pure ?_
  simp only [Inst.map, hact, hos]

private theorem exists_cons_actionText (ops : List (Operand String)) {a : Action String}
    (ha : isWritableAction a = true) : ∃ c r, (actionText ops a).toList = c :: r ∧ startsName c = true := by
  obtain ⟨c, r, hr, hc, -⟩ := exists_cons_of_isName (isName_opcodeOf ha)
  exact ⟨c, r ++ (tailOf ops a).toList, by rw [actionText_eq, String.toList_append, hr, List.cons_append], hc⟩

private theorem yields_inst {i : Inst String} (hi : i.isWritable = true) (rest : List Char) :
    Yields inst (i.line.toList ++ '\n' :: rest) (·.map (·.name) = i) ('\n' :: rest) := by
  obtain ⟨r, a, ops⟩ := i
  simp only [Inst.isWritable, Bool.and_eq_true, List.all_eq_true] at hi
  obtain ⟨⟨hr, ha⟩, hops⟩ := hi
  cases r with
  | none =>
    obtain ⟨c, s, hc, hstart⟩ := exists_cons_actionText ops ha
    have hresult : result ((actionText ops a).toList ++ '\n' :: rest) =
        .ok (none, (actionText ops a).toList ++ '\n' :: rest) := by
      have hne : c ≠ '%' := ne_of_startsName hstart (by decide)
      rw [hc, List.cons_append]
      refine bind_eq_ok.mpr ⟨(), _, by rw [blanks, skip, dropBlanks_name hstart], ?_⟩
      refine bind_eq_ok.mpr ⟨some c, _, rfl, ?_⟩
      simp [hne, pure_apply]
    rw [toList_line_none]
    exact .step hresult (yields_actionText hops ha rest none)
  | some r =>
    have hresult : result ('%' :: (r.toList ++ ' ' :: '=' :: ' ' :: ((actionText ops a).toList ++ '\n' :: rest))) =
        .ok (some r, ' ' :: ((actionText ops a).toList ++ '\n' :: rest)) := by
      refine bind_eq_ok.mpr ⟨(), _, rfl, bind_eq_ok.mpr ⟨some '%', _, rfl, ?_⟩⟩
      exact bind_eq_ok.mpr ⟨r, _, valueName_word hr (stops_mark (by decide) _), rfl⟩
    obtain ⟨x, hx, hmap⟩ := yields_actionText hops ha rest (some r)
    rw [toList_line_some]
    exact .step hresult ⟨x, hx, hmap⟩

/-! ### Blocks -/

/-- An instruction begins with a character that is no blank and ends nothing. -/
private theorem exists_cons_line {i : Inst String} (hi : i.isWritable = true) :
    ∃ c r, i.line.toList = c :: r ∧ Text.isBlank c = false ∧ c ≠ ';' ∧ c ≠ '\x7d' := by
  obtain ⟨r, a, ops⟩ := i
  simp only [Inst.isWritable, Bool.and_eq_true, List.all_eq_true] at hi
  cases r with
  | none =>
    obtain ⟨c, s, hc, hstart⟩ := exists_cons_actionText ops hi.1.2
    refine ⟨c, s, by simp [Inst.line, hc], isBlank_of_startsName hstart, ?_, ?_⟩
    · exact ne_of_startsName hstart (by decide)
    · exact ne_of_startsName hstart (by decide)
  | some r =>
    refine ⟨'%', r.toList ++ ' ' :: '=' :: ' ' :: (actionText ops a).toList, ?_, by decide, by decide, by decide⟩
    simp [Inst.line]

/-- No colon follows the operation word of an instruction. -/
private theorem dropInline_tailOf {ops : List (Operand String)} (hops : ∀ o ∈ ops, isWritableOperand o = true)
    (a : Action String) (rest : List Char) :
    (dropInline ((tailOf ops a).toList ++ '\n' :: rest)).head? ≠ some ':' := by
  have hplain : (dropInline ((plainTail ops).toList ++ '\n' :: rest)).head? ≠ some ':' := by
    have hblank : ∀ s, dropInline (' ' :: s) = dropInline s := fun _ => rfl
    rw [toList_plainTail, hblank]
    cases ops with
    | nil =>
      show some '\n' ≠ some ':'
      decide
    | cons o ops =>
      obtain ⟨next, htext, -⟩ := separates_listTail ('\n' :: rest) (operandText o) (ops.map operandText)
      obtain ⟨c, r, hc, hblank, hends⟩ := exists_cons_operandText (hops o List.mem_cons_self)
      rw [List.map_cons, htext, hc, List.cons_append, dropInline_cons hblank]
      rintro ⟨⟩
      exact hends (by decide)
  cases a with
  | debug => exact hplain
  | other => exact hplain
  | call callee flags =>
    rw [toList_tailOf_call]
    show some '@' ≠ some ':'
    decide
  | callIndirect target flags =>
    rw [toList_tailOf_callIndirect]
    show some '%' ≠ some ':'
    decide

private theorem startsLabel_line {i : Inst String} (hi : i.isWritable = true) (rest : List Char) :
    startsLabel (i.line.toList ++ '\n' :: rest) = false := by
  obtain ⟨r, a, ops⟩ := i
  simp only [Inst.isWritable, Bool.and_eq_true, List.all_eq_true] at hi
  cases r with
  | none =>
    have hline : (Inst.line ⟨none, a, ops⟩).toList ++ '\n' :: rest =
        (opcodeOf a).toList ++ ((tailOf ops a).toList ++ '\n' :: rest) := by
      rw [toList_line_none, actionText_eq, String.toList_append, List.append_assoc]
    have hname := name_word (isName_opcodeOf hi.1.2) (stops_tailOf ops a ('\n' :: rest))
    simp only [startsLabel, hline, hname]
    simpa using dropInline_tailOf hi.2 a rest
  | some r =>
    rw [toList_line_some]
    rfl

/-- A block ends before this text. -/
def EndsBlock (s : List Char) : Prop :=
  dropBlanks ('\n' :: s) = s ∧ (s.head? = some '\x7d' ∨ startsLabel s = true)

private theorem endsBlock_brace (r : List Char) : EndsBlock ('\x7d' :: r) := ⟨rfl, .inl rfl⟩

private theorem endsBlock_label {label : String} (h : isName label = true) (r : List Char) :
    EndsBlock (label.toList ++ ':' :: r) := by
  have hname := name_word h (stops_mark (by decide : ':' ∈ marks) r)
  obtain ⟨c, s, hc, hstart, -⟩ := exists_cons_of_isName h
  refine ⟨?_, .inr ?_⟩
  · rw [hc]
    exact dropBlanks_name hstart _
  · simp only [startsLabel, hname]
    rfl

private theorem yields_instRound {i : Inst String} (hi : i.isWritable = true) (is : List (Inst Mention))
    (rest : List Char) :
    Yields (instRound is) ('\n' :: (i.line.toList ++ '\n' :: rest))
      (fun o => ∃ js, o = some js ∧ js.map (·.map (·.name)) = is.map (·.map (·.name)) ++ [i]) ('\n' :: rest) := by
  obtain ⟨c, r, hc, hblank, hcomment, hbrace⟩ := exists_cons_line hi
  have hskip : blanks ('\n' :: (i.line.toList ++ '\n' :: rest)) = .ok ((), i.line.toList ++ '\n' :: rest) := by
    rw [hc]
    exact congrArg (fun s => Except.ok ((), s)) (dropBlanks_cons hblank hcomment _)
  have hgoes : ¬((i.line.toList ++ '\n' :: rest).isEmpty || (i.line.toList ++ '\n' :: rest).head? == some '\x7d' ||
      startsLabel (i.line.toList ++ '\n' :: rest)) = true := by
    rw [startsLabel_line hi rest, hc]
    simp [hbrace]
  refine .step hskip (.step rfl ?_)
  rw [if_neg hgoes]
  refine (yields_inst hi rest).bind fun j hj => yields_pure ⟨_, rfl, ?_⟩
  rw [List.map_append, List.map_singleton, hj]

private theorem yields_insts {is : List (Inst String)} (his : ∀ i ∈ is, i.isWritable = true) {s : List Char}
    (hs : EndsBlock s) :
    Yields (loop instRound progresses_instRound []) ('\n' :: ((String.join (is.map Inst.text)).toList ++ s))
      (·.map (·.map (·.name)) = is) s := by
  have hclose : ∀ js, instRound js ('\n' :: s) = .ok (none, s) := by
    intro js
    refine bind_eq_ok.mpr ⟨(), s, congrArg (fun s => Except.ok ((), s)) hs.1, bind_eq_ok.mpr ⟨s, s, rfl, ?_⟩⟩
    rw [if_pos (by rcases hs.2 with h | h <;> simp [h])]
    rfl
  have htext : ∀ i : Inst String, i.text.toList = i.line.toList ++ ['\n'] := fun i => by simp [Inst.text, Inst.line]
  refine yields_loop (I := fun done (js : List (Inst Mention)) => js.map (·.map (·.name)) = done)
    (fun todo => '\n' :: ((String.join (todo.map Inst.text)).toList ++ s)) hclose ?_ List.map_nil
  intro done i todo hall js hjs
  have hi : i.isWritable = true := his i (by simp [hall])
  have hround := yields_instRound hi js ((String.join (todo.map Inst.text)).toList ++ s)
  rw [hjs] at hround
  simpa [String.toList_join, htext] using hround

private theorem yields_block {b : Block String} (hb : b.isWritable = true) {s : List Char} (hs : EndsBlock s) :
    Yields block (b.text.toList ++ s) (·.map (·.name) = b) s := by
  obtain ⟨label, is⟩ := b
  simp only [Block.isWritable, Bool.and_eq_true, List.all_eq_true] at hb
  have htext : (Block.text ⟨label, is⟩).toList ++ s =
      label.toList ++ ':' :: '\n' :: ((String.join (is.map Inst.text)).toList ++ s) := by simp [Block.text]
  rw [htext]
  refine .step (name_word hb.1 (stops_mark (by decide) _)) (.step rfl ?_)
  refine (yields_insts hb.2 hs).bind fun js hjs => yields_pure ?_
  rw [Block.map, hjs]

private theorem yields_blockRound (owner : String) {b : Block String} (hb : b.isWritable = true)
    {bs : List (Block Mention)} (hnew : b.label ∉ bs.map (·.label)) {s : List Char} (hs : EndsBlock s) :
    Yields (blockRound owner bs) (b.text.toList ++ s)
      (fun o => ∃ cs, o = some cs ∧ cs.map (·.map (·.name)) = bs.map (·.map (·.name)) ++ [b]) s := by
  have hlabel : isName b.label = true := by
    simp only [Block.isWritable, Bool.and_eq_true] at hb
    exact hb.1
  obtain ⟨c, r, hc, hstart, -⟩ := exists_cons_of_isName hlabel
  obtain ⟨r', htext⟩ : ∃ r', b.text.toList ++ s = c :: r' := by
    rw [Block.text]
    simp [hc]
  have hopen : accept '\x7d' (b.text.toList ++ s) = .ok (false, b.text.toList ++ s) := by
    rw [htext]
    exact accept_other (isBlank_of_startsName hstart) (ne_of_startsName hstart (by decide))
      (ne_of_startsName hstart (by decide)) r'
  have hmore : (b.text.toList ++ s).isEmpty = false := by rw [htext]; rfl
  refine .step hopen (.step rfl ?_)
  rw [hmore]
  refine .step rfl ((yields_block hb hs).bind fun b' hb' => ?_)
  have hname : b'.label = b.label := by rw [← hb']; rfl
  have hfresh : bs.any (·.label == b'.label) = false := by
    rw [hname]
    simpa using hnew
  rw [hfresh]
  refine .step rfl (yields_pure ⟨_, rfl, ?_⟩)
  rw [List.map_append, List.map_singleton, hb']

private theorem endsBlock_blocks {bs : List (Block String)} (hbs : ∀ b ∈ bs, b.isWritable = true) (rest : List Char) :
    EndsBlock ((String.join (bs.map Block.text)).toList ++ '\x7d' :: rest) := by
  cases bs with
  | nil => exact endsBlock_brace rest
  | cons b bs =>
    have hb : b.isWritable = true := hbs b List.mem_cons_self
    simp only [Block.isWritable, Bool.and_eq_true] at hb
    have htext : (String.join ((b :: bs).map Block.text)).toList ++ '\x7d' :: rest =
        b.label.toList ++ ':' :: ('\n' :: (String.join (b.insts.map Inst.text)).toList ++
          ((String.join (bs.map Block.text)).toList ++ '\x7d' :: rest)) := by
      simp [Block.text, String.toList_join]
    rw [htext]
    exact endsBlock_label hb.1 _

private theorem yields_body (owner : String) {body? : Option (List (Block String))}
    (hbs : ∀ b ∈ body?.getD [], b.isWritable = true) (hlabels : ((body?.getD []).map (·.label)).Nodup)
    (rest : List Char) :
    Yields (body owner) ((bodyText body?).toList ++ rest) (·.map (·.map (·.map (·.name))) = body?) ('\n' :: rest) := by
  cases body? with
  | none => exact .step rfl (yields_pure rfl)
  | some bs =>
    have htext : (bodyText (some bs)).toList ++ rest =
        '\x7b' :: '\n' :: ((String.join (bs.map Block.text)).toList ++ '\x7d' :: '\n' :: rest) := by simp [bodyText]
    have hloop : Yields (loop (blockRound owner) (progresses_blockRound owner) [])
        ((String.join (bs.map Block.text)).toList ++ '\x7d' :: '\n' :: rest) (·.map (·.map (·.name)) = bs)
        ('\n' :: rest) := by
      refine yields_loop (I := fun done (cs : List (Block Mention)) => cs.map (·.map (·.name)) = done)
        (fun todo => (String.join (todo.map Block.text)).toList ++ '\x7d' :: '\n' :: rest) (fun _ => rfl) ?_
        List.map_nil
      intro done b todo hall cs hcs
      have hb : b.isWritable = true := hbs b (by simp [hall])
      have hnew : b.label ∉ cs.map (·.label) := by
        have hdone : cs.map (·.label) = done.map (·.label) := by rw [← hcs, List.map_map]; rfl
        rw [Option.getD_some, hall, List.map_append, List.map_cons] at hlabels
        rw [hdone]
        exact not_mem_of_nodup_append_cons hlabels
      have hrest : ∀ b' ∈ todo, b'.isWritable = true := fun b' hb' => hbs b' (by simp [hall, hb'])
      have hround := yields_blockRound owner hb hnew (endsBlock_blocks hrest ('\n' :: rest))
      rw [hcs] at hround
      simpa [String.toList_join] using hround
    have hblank : ∀ cs s, blockRound owner cs ('\n' :: s) = blockRound owner cs s := fun _ _ => rfl
    obtain ⟨cs, hcs, hmap⟩ := hloop
    rw [htext]
    refine .step rfl (.step rfl (.step ((loop_congr (hblank _ _)).trans hcs) (yields_pure ?_)))
    rw [Option.map_some, hmap]

/-! ### Functions and globals -/

private theorem yields_function {f : Function String} (hf : f.isWritable = true) (rest : List Char) :
    ∃ s, f.text.toList ++ rest = (quoted f.name).toList ++ '(' :: s ∧
      Yields (function f.name) ('(' :: s) (·.map (·.name) = f) ('\n' :: rest) := by
  obtain ⟨title, args, ms, words, body?⟩ := f
  simp only [Function.isWritable, Function.blocks, Bool.and_eq_true, List.all_eq_true, decide_eq_true_eq] at hf
  obtain ⟨⟨⟨⟨-, hargs⟩, hms⟩, hblocks⟩, hlabels⟩ := hf
  refine ⟨(listed (args.map ("%" ++ ·))).toList ++ ')' :: ' ' :: '[' ::
    ((listed (ms.map fun m => quoted m.name)).toList ++ ']' :: ' ' ::
      ((String.join (words.list.map (· ++ " "))).toList ++ ((bodyText body?).toList ++ rest))), ?_, ?_⟩
  · simp [Function.text]
  · have hbody := yields_body title hblocks (of_decide_eq_true hlabels) rest
    obtain ⟨c, s, hs, hc⟩ : ∃ c s, (bodyText body?).toList ++ rest = c :: s ∧ (c = '!' ∨ c = '\x7b') := by
      cases body? with
      | none => exact ⟨'!', '\n' :: rest, by simp [bodyText], .inl rfl⟩
      | some bs =>
        refine ⟨'\x7b', '\n' :: ((String.join (bs.map Block.text)).toList ++ '\x7d' :: '\n' :: rest), ?_, .inr rfl⟩
        simp [bodyText]
    rw [hs] at hbody ⊢
    refine .step (arguments_listed hargs _) (.step (markers_listed hms _) (.step (flags_list words hc s) ?_))
    refine hbody.bind fun bs hbs => yields_pure ?_
    rw [Function.map, hbs]

private theorem yields_item {i : Item String} (hi : i.isWritable = true) {items : List (Item Mention)}
    (hnew : i.name ∉ items.map Item.name) (rest : List Char) :
    Yields (item items) (i.text.toList ++ rest) (·.map (·.name) = i) ('\n' :: rest) := by
  have hfresh : taken items i.name = false := by
    rw [taken, List.any_eq_false]
    intro j hj he
    exact hnew (List.mem_map.mpr ⟨j, hj, by simpa using he⟩)
  cases i with
  | global title =>
    have htext : (Item.text (.global title)).toList ++ rest =
        "global".toList ++ ' ' :: ((quoted title).toList ++ '\n' :: rest) := by simp [Item.text]
    have hword : symbol ("global".toList ++ ' ' :: ((quoted title).toList ++ '\n' :: rest)) =
        .ok ("global", ' ' :: ((quoted title).toList ++ '\n' :: rest)) := rfl
    have hskip : blanks (' ' :: ((quoted title).toList ++ '\n' :: rest)) =
        .ok ((), (quoted title).toList ++ '\n' :: rest) := by
      rw [toList_quoted]
      rfl
    have hnext : peek ((quoted title).toList ++ '\n' :: rest) =
        (.ok (some '"', (quoted title).toList ++ '\n' :: rest) : Except (Halt Char Cause) _) := by
      rw [toList_quoted]
      rfl
    rw [htext]
    refine .step hword (.step hskip (.step hnext ?_))
    rw [if_pos (by decide)]
    refine .step (symbol_quoted hi _) ?_
    rw [Item.name] at hfresh
    rw [hfresh]
    exact .step rfl (yields_pure rfl)
  | function f =>
    obtain ⟨s, htext, hread⟩ := yields_function hi rest
    have htitle : isTitle f.name = true := by
      simp only [Item.isWritable, Function.isWritable, Bool.and_eq_true] at hi
      exact hi.1.1.1.1
    have hskip : blanks ('(' :: s) = .ok ((), '(' :: s) := rfl
    rw [Item.text, htext]
    refine .step (symbol_quoted htitle _) (.step hskip (.step rfl ?_))
    rw [if_neg (by simp)]
    rw [Item.name] at hfresh
    rw [hfresh]
    refine .step rfl (hread.bind fun g hg => yields_pure ?_)
    rw [Item.map, hg]

private theorem yields_itemRound {i : Item String} (hi : i.isWritable = true) {items : List (Item Mention)}
    (hnew : i.name ∉ items.map Item.name) (rest : List Char) :
    Yields (itemRound items) ('\n' :: (i.text.toList ++ rest))
      (fun o => ∃ js, o = some js ∧ js.map (·.map (·.name)) = items.map (·.map (·.name)) ++ [i]) ('\n' :: rest) := by
  obtain ⟨c, s, hc, hblank, hcomment⟩ : ∃ c s, i.text.toList ++ rest = c :: s ∧ Text.isBlank c = false ∧ c ≠ ';' := by
    cases i with
    | global title =>
      refine ⟨'g', "lobal ".toList ++ ((quoted title).toList ++ '\n' :: rest), ?_, by decide, by decide⟩
      simp [Item.text]
    | function f =>
      obtain ⟨s, htext, -⟩ := yields_function hi rest
      refine ⟨'"', f.name.toList ++ '"' :: '(' :: s, ?_, by decide, by decide⟩
      rw [Item.text, htext, toList_quoted]
      simp
  have hskip : blanks ('\n' :: (i.text.toList ++ rest)) = .ok ((), i.text.toList ++ rest) := by
    rw [hc]
    exact congrArg (fun s => Except.ok ((), s)) (dropBlanks_cons hblank hcomment _)
  refine .step hskip (.step rfl ?_)
  rw [if_neg (by simp [hc])]
  refine (yields_item hi hnew rest).bind fun j hj => yields_pure ⟨_, rfl, ?_⟩
  rw [List.map_append, List.map_singleton, hj]

/-- The text of a program is read as the program. -/
theorem yields_program {items : List (Item String)} (h : ∀ i ∈ items, i.isWritable = true)
    (hdistinct : (items.map Item.name).Nodup) :
    Yields program (write items).toList (·.map (·.map (·.name)) = items) [] := by
  have hblank : ∀ js s, itemRound js ('\n' :: s) = itemRound js s := fun _ _ => rfl
  have hloop : Yields program ('\n' :: (write items).toList) (·.map (·.map (·.name)) = items) [] := by
    refine yields_loop (I := fun done (js : List (Item Mention)) => js.map (·.map (·.name)) = done)
      (fun todo => '\n' :: (write todo).toList) (fun _ => rfl) ?_ List.map_nil
    intro done i todo hall js hjs
    have hi : i.isWritable = true := h i (by simp [hall])
    have hnew : i.name ∉ js.map Item.name := by
      have hdone : js.map Item.name = done.map Item.name := by rw [← hjs, ← names_map]
      rw [hall, List.map_append, List.map_cons] at hdistinct
      rw [hdone]
      exact not_mem_of_nodup_append_cons hdistinct
    have hround := yields_itemRound hi hnew (write todo).toList
    rw [hjs] at hround
    simpa [write, String.toList_join] using hround
  obtain ⟨js, hread, hjs⟩ := hloop
  exact ⟨js, (loop_congr (hblank _ _)).symm.trans hread, hjs⟩

/-! ### Mentions -/

theorem unresolved?_eq_none {trees : List (Item Mention)}
    (hcalls : ∀ title ∈ called (trees.map (·.map (·.name))),
      title ∈ (functions (trees.map (·.map (·.name)))).map (·.name))
    (haddresses : ∀ title ∈ addressed (trees.map (·.map (·.name))),
      title ∈ (trees.map (·.map (·.name))).map Item.name) :
    unresolved? trees = none := by
  have hnames : (functions (trees.map (·.map (·.name)))).map (·.name) = (functions trees).map (·.name) := by
    rw [functions_map, List.map_map]
    rfl
  rw [called_map, hnames] at hcalls
  rw [addressed_map, names_map] at haddresses
  have hcall : (called trees).find? (fun m => !((functions trees).map (·.name)).contains m.name) = none := by
    rw [List.find?_eq_none]
    intro m hm
    simpa using hcalls m.name (List.mem_map_of_mem hm)
  have haddress : (addressed trees).find? (fun m => !(trees.map (·.name)).contains m.name) = none := by
    rw [List.find?_eq_none]
    intro m hm
    simpa using haddresses m.name (List.mem_map_of_mem hm)
  simp only [unresolved?, hcall, haddress, Option.map_none]

private theorem IsWritable.wellFormed {items : List (Item String)} (h : IsWritable items) : WellFormed items := by
  have hfunctions : ∀ f ∈ functions items, f.isWritable = true := by
    intro f hf
    obtain ⟨i, hi, hif⟩ := List.mem_filterMap.mp hf
    cases i with
    | global title => cases hif
    | function g =>
      cases hif
      exact h.writable _ hi
  refine ⟨⟨h.distinct, fun f hf => ?_, h.callsDefined⟩, fun f hf => ?_, h.addressesDefined⟩
  · have hwrite := hfunctions f hf
    simp only [Function.isWritable, Bool.and_eq_true] at hwrite
    exact of_decide_eq_true hwrite.1.1.2
  · have hwrite := hfunctions f hf
    simp only [Function.isWritable, Bool.and_eq_true] at hwrite
    exact of_decide_eq_true hwrite.2

end Source

namespace Program

/-- The text of a program that can be written is accepted, and its tables show that program. -/
theorem parse_write {items : List (Source.Item String)} (h : Source.IsWritable items) :
    Program.parse (Source.write items) = .ok (Source.layOut items) ∧
    (Source.layOut items).Shows items ∧ (Source.layOut items).LaidOut := by
  refine ⟨?_, h.wellFormed.shows, h.wellFormed.laidOut⟩
  obtain ⟨trees, hread, htrees⟩ := Source.yields_program h.writable h.distinct
  have hresolved : Source.unresolved? trees = none :=
    Source.unresolved?_eq_none (by rw [htrees]; exact h.callsDefined) (by rw [htrees]; exact h.addressesDefined)
  simp only [Program.parse, hread, hresolved, htrees]

/-- Names that look like parts of the format: a function called `global`, one called like a body, a value called like an
operation word, a label called like a flag word. -/
def disguisedItems : List (Source.Item String) :=
  [.function ⟨"global", ["throws", "a$1"], [.declareTarget, .kernel], { isVirtual := true, noClone := true },
     some [⟨"local", [⟨some "call", .call "\x7b ; \x7d" { throws := true, returnSlot := true },
           [.localAddress "call", .immediate (-9223372036854775807), .address "global"]⟩,
         ⟨none, .callIndirect "throws" {}, []⟩, ⟨none, .debug, [.value "a$1", .immediate 0]⟩]⟩,
       ⟨"dbg", []⟩, ⟨"call", [⟨none, .other "jump", [.block "local", .address "("]⟩, ⟨none, .other "ret", []⟩]⟩]⟩,
   .global "(",
   .function ⟨"\x7b ; \x7d", [], [], { isLocal := true }, some []⟩,
   .function ⟨"far", [], [], {}, none⟩]

theorem parse_write_disguisedItems :
    Source.write disguisedItems =
      "\"global\"(%throws, %a$1) [\"omp declare target\", \"hsa_kernel\"] virtual noclone \x7b\n" ++
      "local:\n%call = call @\"\x7b ; \x7d\"(&%call, -9223372036854775807, &\"global\") throws rso\n" ++
      "call_indirect %throws()\ndbg %a$1, 0\ndbg:\ncall:\njump ^local, &\"(\"\nret \n\x7d\n" ++
      "global \"(\"\n\"\x7b ; \x7d\"() [] local \x7b\n\x7d\n\"far\"() [] !\n" ∧
    Source.IsWritable disguisedItems ∧
    Program.parse (Source.write disguisedItems) = .ok (Source.layOut disguisedItems) ∧
    (Source.layOut disguisedItems).Shows disguisedItems ∧ (Source.layOut disguisedItems).LaidOut := by
  have hwritable : Source.IsWritable disguisedItems :=
    ⟨by decide +kernel, by decide +kernel, by decide +kernel, by decide +kernel⟩
  exact ⟨by decide +kernel, hwritable, parse_write hwritable⟩

end Program

end Accelerator
