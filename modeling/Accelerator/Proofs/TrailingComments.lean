import Accelerator.Proofs.Comments
import Accelerator.Proofs.ReadBack

/-!
# Comments that are added to a program text

The grammar keeps in step on a text and on the text with comments added where lines end (`respects_program`): between
tokens an added comment is skipped, and within an instruction it stops the reader as the end of the line does.  So the
text with the comments is read as the same tree, but for the places where names are mentioned, and accepted as the same
program (`parse_of_commented`).
-/

namespace Accelerator.Source

open Scanner

/-! ### Operands and instructions -/

private theorem respects_mention : Respects Commented Mention.name mention mention := by
  intro s t h
  have hsymbol := respects_symbol.bind (f := fun name => pure ⟨name, s⟩) (g := fun name => pure ⟨name, t⟩)
    (w := Mention.name) fun a b hab => respects_pure hab
  exact hsymbol s t h

private theorem respects_address : Respects Commented (Operand.map Mention.name) address address := by
  refine respects_peek fun o o' ho => ?_
  rw [ho '%' (by decide)]
  split
  · exact respects_valueName.then fun _ => respects_pure rfl
  · exact respects_mention.bind fun m m' hm => respects_pure (congrArg Operand.address hm)

private theorem respects_operand : Respects Commented (Operand.map Mention.name) operand operand := by
  refine respects_inline_peek (fun o => ?_) ?_
  · split
    · exact (respects_valueName.then fun _ => respects_pure rfl).both _
    · exact (respects_advance (by decide)).then fun _ => respects_name.then fun _ =>
        respects_pure rfl
    · exact (respects_advance (by decide)).then fun _ => respects_address
    · split
      · exact (respects_number.then fun _ => respects_pure rfl).both _
      · exact respects_fail _ _
    · exact respects_fail _ _
  · intro o ho o' _
    simp only [List.mem_cons, List.not_mem_nil, or_false] at ho
    rcases ho with rfl | rfl <;> exact respects_fail _ _

private theorem respects_endsInst : Respects Commented (id : Bool → Bool) endsInst endsInst := by
  refine respects_inline_peek (fun o => ?_) ?_
  · split <;> exact (respects_pure rfl).both _
  · intro o ho o' ho'
    simp only [List.mem_cons, List.not_mem_nil, or_false] at ho ho'
    rcases ho with rfl | rfl <;> rcases ho' with rfl | rfl | rfl <;> exact respects_pure rfl

private theorem map_append_singleton {α β : Type} {f : α → β} {as bs : List α} {a b : α} (hs : as.map f = bs.map f)
    (h : f a = f b) : (as ++ [a]).map f = (bs ++ [b]).map f := by
  rw [List.map_append, List.map_append, hs, List.map_singleton, List.map_singleton, h]

private theorem respects_operandRound (ops ops' : List (Operand Mention))
    (hops : ops.map (Operand.map Mention.name) = ops'.map (Operand.map Mention.name)) :
    Respects Commented (Option.map (List.map (Operand.map Mention.name))) (operandRound ops) (operandRound ops') := by
  refine respects_endsInst.then fun ends => ?_
  split
  · exact respects_pure rfl
  · refine respects_operand.bind fun op op' hop => ?_
    have hmore := congrArg some (map_append_singleton hops hop)
    have hlast : ∀ c c', Respects Commented (Option.map (List.map (Operand.map Mention.name)))
        (endsInst >>= fun ends => if ends then pure (some (ops ++ [op])) else fail (.operandSeparator c))
        (endsInst >>= fun ends => if ends then pure (some (ops' ++ [op'])) else fail (.operandSeparator c')) := by
      intro c c'
      refine respects_endsInst.then fun ends => ?_
      split
      · exact respects_pure hmore
      · exact respects_fail _ _
    refine respects_inline_peek (fun o => ?_) ?_
    · by_cases ho : o = some ','
      · subst ho
        exact (respects_advance (by decide)).then fun _ => respects_pure hmore
      · have hne : (o == some ',') = false := by simpa using ho
        simp only [hne]
        exact (hlast o o).both o
    · intro o ho o' ho'
      simp only [List.mem_cons, List.not_mem_nil, or_false] at ho ho'
      rcases ho with rfl | rfl <;> rcases ho' with rfl | rfl | rfl <;> exact hlast _ _

private theorem respects_callArgumentRound (ops ops' : List (Operand Mention))
    (hops : ops.map (Operand.map Mention.name) = ops'.map (Operand.map Mention.name)) :
    Respects Commented (Option.map (List.map (Operand.map Mention.name))) (callArgumentRound ops)
      (callArgumentRound ops') := by
  refine respects_accept ')' (respects_pure rfl) fun o => Respects.both ?_ o
  refine respects_blanks.then fun _ => respects_operand.bind fun op op' hop => ?_
  refine (respects_separator (by decide) _).then fun _ => respects_pure ?_
  exact congrArg some (map_append_singleton hops hop)

private theorem respects_callFlagRound (flags : CallFlags) :
    Respects Commented (Option.map (id : CallFlags → CallFlags)) (callFlagRound flags) (callFlagRound flags) := by
  refine respects_endsInst.then fun ends => ?_
  split
  · exact respects_pure rfl
  · refine respects_name.then fun word => ?_
    split
    · exact respects_pure rfl
    · exact respects_pure rfl
    · exact respects_fail _ _

private theorem respects_operands : Respects Commented (List.map (Operand.map Mention.name)) operands operands :=
  respects_loop respects_operandRound rfl

private theorem respects_callArguments :
    Respects Commented (List.map (Operand.map Mention.name)) callArguments callArguments :=
  (respects_expect '(').then fun _ => respects_loop respects_callArgumentRound rfl

private theorem respects_callFlags : Respects Commented (id : CallFlags → CallFlags) callFlags callFlags :=
  respects_loop (fun a b (hab : a = b) => hab ▸ respects_callFlagRound a) rfl

private theorem respects_action (opcode : String) :
    Respects Commented (Prod.map (Action.map Mention.name) (List.map (Operand.map Mention.name))) (action opcode)
      (action opcode) := by
  unfold action
  split
  · refine (respects_expect '@').then fun _ => respects_mention.bind fun m m' hm => ?_
    refine respects_callArguments.bind fun ops ops' hops => respects_callFlags.then fun flags => ?_
    refine respects_pure (Prod.ext ?_ hops)
    exact congrArg (Action.call · flags) hm
  · refine respects_valueName.then fun target => respects_callArguments.bind fun ops ops' hops => ?_
    exact respects_callFlags.then fun flags => respects_pure (Prod.ext rfl hops)
  · exact respects_operands.bind fun ops ops' hops => respects_pure (Prod.ext rfl hops)
  · exact respects_operands.bind fun ops ops' hops => respects_pure (Prod.ext rfl hops)

private theorem respects_result : Respects Commented (id : Option String → Option String) result result := by
  refine respects_blanks_peek fun o => Respects.both ?_ o
  split
  · exact respects_valueName.then fun _ => (respects_expect '=').then fun _ => respects_pure rfl
  · exact respects_pure rfl

private theorem respects_inst : Respects Commented (Inst.map Mention.name) inst inst := by
  refine respects_result.then fun r => respects_name.then fun opcode => (respects_action opcode).bind fun x y hxy => ?_
  obtain ⟨hact, hops⟩ := Prod.mk.inj hxy
  refine respects_pure ?_
  rw [Inst.map, Inst.map, hact, hops]

/-! ### Blocks -/

private theorem Commented.startsLabel {s t : List Char} (h : Commented s t) : startsLabel s = startsLabel t := by
  unfold Source.startsLabel
  rcases h.name with ⟨k, k', hs, ht⟩ | ⟨word, s', t', hs, ht, hrest⟩
  · rw [hs, ht]
  · rw [hs, ht, Bool.eq_iff_iff, beq_iff_eq, beq_iff_eq]
    exact hrest.dropInline.head_eq_iff (by decide)

private theorem respects_instRound (is is' : List (Inst Mention))
    (his : is.map (Inst.map Mention.name) = is'.map (Inst.map Mention.name)) :
    Respects Commented (Option.map (List.map (Inst.map Mention.name))) (instRound is) (instRound is') := by
  refine respects_blanks_both fun o => respects_remaining fun s t h => ?_
  rw [h.isEmpty_eq, h.2.1, ← h.2.2, h.1.startsLabel]
  split
  · exact (respects_pure rfl).both _
  · refine (respects_inst.both _).bind fun i i' hi => respects_pure ?_
    exact congrArg some (map_append_singleton his hi)

private theorem respects_block : Respects Commented (Block.map Mention.name) block block := by
  refine respects_name.then fun label => (respects_expect ':').then fun _ => ?_
  refine (respects_loop respects_instRound rfl).bind fun is is' his => respects_pure ?_
  exact congrArg (Block.mk label) his

private theorem respects_blockRound (owner : String) (bs bs' : List (Block Mention))
    (hbs : bs.map (Block.map Mention.name) = bs'.map (Block.map Mention.name)) :
    Respects Commented (Option.map (List.map (Block.map Mention.name))) (blockRound owner bs)
      (blockRound owner bs') := by
  have hlabels : bs.map (·.label) = bs'.map (·.label) := by
    have := congrArg (List.map Block.label) hbs
    simpa [Function.comp_def, Block.map] using this
  have hany : ∀ label, bs.any (·.label == label) = bs'.any (·.label == label) := by
    intro label
    have := congrArg (List.any · (· == label)) hlabels
    simpa [Function.comp_def] using this
  refine respects_accept '\x7d' (respects_pure rfl) fun o => respects_remaining fun s t h => ?_
  refine ((respects_refuse h.isEmpty_eq _ _).both _).then fun _ => respects_block.bind fun b b' hb => ?_
  have hlabel : b.label = b'.label := (Block.mk.inj hb).1
  rw [hany, hlabel]
  refine (respects_refuse rfl _ _).then fun _ => respects_pure ?_
  exact congrArg some (map_append_singleton hbs hb)

/-! ### Functions and programs -/

private theorem respects_argumentRound (args : List String) :
    Respects Commented (Option.map (id : List String → List String)) (argumentRound args) (argumentRound args) := by
  refine respects_accept ')' (respects_pure rfl) fun o => Respects.both ?_ o
  refine respects_valueName.then fun arg => (respects_separator (by decide) _).then fun _ => ?_
  exact respects_pure rfl

private theorem respects_markerRound (ms : List Marker) :
    Respects Commented (Option.map (id : List Marker → List Marker)) (markerRound ms) (markerRound ms) := by
  refine respects_accept ']' (respects_pure rfl) fun o => Respects.both ?_ o
  refine respects_symbol.then fun word => ?_
  split
  · exact respects_fail _ _
  · refine (respects_separator (by decide) _).then fun _ => ?_
    exact respects_pure rfl

private theorem respects_flagRound (words : FlagWords) :
    Respects Commented (Option.map (id : FlagWords → FlagWords)) (flagRound words) (flagRound words) := by
  refine respects_blanks_peek fun o => Respects.both ?_ o
  split
  · exact respects_pure rfl
  · exact respects_pure rfl
  · exact respects_pure rfl
  · refine respects_name.then fun word => ?_
    split
    · exact respects_fail _ _
    · exact respects_pure rfl

private theorem respects_arguments : Respects Commented (id : List String → List String) arguments arguments :=
  (respects_expect '(').then fun _ => respects_loop (fun a b (hab : a = b) => hab ▸ respects_argumentRound a) rfl

private theorem respects_markers : Respects Commented (id : List Marker → List Marker) markers markers :=
  respects_accept '[' (respects_loop (fun a b (hab : a = b) => hab ▸ respects_markerRound a) rfl) fun _ =>
    (respects_pure rfl).both _

private theorem respects_body (owner : String) :
    Respects Commented (Option.map (List.map (Block.map Mention.name))) (body owner) (body owner) := by
  refine respects_accept '!' (respects_pure rfl) fun o => Respects.both ?_ o
  refine (respects_expect '\x7b').then fun _ => ?_
  refine (respects_loop (respects_blockRound owner) rfl).bind fun bs bs' hbs => ?_
  exact respects_pure (congrArg some hbs)

private theorem respects_function (title : String) :
    Respects Commented (Function.map Mention.name) (function title) (function title) := by
  refine respects_arguments.then fun args => respects_markers.then fun ms => ?_
  refine (respects_loop (v := id) (fun a b (hab : a = b) => hab ▸ respects_flagRound a) rfl).then fun words => ?_
  refine (respects_body title).bind fun bs bs' hbs => respects_pure ?_
  exact congrArg (Function.mk title args ms words) hbs

private theorem respects_item (items items' : List (Item Mention))
    (hitems : items.map (Item.map Mention.name) = items'.map (Item.map Mention.name)) :
    Respects Commented (Item.map Mention.name) (item items) (item items') := by
  have htaken : ∀ title, taken items title = taken items' title := by
    intro title
    have hnames : items.map Item.name = items'.map Item.name := by rw [← names_map, ← names_map, hitems]
    have := congrArg (List.any · (· == title)) hnames
    simpa [taken, Function.comp_def] using this
  refine respects_symbol.then fun title => respects_blanks_peek fun o => Respects.both ?_ o
  split
  · refine respects_symbol.then fun title => ?_
    exact (respects_refuse (htaken title) _ _).then fun _ => respects_pure rfl
  · refine (respects_refuse (htaken title) _ _).then fun _ => ?_
    exact (respects_function title).bind fun f f' hf => respects_pure (congrArg Item.function hf)

private theorem respects_itemRound (items items' : List (Item Mention))
    (hitems : items.map (Item.map Mention.name) = items'.map (Item.map Mention.name)) :
    Respects Commented (Option.map (List.map (Item.map Mention.name))) (itemRound items) (itemRound items') := by
  refine respects_blanks_both fun o => respects_remaining fun s t h => ?_
  rw [h.isEmpty_eq]
  split
  · exact (respects_pure rfl).both _
  · refine ((respects_item items items' hitems).both _).bind fun i i' hi => respects_pure ?_
    exact congrArg some (map_append_singleton hitems hi)

/-- A text is read as the same tree once comments are added, but for the places of mentions. -/
theorem respects_program : Respects Commented (List.map (Item.map Mention.name)) program program :=
  respects_loop respects_itemRound rfl

private theorem program_newline (s : List Char) : program ('\n' :: s) = program s := loop_congr rfl

/-- A text that is accepted is still accepted, as the same program, once comments are added. -/
theorem parse_of_commented {text text' : String} {p : Program}
    (h : Commented ('\n' :: text.toList) ('\n' :: text'.toList)) (hp : Program.parse text = .ok p) :
    Program.parse text' = .ok p := by
  obtain ⟨items, hprog, hwell, rfl⟩ := Program.parse_wellFormed hp
  have hagree := respects_program _ _ h
  rw [program_newline, program_newline, hprog] at hagree
  generalize hprog' : program text'.toList = y at hagree
  cases hagree with
  | @ok _ items' _ _ hitems _ =>
    rw [show items.map (·.map (·.name)) = items'.map (·.map (·.name)) from hitems] at hwell ⊢
    have hresolved : unresolved? items' = none := unresolved?_eq_none hwell.calls hwell.addresses
    simp only [Program.parse, hprog', hresolved]

/-- A text with the same lines as one that is accepted is accepted as the same program. -/
theorem parse_of_sameLines {text text' : String} {p : Program}
    (h : SameLines ('\n' :: text.toList) ('\n' :: text'.toList)) (hp : Program.parse text = .ok p) :
    Program.parse text' = .ok p := parse_of_commented h.commented hp

/-! ### Trailing comments -/

/-- A text that is accepted is accepted as the same program if a comment is put before one of its newlines or at its
end. -/
theorem parse_trailing_comment (before comment after : String) {p : Program}
    (hplace : after = "" ∨ ∃ later, after = "\n" ++ later) (hcomment : '\n' ∉ comment.toList)
    (hp : Program.parse (before ++ after) = .ok p) :
    Program.parse (before ++ ";" ++ comment ++ after) = .ok p := by
  have hends : LineEnds after.toList := by
    rcases hplace with rfl | ⟨later, rfl⟩
    · exact lineEnds_nil
    · rw [String.toList_append]
      exact lineEnds_newline _
  have hskip : dropBlanks (';' :: comment.toList ++ after.toList) = dropBlanks after.toList :=
    dropBlanks_comment ⟨[], comment.toList, rfl, by simp⟩ (by simpa using hcomment) hends
  have hadded : Commented after.toList (';' :: comment.toList ++ after.toList) := by
    refine .gap hends (lineStops_cons.mpr (.inr (.inl rfl))) ?_
    rw [hskip]
    exact .refl _
  refine parse_of_commented ?_ hp
  have hline := (hadded.append before.toList).cons '\n'
  simpa using hline

/-- An operand list with a comma at its end, a call that goes on after a newline, and no newline at the end. -/
def splitText : String := "f(%a) \x7b\nentry:\n  %b = add %a,\n  call @f(\n%b) throws\n\x7d"

/-- The same text with comments after the label, the comma, the parenthesis and the brace. -/
def commentedText : String :=
  "f(%a) \x7b\nentry:; \"\n  %b = add %a,;, 1 \x7d\n  call @f(;%a)\n%b) throws\n\x7d; CHECK: f("

def splitItems : List (Item String) :=
  [.function ⟨"f", ["a"], [], {}, some [⟨"entry",
    [⟨some "b", .other "add", [.value "a"]⟩, ⟨none, .call "f" { throws := true }, [.value "b"]⟩]⟩]⟩]

theorem parse_trailing_comment_splitText :
    Program.parse splitText = .ok (layOut splitItems) ∧ Program.parse commentedText = .ok (layOut splitItems) := by
  have hsplit : Program.parse splitText = .ok (layOut splitItems) := by decide +kernel
  have hlabel := parse_trailing_comment "f(%a) \x7b\nentry:" " \""
    ("\n" ++ "  %b = add %a,\n  call @f(\n%b) throws\n\x7d") (.inr ⟨_, rfl⟩) (by decide) hsplit
  have hcomma := parse_trailing_comment "f(%a) \x7b\nentry:; \"\n  %b = add %a," ", 1 \x7d"
    ("\n" ++ "  call @f(\n%b) throws\n\x7d") (.inr ⟨_, rfl⟩) (by decide) hlabel
  have hcall := parse_trailing_comment "f(%a) \x7b\nentry:; \"\n  %b = add %a,;, 1 \x7d\n  call @f(" "%a)"
    ("\n" ++ "%b) throws\n\x7d") (.inr ⟨_, rfl⟩) (by decide) hcomma
  have hend := parse_trailing_comment
    "f(%a) \x7b\nentry:; \"\n  %b = add %a,;, 1 \x7d\n  call @f(;%a)\n%b) throws\n\x7d" " CHECK: f(" ""
    (.inl rfl) (by decide) hcall
  exact ⟨hsplit, hend⟩

-- not so the other way round: what is added may close a quote
example : (Program.parse "global \"a").toBool = false ∧
    (Program.parse ("global \"a" ++ ";" ++ "\"")).toBool = true := by decide +kernel

end Accelerator.Source
