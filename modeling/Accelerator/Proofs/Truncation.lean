import Accelerator.Proofs.Reading
import Accelerator.Proofs.RoundTrip

/-!
# Streams that are cut off

Nothing marks the length of a stream, and zero bytes stand everywhere in it, so a reader has to notice by itself that
a part is missing.  `Guards r bytes a` says that the reader `r` is not misled by a piece of the bytes that are written
for `a`: on a proper prefix of them it stops, and on all of them it gives `a` or stops, in both cases for a cause that
is not fatal.  This is carried through the format part by part, up to a whole record (`guards_record`) and from there
through the records (`readRecords_cut`).  Numbers need not fit into 64 bits for it, since one that is too large stops
the reader.
-/

namespace Accelerator.Stream

open Scanner

variable {part bytes more : List UInt8}

/-! ### Pieces of what was written -/

/-- Some of the bytes at the end are missing. -/
def IsCut (part bytes : List UInt8) : Prop := part <+: bytes ∧ part ≠ bytes

private theorem not_isCut_nil : ¬IsCut part [] := fun h => h.2 (List.prefix_nil.mp h.1)

private theorem IsCut.length_lt (h : IsCut part bytes) : part.length < bytes.length :=
  Nat.lt_of_le_of_ne h.1.length_le fun he => h.2 (h.1.eq_of_length he)

/-- The cut is in the first of two parts, or the first is whole and the cut is in the second. -/
private theorem IsCut.append_cases (h : IsCut part (bytes ++ more)) :
    IsCut part bytes ∨ ∃ piece, part = bytes ++ piece ∧ IsCut piece more := by
  obtain ⟨⟨missing, hm⟩, hne⟩ := h
  rcases List.append_eq_append_iff.mp hm with ⟨between, hbytes, hmissing⟩ | ⟨piece, hpart, hmore⟩
  · by_cases hb : between = []
    · right
      refine ⟨[], by simp [hbytes, hb], List.nil_prefix, fun he => hne ?_⟩
      simp [hbytes, hb, ← he]
    · left
      refine ⟨⟨between, hbytes.symm⟩, fun he => hb ?_⟩
      simpa [he] using hbytes
  · right
    refine ⟨piece, hpart, ⟨missing, hmore.symm⟩, fun he => hne ?_⟩
    rw [hpart, he]

/-! ### Readers that notice a cut -/

section

variable {α β : Type} {r : Reader α} {f : α → Reader β} {a : α} {b : β}

/-- The reader stops, for a cause that is not fatal. -/
def Halts (r : Reader α) (s : List UInt8) : Prop :=
  ∃ h, r s = .error h ∧ ∀ all, (faultOf all h).isFatal = false

private theorem Halts.bind {s : List UInt8} (h : Halts r s) (f : α → Reader β) : Halts (r >>= f) s := by
  obtain ⟨halt, hr, hfatal⟩ := h
  exact ⟨halt, by rw [bind_apply, hr], hfatal⟩

/-- On a proper prefix of the bytes the reader stops, and on all of them it gives this value or stops, whatever
follows.  No cause for which it stops is fatal. -/
structure Guards (r : Reader α) (bytes : List UInt8) (a : α) : Prop where
  cut : ∀ part, IsCut part bytes → Halts r part
  whole : ∀ rest, r (bytes ++ rest) = .ok (a, rest) ∨ Halts r (bytes ++ rest)

private theorem guards_pure (a : α) : Guards (pure a) [] a := ⟨fun _ h => absurd h not_isCut_nil, fun _ => .inl rfl⟩

private theorem Guards.bind (hr : Guards r bytes a) (hf : Guards (f a) more b) :
    Guards (r >>= f) (bytes ++ more) b := by
  constructor
  · intro part hpart
    rcases hpart.append_cases with hcut | ⟨piece, rfl, hcut⟩
    · exact (hr.cut part hcut).bind f
    · rcases hr.whole piece with hok | hhalts
      · obtain ⟨halt, hpiece, hfatal⟩ := hf.cut piece hcut
        refine ⟨halt, ?_, hfatal⟩
        rw [bind_apply, hok]
        exact hpiece
      · exact hhalts.bind f
  · intro rest
    rw [List.append_assoc]
    rcases hr.whole (more ++ rest) with hok | hhalts
    · rcases hf.whole rest with hmore | ⟨halt, hmore, hfatal⟩
      · left
        rw [bind_apply, hok]
        exact hmore
      · right
        refine ⟨halt, ?_, hfatal⟩
        rw [bind_apply, hok]
        exact hmore
    · exact .inr (hhalts.bind f)

/-- A reader that takes nothing does not show in the bytes. -/
private theorem Guards.bind_nil (hr : Guards r [] a) (hf : Guards (f a) more b) : Guards (r >>= f) more b := hr.bind hf

end

/-! ### The parts of a record -/

/-- A number is over at its first byte without the high bit, so none is a proper prefix of another. -/
private theorem guards_number (n : Nat) : Guards number (encodeNumber n) n := by
  constructor
  · intro part hcut
    cases hr : number part with
    | error halt => exact ⟨halt, hr, harmless_number part halt hr⟩
    | ok x =>
      obtain ⟨m, rest⟩ := x
      obtain ⟨digits, rfl, hnumber⟩ := (recognizes_number _ _ _).mp hr
      obtain ⟨missing, hmissing⟩ := hcut.1
      rw [List.append_assoc, ← List.append_nil (encodeNumber n)] at hmissing
      obtain ⟨hdigits, -⟩ := hnumber.digits.eq_of_append (digits_encodeNumber n) hmissing
      have hlt := hcut.length_lt
      rw [hdigits, List.length_append] at hlt
      omega
  · intro rest
    cases hr : number (encodeNumber n ++ rest) with
    | error halt => exact .inr ⟨halt, hr, harmless_number _ halt hr⟩
    | ok x =>
      obtain ⟨m, left⟩ := x
      obtain ⟨digits, hs, hnumber⟩ := (recognizes_number _ _ _).mp hr
      obtain ⟨rfl, rfl⟩ := (digits_encodeNumber n).eq_of_append hnumber.digits hs
      rw [List.append_cancel_left hs]
      exact .inl rfl

/-- A text says beforehand how long it is, so a cut inside a character is found as well. -/
private theorem guards_text (t : String) : Guards (text (utf8 t).length) (utf8 t) t := by
  constructor
  · intro part hcut
    refine ⟨⟨part, .nameBeyondEnd⟩, ?_, fun _ => rfl⟩
    rw [text, if_pos hcut.length_lt]
  · exact fun rest => .inl ((recognizes_text _).reads ⟨rfl, rfl⟩ rest)

private theorem guards_boundName (bound : Option String) :
    Guards (boundName bound.isSome) ((bound.map encodeName).getD []) bound := by
  cases bound with
  | none => exact guards_pure none
  | some title =>
    have hname : Guards name (encodeName title) title := (guards_number _).bind (guards_text title)
    have hbound : Guards (boundName true) (encodeName title ++ []) (some title) := hname.bind (guards_pure (some title))
    rwa [List.append_nil] at hbound

variable {roster : Roster} {p q : Program} {s : Summaries} {state : Program × Summaries}

theorem guards_record {n : Node} {r : Record} (h : Fits roster p (n, r)) :
    Guards (record roster p) r.encode (n, r) := by
  obtain ⟨hnode, hdef⟩ := h
  obtain ⟨hkind, hside, hbound⟩ := wordField_word r
  have hbit : ∀ b : Bool, (b.toNat != 0) = b := by decide
  unfold record Record.encode
  rw [List.append_assoc]
  refine (guards_number r.place).bind ?_
  simp only [hnode]
  have hrefuse : Guards (refuse (!(p.function n).flags.definition) (.notDefinition r.place (p.name n))) [] () := by
    rw [hdef]
    exact guards_pure ()
  refine hrefuse.bind_nil ((guards_number r.word).bind ?_)
  rw [hkind, hside, hbound, ofCode?_code, hbit, hbit, ← List.append_nil (Option.getD _ _)]
  exact (guards_boundName r.bound).bind (guards_pure _)

/-! ### All records -/

/-- If something is cut off records and what follows them, the reader stops at one of the records or what follows is
cut off. -/
theorem readRecords_cut {rs : List Record} (hfits : ∀ r ∈ rs, ∃ n, Fits roster state.1 (n, r)) {tail : List UInt8}
    (hcut : IsCut part (rs.flatMap Record.encode ++ tail)) :
    (∃ after halt, readRecords roster rs.length state part = (after, .error halt) ∧
      ∀ all, (faultOf all halt).isFatal = false) ∨
    ∃ after rest, readRecords roster rs.length state part = (after, .ok rest) ∧ IsCut rest tail := by
  induction rs generalizing state part with
  | nil => exact .inr ⟨state, part, rfl, hcut⟩
  | cons r rs ih =>
    obtain ⟨n, hfit⟩ := hfits r List.mem_cons_self
    have hguards := guards_record hfit
    rw [List.flatMap_cons, List.append_assoc] at hcut
    have hstop : Halts (record roster state.1) part → ∃ after halt,
        readRecords roster (rs.length + 1) state part = (after, .error halt) ∧
          ∀ all, (faultOf all halt).isFatal = false := by
      rintro ⟨halt, hhalt, hfatal⟩
      exact ⟨state, halt, by rw [readRecords, hhalt], hfatal⟩
    rw [List.length_cons]
    rcases hcut.append_cases with hfirst | ⟨piece, rfl, hlater⟩
    · exact .inl (hstop (hguards.cut part hfirst))
    · rcases hguards.whole piece with hok | hhalts
      · rw [readRecords, hok]
        -- reading a record does not change what is a definition
        refine ih (fun r' hr' => ?_) hlater
        obtain ⟨n', hfit'⟩ := hfits r' (List.mem_cons_of_mem r hr')
        exact ⟨n', (fits_congr (definition_apply r n state)).mpr hfit'⟩
      · exact .inl (hstop hhalts)

/-- The records that are written are about the functions that take part. -/
private theorem fits_of_mem_records (hdef : ∀ n ∈ roster.nodes, (s.of n).isParticipant = true →
    (q.function n).flags.definition = true) {r : Record} (hr : r ∈ records p s roster) :
    ∃ n, Fits roster q (n, r) := by
  rw [records_eq] at hr
  obtain ⟨x, hx, hrecord⟩ := List.mem_filterMap.mp hr
  refine ⟨x.1, node?_place hx hrecord, hdef x.1 (List.fst_mem_of_mem_zipIdx hx) ?_⟩
  by_contra hpart
  rw [recordAt?_eq_none (by simpa using hpart)] at hrecord
  cases hrecord

/-! ### Whole streams -/

/-- Whatever is cut off a stream that was written, what is left is refused as malformed.  It does not matter what is
known before, and the program may be any in which the functions that take part are definitions. -/
theorem read_truncated (hdef : ∀ n ∈ roster.nodes, (s.of n).isParticipant = true →
    (q.function n).flags.definition = true) (hpart : part <+: write p s roster) (hne : part ≠ write p s roster)
    (t : Summaries) :
    ∃ after f, read roster (q, t) part = (after, .error f) ∧ f.isFatal = false := by
  have hcut : IsCut part (encodeNumber (records p s roster).length ++
      ((records p s roster).flatMap Record.encode ++ [0])) := by
    rw [← List.append_assoc]
    exact ⟨hpart, hne⟩
  have hcount := guards_number (records p s roster).length
  have hstop : Halts number part → ∃ after f, read roster (q, t) part = (after, .error f) ∧ f.isFatal = false := by
    rintro ⟨halt, hhalt, hfatal⟩
    exact ⟨(q, t), faultOf part halt, by rw [read, hhalt], hfatal part⟩
  rcases hcut.append_cases with hfirst | ⟨piece, rfl, hlater⟩
  · exact hstop (hcount.cut part hfirst)
  · rcases hcount.whole piece with hok | hhalts
    · rw [read, hok]
      dsimp only
      have hfits : ∀ r ∈ records p s roster, ∃ n, Fits roster (q, t).1 (n, r) := fun r hr =>
        fits_of_mem_records hdef hr
      rcases readRecords_cut hfits hlater with ⟨after, halt, hread, hfatal⟩ | ⟨after, rest, hread, hrest⟩
      · rw [hread]
        exact ⟨after, _, rfl, hfatal _⟩
      · -- of the zero byte at the end nothing is left
        have hnil : rest = [] := List.eq_nil_of_length_eq_zero (Nat.lt_one_iff.mp hrest.length_lt)
        rw [hread, hnil]
        exact ⟨after, _, rfl, rfl⟩
    · exact hstop hhalts

/-- A function with a letter of two bytes in its name, to be cloned. -/
def accentItems : List (Source.Item String) :=
  [.function ⟨"é", [], [.callable], {}, some [⟨"entry", [⟨none, .other "ret", []⟩]⟩]⟩]

def accentProgram : Program := ((Source.layOut accentItems).clone 0 "hsa").2

def accentSummaries : Summaries := (∅ : Summaries).link 1 0 .function

def accentRoster : Roster := .ofNodes [1, 0]

/-- Every cut through the stream of a function that is bound to its clone, also one through the letter. -/
theorem read_truncated_accent :
    write accentProgram accentSummaries accentRoster = [2, 0, 6, 1, 10, 8, 195, 169, 46, 104, 115, 97, 46, 48, 0] ∧
    ∀ k < 15, ∃ after f,
      read accentRoster (accentProgram, (∅ : Summaries).markAccelerator 0 .kernel)
        ((write accentProgram accentSummaries accentRoster).take k) = (after, .error f) ∧ f.isFatal = false := by
  have hwrite : write accentProgram accentSummaries accentRoster =
      [2, 0, 6, 1, 10, 8, 195, 169, 46, 104, 115, 97, 46, 48, 0] := by decide +kernel
  refine ⟨hwrite, fun k hk => read_truncated (by decide +kernel) (List.take_prefix k _) (fun he => ?_) _⟩
  have hlen := congrArg List.length he
  rw [List.length_take, hwrite, List.length_cons] at hlen
  simp at hlen
  omega

end Accelerator.Stream
