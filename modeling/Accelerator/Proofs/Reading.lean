import Accelerator.Program.Layout
import Accelerator.Proofs.Codec
import Accelerator.Proofs.Lookup
import Accelerator.Proofs.Summaries

/-!
# What reading a stream means

`Holds` says that a stream announces the given records, all of them about definitions on the roster, and holds them and
a zero byte after them; `Defective` says that it is sound only up to a first defect.  One of the two is the case
(`holds_or_defective`), and reading applies the records that there are, in order and nothing else (`Applied`).  The
number that is announced does not matter for how far the reader gets: every record takes at least two bytes.
-/

namespace Accelerator.Stream

open Scanner

variable {roster : Roster} {p q : Program} {state : Program × Summaries}

/-! ### What a record does -/

/-- What a record about the function at a node does: it replaces the kind and the side and, if it carries a name, the
bound function.  The function of that name is declared if there is none. -/
structure Record.Applies (r : Record) (n : Node) (before after : Program × Summaries) : Prop where
  program : after.1 = r.bound.elim before.1 fun title => (before.1.getOrDeclare title).2
  entry : after.2[n]? = some ⟨r.kind, r.accelerator,
    r.bound.elim (before.2.of n).bound fun title => some (before.1.getOrDeclare title).1⟩
  others : ∀ m, m ≠ n → after.2[m]? = before.2[m]?

/-- What records do one after the other. -/
inductive Applied : List (Node × Record) → Program × Summaries → Program × Summaries → Prop
  | nil (state : Program × Summaries) : Applied [] state state
  | cons {e : Node × Record} {es : List (Node × Record)} {before between after : Program × Summaries}
      (h : e.2.Applies e.1 before between) (hs : Applied es between after) : Applied (e :: es) before after

/-- The program and the summaries after some records. -/
def applyAll (es : List (Node × Record)) (state : Program × Summaries) : Program × Summaries :=
  es.foldl (fun state e => e.2.apply e.1 state) state

theorem applyAll_cons (e : Node × Record) (es : List (Node × Record)) (state : Program × Summaries) :
    applyAll (e :: es) state = applyAll es (e.2.apply e.1 state) := rfl

theorem Record.applies_apply (r : Record) (n : Node) (state : Program × Summaries) :
    r.Applies n state (r.apply n state) := by
  obtain ⟨p, s⟩ := state
  have hother : ∀ (e : Summary) (m : Node), m ≠ n → (s.insert n e)[m]? = s[m]? := by
    intro e m hm
    simp [Std.ExtTreeMap.getElem?_insert, Ne.symm hm]
  unfold Record.apply
  cases hb : r.bound with
  | none => exact ⟨by simp [hb], by simp [hb, Summaries.update], hother _⟩
  | some title => exact ⟨by simp [hb], by simp [hb, Summaries.update], hother _⟩

private theorem Record.Applies.eq_apply {r : Record} {n : Node} {before after : Program × Summaries}
    (h : r.Applies n before after) : after = r.apply n before := by
  have h' := r.applies_apply n before
  apply Prod.ext
  · rw [h.program, h'.program]
  · apply Std.ExtTreeMap.ext_getElem?
    intro m
    by_cases hm : m = n
    · rw [hm, h.entry, h'.entry]
    · rw [h.others m hm, h'.others m hm]

private theorem applied_iff {es : List (Node × Record)} {before after : Program × Summaries} :
    Applied es before after ↔ after = applyAll es before := by
  constructor
  · intro h
    induction h with
    | nil => rfl
    | cons h _ ih => rw [ih, h.eq_apply, applyAll_cons]
  · rintro rfl
    induction es generalizing before with
    | nil => exact .nil before
    | cons e es ih => exact .cons (e.2.applies_apply e.1 before) ih

/-- What is a definition stays one, and what is none does not become one. -/
theorem definition_apply (r : Record) (n : Node) (state : Program × Summaries) (m : Node) :
    ((r.apply n state).1.function m).flags.definition = (state.1.function m).flags.definition := by
  obtain ⟨p, s⟩ := state
  rw [(r.applies_apply n (p, s)).program]
  cases r.bound with
  | none => rfl
  | some title =>
    dsimp only [Option.elim]
    unfold Program.getOrDeclare
    split
    · rfl
    · rw [Program.function_addFunction]
      split
      · rename_i hm
        rw [Program.function_of_size_le (Nat.le_of_eq hm.symm)]
        rfl
      · rfl

theorem definition_applyAll (es : List (Node × Record)) (state : Program × Summaries) (m : Node) :
    ((applyAll es state).1.function m).flags.definition = (state.1.function m).flags.definition := by
  induction es generalizing state with
  | nil => rfl
  | cons e es ih =>
    rw [applyAll_cons, ih]
    exact definition_apply e.2 e.1 state m

/-! ### Sound streams and defects -/

/-- The record is about a definition on the roster. -/
def Fits (roster : Roster) (p : Program) (e : Node × Record) : Prop :=
  roster.node? e.2.place = some e.1 ∧ (p.function e.1).flags.definition = true

/-- The bytes begin with these records, and `rest` follows them. -/
inductive Records (roster : Roster) (p : Program) : List UInt8 → List (Node × Record) → List UInt8 → Prop
  | nil (rest : List UInt8) : Records roster p rest [] rest
  | cons {part bytes rest : List UInt8} {e : Node × Record} {es : List (Node × Record)} (hr : IsRecord part e.2)
      (hf : Fits roster p e) (h : Records roster p bytes es rest) : Records roster p (part ++ bytes) (e :: es) rest

/-- The stream announces `count` records and begins with the records `es`; `rest` follows them. -/
def Begins (roster : Roster) (p : Program) (bytes : List UInt8) (count : Nat) (es : List (Node × Record))
    (rest : List UInt8) : Prop :=
  ∃ head body, bytes = head ++ body ∧ IsNumber head count ∧ Records roster p body es rest

/-- The stream holds exactly the records `es`; whatever follows the zero byte does not matter. -/
def Holds (roster : Roster) (p : Program) (bytes : List UInt8) (es : List (Node × Record)) : Prop :=
  ∃ tail, Begins roster p bytes es.length es (0 :: tail)

/-- The bytes begin with a record about a definition on the roster. -/
def HasRecord (roster : Roster) (p : Program) (bytes : List UInt8) : Prop :=
  ∃ part more e, bytes = part ++ more ∧ IsRecord part e.2 ∧ Fits roster p e

/-- The bytes begin with the place of something that is not on the roster or is not a definition. -/
def Misfits (roster : Roster) (p : Program) (bytes : List UInt8) : Prop :=
  ∃ head more place, bytes = head ++ more ∧ IsNumber head place ∧
    ∀ n, roster.node? place = some n → (p.function n).flags.definition = false

/-- The first defect of a stream comes after the records `es`.  It is fatal if a record is not about a definition on the
roster. -/
inductive Defective (roster : Roster) (p : Program) (bytes : List UInt8) : List (Node × Record) → Bool → Prop
  /-- The stream announces no number. -/
  | count (h : ¬∃ head body n, bytes = head ++ body ∧ IsNumber head n) : Defective roster p bytes [] false
  | misfit {count : Nat} {es : List (Node × Record)} {rest : List UInt8} (h : Begins roster p bytes count es rest)
      (hlt : es.length < count) (hm : Misfits roster p rest) : Defective roster p bytes es true
  /-- A record is cut off or has a field with a value that does not exist. -/
  | broken {count : Nat} {es : List (Node × Record)} {rest : List UInt8} (h : Begins roster p bytes count es rest)
      (hlt : es.length < count) (hm : ¬Misfits roster p rest) (hr : ¬HasRecord roster p rest) :
      Defective roster p bytes es false
  | unterminated {es : List (Node × Record)} {rest : List UInt8} (h : Begins roster p bytes es.length es rest)
      (ht : rest.head? ≠ some 0) : Defective roster p bytes es false

section

variable (h : ∀ m, (q.function m).flags.definition = (p.function m).flags.definition)
include h

theorem fits_congr {e : Node × Record} : Fits roster q e ↔ Fits roster p e := by
  rw [Fits, Fits, h]

private theorem records_congr {bytes rest : List UInt8} {es : List (Node × Record)}
    (hs : Records roster p bytes es rest) : Records roster q bytes es rest := by
  induction hs with
  | nil rest => exact .nil rest
  | cons hr hf _ ih => exact .cons hr ((fits_congr h).mpr hf) ih

theorem holds_congr {bytes : List UInt8} {es : List (Node × Record)} (hs : Holds roster p bytes es) :
    Holds roster q bytes es := by
  obtain ⟨tail, head, body, hbytes, hnumber, hrecords⟩ := hs
  exact ⟨tail, head, body, hbytes, hnumber, records_congr h hrecords⟩

private theorem misfits_congr {bytes : List UInt8} : Misfits roster q bytes ↔ Misfits roster p bytes := by
  simp only [Misfits, h]

private theorem hasRecord_congr {bytes : List UInt8} : HasRecord roster q bytes ↔ HasRecord roster p bytes := by
  simp only [HasRecord, fits_congr h]

end

/-! ### Sizes -/

private theorem IsRecord.two_le_length {bytes : List UInt8} {r : Record} (h : IsRecord bytes r) : 2 ≤ bytes.length := by
  obtain ⟨place, word, bound, w, rfl, hplace, hword, -⟩ := h
  have h₁ := hplace.digits.length_pos
  have h₂ := hword.digits.length_pos
  simp only [List.length_append]
  omega

private theorem Records.length_le {bytes rest : List UInt8} {es : List (Node × Record)}
    (h : Records roster p bytes es rest) : 2 * es.length + rest.length ≤ bytes.length := by
  induction h with
  | nil => simp
  | cons hr _ _ ih =>
    have := hr.two_le_length
    simp only [List.length_append, List.length_cons]
    omega

private theorem Holds.length_le {bytes : List UInt8} {es : List (Node × Record)} (h : Holds roster p bytes es) :
    2 * es.length + 2 ≤ bytes.length := by
  obtain ⟨tail, head, body, rfl, hnumber, hrecords⟩ := h
  have h₁ := hnumber.digits.length_pos
  have h₂ := hrecords.length_le
  simp only [List.length_append, List.length_cons] at h₂ ⊢
  omega

/-! ### One record -/

/-- The reader stops only for causes that are not fatal. -/
def Harmless {α : Type} (r : Reader α) : Prop := ∀ s h, r s = .error h → ∀ all, (faultOf all h).isFatal = false

private theorem Harmless.bind {α β : Type} {r : Reader α} {f : α → Reader β} (hr : Harmless r)
    (hf : ∀ a, Harmless (f a)) : Harmless (r >>= f) := by
  intro s h he
  rw [bind_apply] at he
  cases hs : r s with
  | error h' =>
    rw [hs] at he
    cases he
    exact hr s h hs
  | ok x =>
    rw [hs] at he
    exact hf x.1 x.2 h he

private theorem harmless_pure {α : Type} (a : α) : Harmless (pure a) := by
  intro s h he
  cases he

theorem harmless_number : Harmless number := by
  have hfrom : ∀ (start s : List UInt8) (k : Nat) (h : Halt UInt8 Cause), numberFrom start k s = .error h →
      ∀ all, (faultOf all h).isFatal = false := by
    intro start s
    induction s with
    | nil =>
      rintro k h ⟨⟩ all
      rfl
    | cons b s ih =>
      intro k h he all
      rw [numberFrom] at he
      split at he
      · cases he
        rfl
      · split at he
        · cases he
        · split at he
          · cases he
          · rename_i h' hrest
            cases he
            exact ih (k + 1) h hrest all
  exact fun s h he => hfrom s s 0 h he

private theorem harmless_text (size : Nat) : Harmless (text size) := by
  intro s h he all
  unfold text at he
  split at he
  · cases he
    rfl
  · split at he
    · cases he
      rfl
    · cases he

private theorem harmless_boundName (isBound : Bool) : Harmless (boundName isBound) := by
  cases isBound with
  | false => exact harmless_pure none
  | true => exact (harmless_number.bind harmless_text).bind fun title => harmless_pure (some title)

private theorem hasRecord_iff {bytes : List UInt8} : HasRecord roster p bytes ↔ ∃ x, record roster p bytes = .ok x := by
  constructor
  · rintro ⟨part, more, e, rfl, hr, hf⟩
    exact ⟨(e, more), (recognizes_record roster p _ _ _).mpr ⟨part, rfl, hr, hf⟩⟩
  · rintro ⟨⟨e, more⟩, hx⟩
    obtain ⟨part, hbytes, hr, hf⟩ := (recognizes_record roster p _ _ _).mp hx
    exact ⟨part, more, e, hbytes, hr, hf⟩

/-- Something that is not on the roster or is not a definition stops the reader for good. -/
private theorem record_of_misfits {bytes : List UInt8} (hm : Misfits roster p bytes) :
    ∃ h, record roster p bytes = .error h ∧ ∀ all, (faultOf all h).isFatal = true := by
  obtain ⟨head, more, place, rfl, hplace, hno⟩ := hm
  have hnumber : number (head ++ more) = .ok (place, more) := recognizes_number.reads hplace more
  rw [record, bind_apply, hnumber]
  cases hnode : roster.node? place with
  | none => exact ⟨⟨more, .badIndex place roster.size⟩, by simp only [hnode]; rfl, fun _ => rfl⟩
  | some n =>
    refine ⟨⟨more, .notDefinition place (p.name n)⟩, ?_, fun _ => rfl⟩
    simp only [hnode, hno n hnode]
    rfl

/-- Anything else that is not a record stops the reader, but not for good. -/
private theorem isFatal_of_record {bytes : List UInt8} (hm : ¬Misfits roster p bytes) {h : Halt UInt8 Cause}
    (he : record roster p bytes = .error h) (all : List UInt8) : (faultOf all h).isFatal = false := by
  rw [record, bind_apply] at he
  cases hnumber : number bytes with
  | error h' =>
    rw [hnumber] at he
    cases he
    exact harmless_number bytes h hnumber all
  | ok x =>
    obtain ⟨place, more⟩ := x
    obtain ⟨head, rfl, hplace⟩ := (recognizes_number _ _ _).mp hnumber
    -- the place is that of a definition
    obtain ⟨n, hnode, hdef⟩ : ∃ n, roster.node? place = some n ∧ (p.function n).flags.definition = true := by
      by_contra hno
      refine hm ⟨head, more, place, rfl, hplace, fun n hn => ?_⟩
      by_contra hd
      exact hno ⟨n, hn, by simpa using hd⟩
    rw [hnumber] at he
    simp only [hnode, hdef] at he
    refine (Harmless.bind (harmless_pure ()) fun _ => harmless_number.bind fun word => ?_) _ h he all
    split
    · rintro s h ⟨⟩ all
      rfl
    · exact (harmless_boundName _).bind fun bound => harmless_pure _

/-! ### All records -/

private theorem readRecords_of_records {bytes rest : List UInt8} {es : List (Node × Record)}
    (h : Records roster state.1 bytes es rest) (k : Nat) :
    readRecords roster (es.length + k) state bytes = readRecords roster k (applyAll es state) rest := by
  induction es generalizing state bytes with
  | nil =>
    cases h
    rw [List.length_nil, Nat.zero_add]
    rfl
  | cons e es ih =>
    cases h with
    | @cons part bytes _ _ _ hr hf h =>
      have hread : record roster state.1 (part ++ bytes) = .ok (e, bytes) :=
        (recognizes_record roster state.1).reads ⟨hr, hf⟩ bytes
      rw [List.length_cons, Nat.succ_add, readRecords, hread]
      exact ih (records_congr (definition_apply e.2 e.1 state) h)

/-- There are records up to the announced number, or up to the first bytes that are no record. -/
private theorem exists_records (roster : Roster) (p : Program) (count : Nat) (bytes : List UInt8) :
    ∃ es rest, Records roster p bytes es rest ∧
      (es.length = count ∨ (es.length < count ∧ ¬HasRecord roster p rest)) := by
  induction count generalizing bytes with
  | zero => exact ⟨[], bytes, .nil bytes, .inl rfl⟩
  | succ count ih =>
    by_cases hr : HasRecord roster p bytes
    · obtain ⟨part, more, e, rfl, hr, hf⟩ := hr
      obtain ⟨es, rest, hs, hend⟩ := ih more
      refine ⟨e :: es, rest, .cons hr hf hs, ?_⟩
      rw [List.length_cons]
      exact hend.imp (by omega) fun h => ⟨by omega, h.2⟩
    · exact ⟨[], bytes, .nil bytes, .inr ⟨Nat.succ_pos count, hr⟩⟩

/-! ### Whole streams -/

private theorem read_of_number {head : List UInt8} {count : Nat} (hc : IsNumber head count) (body : List UInt8) :
    read roster state (head ++ body) =
      match readRecords roster count state body with
      | (state, .error h) => (state, .error (faultOf (head ++ body) h))
      | (state, .ok rest) =>
        match terminator rest with
        | .error h => (state, .error (faultOf (head ++ body) h))
        | .ok _ => (state, .ok count) := by
  have hnumber : number (head ++ body) = .ok (count, body) := recognizes_number.reads hc body
  rewrite [read, hnumber]
  rfl

private theorem terminator_of_head {rest : List UInt8} (h : rest.head? ≠ some 0) :
    ∃ halt, terminator rest = .error halt ∧ ∀ all, (faultOf all halt).isFatal = false := by
  cases rest with
  | nil => exact ⟨_, rfl, fun _ => rfl⟩
  | cons b rest =>
    have hb : b ≠ 0 := by simpa using h
    exact ⟨⟨b :: rest, .noTerminator⟩, by simp [terminator, byte, hb], fun _ => rfl⟩

theorem Holds.read_eq {bytes : List UInt8} {es : List (Node × Record)} (h : Holds roster state.1 bytes es) :
    read roster state bytes = (applyAll es state, .ok es.length) := by
  obtain ⟨tail, head, body, rfl, hnumber, hrecords⟩ := h
  have hread := readRecords_of_records hrecords 0
  rw [Nat.add_zero] at hread
  rw [read_of_number hnumber, hread]
  rfl

private theorem read_of_defective {bytes : List UInt8} {es : List (Node × Record)} {fatal : Bool}
    (h : Defective roster state.1 bytes es fatal) :
    ∃ f, read roster state bytes = (applyAll es state, .error f) ∧ f.isFatal = fatal := by
  have hdef := definition_applyAll
  -- a defect in place of a record
  have hstop : ∀ {count : Nat} {es : List (Node × Record)} {rest : List UInt8} {halt : Halt UInt8 Cause},
      Begins roster state.1 bytes count es rest → es.length < count →
      record roster (applyAll es state).1 rest = .error halt →
      read roster state bytes = (applyAll es state, .error (faultOf bytes halt)) := by
    rintro count es rest halt ⟨head, body, rfl, hnumber, hrecords⟩ hlt hhalt
    obtain ⟨k, rfl⟩ := Nat.exists_eq_add_of_lt hlt
    have hread := readRecords_of_records hrecords (k + 1)
    rw [readRecords, hhalt] at hread
    rw [read_of_number hnumber, Nat.add_assoc, hread]
  cases h with
  | count h =>
    cases hnumber : number bytes with
    | ok x =>
      obtain ⟨head, hbytes, hn⟩ := (recognizes_number _ _ _).mp hnumber
      exact absurd ⟨head, x.2, x.1, hbytes, hn⟩ h
    | error halt =>
      refine ⟨faultOf bytes halt, ?_, harmless_number _ _ hnumber _⟩
      rw [read, hnumber]
      rfl
  | misfit h hlt hm =>
    obtain ⟨halt, hhalt, hfatal⟩ := record_of_misfits ((misfits_congr (hdef es state)).mpr hm)
    exact ⟨_, hstop h hlt hhalt, hfatal bytes⟩
  | @broken _ _ rest h hlt hm hr =>
    cases hrecord : record roster (applyAll es state).1 rest with
    | ok x => exact absurd ((hasRecord_congr (hdef es state)).mp (hasRecord_iff.mpr ⟨x, hrecord⟩)) hr
    | error halt =>
      have hm' : ¬Misfits roster (applyAll es state).1 rest := fun h => hm ((misfits_congr (hdef es state)).mp h)
      exact ⟨_, hstop h hlt hrecord, isFatal_of_record hm' hrecord bytes⟩
  | @unterminated _ rest h ht =>
    obtain ⟨head, body, rfl, hnumber, hrecords⟩ := h
    obtain ⟨halt, hhalt, hfatal⟩ := terminator_of_head ht
    have hread := readRecords_of_records hrecords 0
    rw [Nat.add_zero] at hread
    refine ⟨faultOf (head ++ body) halt, ?_, hfatal _⟩
    rw [read_of_number hnumber, hread, readRecords]
    simp only [hhalt]

/-- A stream is sound or has a first defect. -/
theorem holds_or_defective (roster : Roster) (p : Program) (bytes : List UInt8) :
    (∃ es, Holds roster p bytes es) ∨ ∃ es fatal, Defective roster p bytes es fatal := by
  by_cases hcount : ∃ head body n, bytes = head ++ body ∧ IsNumber head n
  · obtain ⟨head, body, count, rfl, hnumber⟩ := hcount
    obtain ⟨es, rest, hrecords, hend⟩ := exists_records roster p count body
    have hbegins : Begins roster p (head ++ body) count es rest := ⟨head, body, rfl, hnumber, hrecords⟩
    rcases hend with rfl | ⟨hlt, hr⟩
    · by_cases hzero : rest.head? = some 0
      · obtain ⟨tail, rfl⟩ : ∃ tail, rest = 0 :: tail := by
          cases rest with
          | nil => cases hzero
          | cons b tail => exact ⟨tail, by simpa using hzero⟩
        exact .inl ⟨es, tail, hbegins⟩
      · exact .inr ⟨es, false, .unterminated hbegins hzero⟩
    · by_cases hm : Misfits roster p rest
      · exact .inr ⟨es, true, .misfit hbegins hlt hm⟩
      · exact .inr ⟨es, false, .broken hbegins hlt hm hr⟩
  · exact .inr ⟨[], false, .count hcount⟩

/-- Only a stream that holds records is accepted. -/
theorem exists_holds {bytes : List UInt8} {n : Nat} (h : (read roster state bytes).2 = .ok n) :
    ∃ es, Holds roster state.1 bytes es ∧ es.length = n := by
  rcases holds_or_defective roster state.1 bytes with ⟨es, hs⟩ | ⟨es, fatal, hd⟩
  · rw [hs.read_eq] at h
    cases h
    exact ⟨es, hs, rfl⟩
  · obtain ⟨f, hf, -⟩ := read_of_defective hd
    rw [hf] at h
    cases h

/-- Reading any bytes into any program and summaries.  They are accepted if and only if they hold records, after which
they have at least two bytes for each record and two more; if not, reading stops at the first defect, for good if and
only if that is a record about something else than a definition on the roster.  Either way exactly the records that come
before were applied. -/
theorem read_exact (roster : Roster) (state : Program × Summaries) (bytes : List UInt8) :
    (∀ after n, read roster state bytes = (after, .ok n) ↔
      ∃ es, Holds roster state.1 bytes es ∧ es.length = n ∧ Applied es state after) ∧
    (∀ n, (read roster state bytes).2 = .ok n → 2 * n + 2 ≤ bytes.length) ∧
    (∀ after fatal, (∃ f, read roster state bytes = (after, .error f) ∧ f.isFatal = fatal) ↔
      ∃ es, Defective roster state.1 bytes es fatal ∧ Applied es state after) := by
  refine ⟨fun after n => ⟨fun h => ?_, ?_⟩, fun n h => ?_, fun after fatal => ⟨?_, ?_⟩⟩
  · obtain ⟨es, hs, hn⟩ := exists_holds (congrArg Prod.snd h)
    rw [hs.read_eq] at h
    exact ⟨es, hs, hn, applied_iff.mpr (congrArg Prod.fst h).symm⟩
  · rintro ⟨es, hs, rfl, happlied⟩
    rw [hs.read_eq, applied_iff.mp happlied]
  · obtain ⟨es, hs, rfl⟩ := exists_holds h
    exact hs.length_le
  · rintro ⟨f, h, hfatal⟩
    rcases holds_or_defective roster state.1 bytes with ⟨es, hs⟩ | ⟨es, fatal', hd⟩
    · rw [hs.read_eq] at h
      cases h
    · obtain ⟨f', hf, rfl⟩ := read_of_defective hd
      rw [hf] at h
      cases h
      rw [← hfatal]
      exact ⟨es, hd, applied_iff.mpr rfl⟩
  · rintro ⟨es, hd, happlied⟩
    obtain ⟨f, hf, hfatal⟩ := read_of_defective hd
    exact ⟨f, by rw [hf, applied_iff.mp happlied], hfatal⟩

/-- A definition and a declaration. -/
def mixedItems : List (Source.Item String) :=
  [.function ⟨"f", [], [], {}, some [⟨"entry", [⟨none, .other "ret", []⟩]⟩]⟩, .function ⟨"g", [], [], {}, none⟩]

def mixedState : Program × Summaries := (Source.layOut mixedItems, ∅)

def mixedRoster : Roster := .ofNodes [0, 1]

/-- Two records about one function, the second with a place in two bytes; and a second record that is about a
declaration and is cut off after its place. -/
theorem read_exact_mixedState :
    ((∃ es, Holds mixedRoster mixedState.1 [2, 0, 10, 1, 104, 128, 0, 5, 0, 7] es ∧ es.length = 2 ∧
        Applied es mixedState (read mixedRoster mixedState [2, 0, 10, 1, 104, 128, 0, 5, 0, 7]).1) ∧
      2 * 2 + 2 ≤ [2, 0, 10, 1, 104, 128, 0, 5, 0, 7].length) ∧
    ∃ es, Defective mixedRoster mixedState.1 [2, 0, 10, 1, 104, 1] es true ∧
      Applied es mixedState (read mixedRoster mixedState [2, 0, 10, 1, 104, 1]).1 := by
  have hok : (read mixedRoster mixedState [2, 0, 10, 1, 104, 128, 0, 5, 0, 7]).2 = .ok 2 := by decide +kernel
  have hbad : (read mixedRoster mixedState [2, 0, 10, 1, 104, 1]).2 = .error ⟨6, .notDefinition 1 "g"⟩ := by
    decide +kernel
  exact ⟨⟨((read_exact mixedRoster mixedState _).1 _ 2).mp (Prod.ext rfl hok),
    (read_exact mixedRoster mixedState _).2.1 2 hok⟩,
    ((read_exact mixedRoster mixedState _).2.2 _ true).mp ⟨_, Prod.ext rfl hbad, rfl⟩⟩

end Accelerator.Stream
