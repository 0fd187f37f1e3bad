import Accelerator.Proofs.BitFields
import Accelerator.Stream.Summaries

/-!
# What is written can be read

`Reads r bytes a` says that the reader `r` takes the given bytes off the front of any stream and gives `a`.  It
holds of numbers, names and bit fields with the bytes that are written for them, and it is carried through a
composite reader part by part, up to a whole record (`reads_record`).  Numbers have to fit into 64 bits for it
(`IsNumber`); whatever can be read at all does (`isAbout_of_record`).  The other way round, each reader takes exactly
the bytes of its format (`Recognizes`): numbers, names and records.
-/

namespace Accelerator.Stream

open Scanner

/-- The reader takes these bytes off the front of a stream, whatever follows, and gives this value. -/
def Reads {α : Type} (r : Reader α) (bytes : List UInt8) (a : α) : Prop :=
  ∀ rest, r (bytes ++ rest) = .ok (a, rest)

private theorem reads_pure {α : Type} (a : α) : Reads (pure a) [] a := fun _ => rfl

private theorem Reads.bind {α β : Type} {r : Reader α} {f : α → Reader β} {bytes more : List UInt8} {a : α} {b : β}
    (hr : Reads r bytes a) (hf : Reads (f a) more b) : Reads (r >>= f) (bytes ++ more) b := by
  intro rest
  rw [bind_apply, List.append_assoc, hr]
  exact hf rest

/-- A reader that takes nothing does not show in the bytes. -/
private theorem Reads.bind_nil {α β : Type} {r : Reader α} {f : α → Reader β} {more : List UInt8} {a : α} {b : β}
    (hr : Reads r [] a) (hf : Reads (f a) more b) : Reads (r >>= f) more b := hr.bind hf

/-- The reader takes exactly the bytes of a format off the front of a stream, and gives the value they stand for. -/
def Recognizes {α : Type} (r : Reader α) (format : List UInt8 → α → Prop) : Prop :=
  ∀ s a rest, r s = .ok (a, rest) ↔ ∃ bytes, s = bytes ++ rest ∧ format bytes a

section

variable {α β : Type} {r : Reader α} {f : α → Reader β} {G : List UInt8 → α → Prop} {H : α → List UInt8 → β → Prop}

theorem Recognizes.reads (h : Recognizes r G) {bytes : List UInt8} {a : α} (hg : G bytes a) : Reads r bytes a :=
  fun _ => (h _ _ _).mpr ⟨bytes, rfl, hg⟩

private theorem recognizes_pure (a : α) : Recognizes (pure a) fun bytes b => bytes = [] ∧ b = a := by
  intro s b _
  constructor
  · intro h
    cases h
    exact ⟨[], rfl, rfl, rfl⟩
  · rintro ⟨_, rfl, rfl, rfl⟩
    rfl

private theorem Recognizes.bind (hr : Recognizes r G) (hf : ∀ a, Recognizes (f a) (H a)) :
    Recognizes (r >>= f) fun bytes b => ∃ first more a, bytes = first ++ more ∧ G first a ∧ H a more b := by
  intro s b rest
  rw [bind_eq_ok]
  constructor
  · rintro ⟨a, m, h₁, h₂⟩
    obtain ⟨first, rfl, hg⟩ := (hr _ _ _).mp h₁
    obtain ⟨more, rfl, hh⟩ := (hf a _ _ _).mp h₂
    exact ⟨first ++ more, (List.append_assoc ..).symm, first, more, a, rfl, hg, hh⟩
  · rintro ⟨_, rfl, first, more, a, rfl, hg, hh⟩
    exact ⟨a, more ++ rest, (hr _ _ _).mpr ⟨first, List.append_assoc .., hg⟩, (hf a _ _ _).mpr ⟨more, rfl, hh⟩⟩

end

/-! ### Numbers -/

/-- The bytes spell a number in base 128, the least significant digit first; every byte but the last has its high bit
set. -/
inductive Digits : List UInt8 → Nat → Prop
  | last {b : UInt8} (hb : b.toNat < 128) : Digits [b] b.toNat
  | more {b : UInt8} {bytes : List UInt8} {n : Nat} (hb : 128 ≤ b.toNat) (h : Digits bytes n) :
      Digits (b :: bytes) (b.toNat - 128 + 128 * n)

/-- The bytes stand for a number of 64 bits.  Digits that are zero may follow, up to ten bytes in all. -/
structure IsNumber (bytes : List UInt8) (n : Nat) : Prop where
  digits : Digits bytes n
  length : bytes.length ≤ 10
  lt : n < 2 ^ 64

theorem Digits.length_pos {bytes : List UInt8} {n : Nat} (h : Digits bytes n) : 0 < bytes.length := by
  cases h <;> simp

/-- A number is over at its first byte without the high bit, whatever follows. -/
theorem Digits.eq_of_append {b₁ b₂ r₁ r₂ : List UInt8} {m n : Nat} (h₁ : Digits b₁ m) (h₂ : Digits b₂ n)
    (h : b₁ ++ r₁ = b₂ ++ r₂) : b₁ = b₂ ∧ m = n := by
  induction h₁ generalizing b₂ n with
  | last hb =>
    cases h₂ with
    | last => simp_all
    | more hb' =>
      simp only [List.cons_append, List.cons.injEq] at h
      obtain ⟨rfl, -⟩ := h
      omega
  | more hb h₁ ih =>
    cases h₂ with
    | last hb' =>
      simp only [List.cons_append, List.cons.injEq] at h
      obtain ⟨rfl, -⟩ := h
      omega
    | more hb' h₂ =>
      simp only [List.cons_append, List.cons.injEq] at h
      obtain ⟨rfl, h⟩ := h
      obtain ⟨rfl, rfl⟩ := ih h₂ h
      exact ⟨rfl, rfl⟩

/-- Seven bits fewer are left at the next place. -/
private theorem lt_next_place {k d n : Nat} (hk : k ≤ 8) (hd : d < 128) :
    d + 128 * n < 2 ^ (64 - 7 * k) ↔ n < 2 ^ (64 - 7 * (k + 1)) := by
  have hpow : 2 ^ (64 - 7 * k) = 128 * 2 ^ (64 - 7 * (k + 1)) := by
    rw [show 64 - 7 * k = 7 + (64 - 7 * (k + 1)) by omega, Nat.pow_add]
  omega

/-- What a place has room for: seven bits, and a single one at the last place. -/
private theorem overflowsAt_eq_false {k : Nat} {b : UInt8} :
    overflowsAt k b = false ↔ k ≤ 9 ∧ (k = 9 → b.toNat % 128 < 2) := by
  simp only [overflowsAt, Bool.or_eq_false_iff, Bool.and_eq_false_iff, decide_eq_false_iff_not]
  omega

private theorem lt_of_place {k d : Nat} (hk : k ≤ 9) (hd : d < 128) (hlast : k = 9 → d < 2) : d < 2 ^ (64 - 7 * k) := by
  by_cases h9 : k = 9
  · subst h9
    simpa using hlast rfl
  · calc d < 2 ^ 7 := hd
      _ ≤ 2 ^ (64 - 7 * k) := Nat.pow_le_pow_right (by decide) (by omega)

/-- Exactly the digits are read that fit into what is left of ten bytes and 64 bits. -/
private theorem numberFrom_eq_ok {start s rest : List UInt8} {k n : Nat} :
    numberFrom start k s = .ok (n, rest) ↔
      ∃ bytes, s = bytes ++ rest ∧ Digits bytes n ∧ k + bytes.length ≤ 10 ∧ n < 2 ^ (64 - 7 * k) := by
  induction s generalizing k n with
  | nil =>
    constructor
    · intro h
      cases h
    · rintro ⟨bytes, hs, hdigits, -, -⟩
      have := hdigits.length_pos
      simp_all
  | cons b s ih =>
    constructor
    · intro h
      rw [numberFrom] at h
      split at h
      · cases h
      · rename_i hover
        obtain ⟨hk, hlast⟩ := overflowsAt_eq_false.mp (by simpa using hover)
        split at h
        · rename_i hb
          cases h
          exact ⟨[b], rfl, .last hb, by simp; omega, lt_of_place hk hb fun h9 => by have := hlast h9; omega⟩
        · rename_i hb
          split at h
          · rename_i high r' hrest
            cases h
            obtain ⟨bytes, rfl, hdigits, hlen, hlt⟩ := ih.mp hrest
            have hpos := hdigits.length_pos
            have hb' := b.toNat_lt
            refine ⟨b :: bytes, rfl, .more (by omega) hdigits, by simp; omega, ?_⟩
            exact (lt_next_place (by omega) (by omega)).mpr hlt
          · cases h
    · rintro ⟨bytes, hs, hdigits, hlen, hlt⟩
      cases hdigits with
      | last hb =>
        obtain ⟨rfl, rfl⟩ : b = _ ∧ s = rest := by simpa using hs
        have hok : overflowsAt k b = false := by
          refine overflowsAt_eq_false.mpr ⟨by simp at hlen; omega, fun h9 => ?_⟩
          subst h9
          have : b.toNat < 2 := by simpa using hlt
          omega
        simp [numberFrom, hok, hb]
      | @more b' bytes high hb hdigits =>
        obtain ⟨rfl, rfl⟩ : b = b' ∧ s = bytes ++ rest := by simpa using hs
        have hpos := hdigits.length_pos
        rw [List.length_cons] at hlen
        have hok : overflowsAt k b = false := overflowsAt_eq_false.mpr ⟨by omega, fun h9 => by omega⟩
        have hb' := b.toNat_lt
        have hhigh : numberFrom start (k + 1) (bytes ++ rest) = .ok (high, rest) :=
          ih.mpr ⟨bytes, rfl, hdigits, by omega, (lt_next_place (by omega) (by omega)).mp hlt⟩
        simp [numberFrom, hok, hb, hhigh]

/-- Exactly the numbers of 64 bits are read. -/
theorem recognizes_number : Recognizes number IsNumber := by
  intro s n rest
  rw [number, numberFrom_eq_ok]
  constructor
  · rintro ⟨bytes, hs, hdigits, hlen, hlt⟩
    exact ⟨bytes, hs, hdigits, by omega, hlt⟩
  · rintro ⟨bytes, hs, hdigits, hlen, hlt⟩
    exact ⟨bytes, hs, hdigits, by omega, hlt⟩

theorem digits_encodeNumber (n : Nat) : Digits (encodeNumber n) n := by
  fun_induction encodeNumber n with
  | case1 n hlt =>
    have hb : n.toUInt8.toNat = n := UInt8.toNat_ofNat_of_lt' (by rw [UInt8.size]; omega)
    have h := Digits.last (b := n.toUInt8) (by omega)
    rwa [hb] at h
  | case2 n hge ih =>
    have hb : (n % 128 + 128).toUInt8.toNat = n % 128 + 128 := UInt8.toNat_ofNat_of_lt' (by rw [UInt8.size]; omega)
    have h := Digits.more (b := (n % 128 + 128).toUInt8) (by omega) ih
    rwa [hb, show n % 128 + 128 - 128 + 128 * (n / 128) = n by omega] at h

private theorem length_encodeNumber_le {n k : Nat} (h : n < 2 ^ (7 * (k + 1))) : (encodeNumber n).length ≤ k + 1 := by
  induction k generalizing n with
  | zero =>
    rw [encodeNumber, if_pos (by omega)]
    simp
  | succ k ih =>
    rw [encodeNumber]
    split
    · simp
    · have hpow : 2 ^ (7 * (k + 1 + 1)) = 128 * 2 ^ (7 * (k + 1)) := by
        rw [show 7 * (k + 1 + 1) = 7 + 7 * (k + 1) by omega, Nat.pow_add]
      have := ih (n := n / 128) (by omega)
      simp only [List.length_cons]
      omega

theorem isNumber_encodeNumber {n : Nat} (h : n < 2 ^ 64) : IsNumber (encodeNumber n) n :=
  ⟨digits_encodeNumber n, length_encodeNumber_le (k := 9) (by omega), h⟩

theorem reads_number {n : Nat} (h : n < 2 ^ 64) : Reads number (encodeNumber n) n :=
  recognizes_number.reads (isNumber_encodeNumber h)

theorem lt_of_number {n : Nat} {rest : List UInt8} {x : Nat × List UInt8}
    (h : number (encodeNumber n ++ rest) = .ok x) : n < 2 ^ 64 := by
  obtain ⟨m, r⟩ := x
  obtain ⟨bytes, hs, hnumber⟩ := (recognizes_number _ _ _).mp h
  obtain ⟨-, rfl⟩ := (digits_encodeNumber n).eq_of_append hnumber.digits hs
  exact hnumber.lt

theorem encodeNumber_ne_nil (n : Nat) : encodeNumber n ≠ [] :=
  List.ne_nil_of_length_pos (digits_encodeNumber n).length_pos

/-! ### Bit fields -/

/-- Fields that fill at most 64 bits are read back from the bytes of their word, each less what its width does not hold,
and what follows is left.  No bit of the word is set above the fields. -/
theorem fields_read_back (fields : List (Nat × Nat)) (hwidth : ∀ field ∈ fields, 1 ≤ field.2 ∧ field.2 ≤ 63)
    (htotal : (fields.map Prod.snd).sum ≤ 64) (rest : List UInt8) :
    packFields fields < 2 ^ (fields.map Prod.snd).sum ∧
    ∃ word, number (encodeNumber (packFields fields) ++ rest) = .ok (word, rest) ∧
      unpackFields word (fields.map Prod.snd) = fields.map fun field => field.1 % 2 ^ field.2 := by
  have hroom : HasRoom 0 (fields.map Prod.snd) := ⟨List.forall_mem_map.mpr hwidth, by omega⟩
  have hlt := packFields_lt hroom
  have hword : packFields fields < 2 ^ 64 := hlt.trans_le (Nat.pow_le_pow_right (by decide) htotal)
  exact ⟨hlt, packFields fields, reads_number hword rest, unpackFields_packFields hroom⟩

/-- Three fields that fill the word, the first two with values that are too large for them. -/
theorem fields_read_back_full :
    packFields [(5, 2), (18446744073709551615, 61), (1, 1)] = 18446744073709551613 ∧
    packFields [(5, 2), (18446744073709551615, 61), (1, 1)] < 2 ^ 64 ∧
    ∃ word, number (encodeNumber (packFields [(5, 2), (18446744073709551615, 61), (1, 1)]) ++ [7]) = .ok (word, [7]) ∧
      unpackFields word [2, 61, 1] = [1, 2305843009213693951, 1] :=
  ⟨by decide, fields_read_back [(5, 2), (18446744073709551615, 61), (1, 1)] (by decide) (by decide) [7]⟩

/-- The widths of the fields of a record. -/
private theorem hasRoom_record : HasRoom 0 [2, 1, 1] := ⟨by decide, by decide⟩

/-- The fields of the word of a record. -/
theorem wordField_word (r : Record) :
    wordField r.word 0 = r.kind.code ∧ wordField r.word 1 = r.accelerator.toNat ∧
      wordField r.word 2 = r.bound.isSome.toNat := by
  have h : unpackFields r.word [2, 1, 1] =
      [r.kind.code % 2 ^ 2, r.accelerator.toNat % 2 ^ 1, r.bound.isSome.toNat % 2 ^ 1] :=
    unpackFields_packFields hasRoom_record
  have hk : r.kind.code < 4 := by cases r.kind <;> decide
  have ha := Bool.toNat_lt r.accelerator
  have hb := Bool.toNat_lt r.bound.isSome
  simp only [wordField, h, List.getD_cons_zero, List.getD_cons_succ]
  exact ⟨Nat.mod_eq_of_lt hk, Nat.mod_eq_of_lt ha, Nat.mod_eq_of_lt hb⟩

private theorem word_lt (r : Record) : r.word < 2 ^ 64 :=
  Nat.lt_of_lt_of_le (packFields_lt hasRoom_record)
    (Nat.pow_le_pow_right (by decide) (by decide : 2 + (1 + (1 + 0)) ≤ 64))

theorem ofCode?_code (k : Kind) : Kind.ofCode? k.code = some k := by
  cases k <;> rfl

/-- The fields of a number that may have more bits than the four that are used. -/
private theorem wordField_eq (w : Nat) :
    wordField w 0 = w % 4 ∧ (wordField w 1 != 0) = w.testBit 2 ∧ (wordField w 2 != 0) = w.testBit 3 := by
  have hword : w.toUInt64.toNat = w % 2 ^ 64 := UInt64.toNat_ofNat'
  have hfields : unpackFields w [2, 1, 1] = [w % 4, w / 4 % 2, w / 8 % 2] := by
    simp only [unpackFields, BitPack.fields, List.map_cons, List.map_nil,
      BitPack.toNat_next w.toUInt64 (by decide : 2 ≤ 63) (by decide : 0 ≤ 63),
      BitPack.toNat_next w.toUInt64 (by decide : 1 ≤ 63) (by decide : 0 + 2 ≤ 63),
      BitPack.toNat_next w.toUInt64 (by decide : 1 ≤ 63) (by decide : 0 + 2 + 1 ≤ 63), hword, List.cons.injEq, and_true]
    omega
  refine ⟨by simp [wordField, hfields], ?_, ?_⟩
  · simp [wordField, hfields, Nat.testBit_eq_decide_div_mod_eq, beq_eq_decide]
  · simp [wordField, hfields, Nat.testBit_eq_decide_div_mod_eq, beq_eq_decide]

private theorem ofCode?_eq_some {code : Nat} {k : Kind} : Kind.ofCode? code = some k ↔ code = k.code := by
  constructor
  · intro h
    unfold Kind.ofCode? at h
    split at h <;> cases h <;> rfl
  · rintro rfl
    exact ofCode?_code k

/-! ### Names -/

private theorem ofUtf8?_utf8 (t : String) : ofUtf8? (utf8 t) = some t := by
  simp only [ofUtf8?, utf8, Array.toArray_toList, String.fromUTF8?]
  exact dif_pos t.isValidUTF8

/-- The bytes of a text are the only ones that stand for it. -/
private theorem ofUtf8?_eq_some {bytes : List UInt8} {t : String} : ofUtf8? bytes = some t ↔ bytes = utf8 t := by
  constructor
  · intro h
    simp only [ofUtf8?, String.fromUTF8?] at h
    split at h
    · cases h
      rfl
    · cases h
  · rintro rfl
    exact ofUtf8?_utf8 t

/-- The bytes of a name: their number, and then so many bytes of well-formed UTF-8. -/
def IsName (bytes : List UInt8) (title : String) : Prop :=
  ∃ size, bytes = size ++ utf8 title ∧ IsNumber size (utf8 title).length

theorem recognizes_text (size : Nat) : Recognizes (text size) fun bytes t => bytes = utf8 t ∧ bytes.length = size := by
  intro s t rest
  unfold text
  constructor
  · intro h
    split at h
    · cases h
    · rename_i hlen
      split at h
      · cases h
      · rename_i t' ht
        cases h
        rw [ofUtf8?_eq_some] at ht
        exact ⟨s.take size, (List.take_append_drop size s).symm, ht, by rw [List.length_take]; omega⟩
  · rintro ⟨_, rfl, rfl, rfl⟩
    simp [ofUtf8?_utf8]

private theorem recognizes_name : Recognizes name IsName := by
  intro s t rest
  rw [name, (recognizes_number.bind recognizes_text) s t rest]
  constructor
  · rintro ⟨_, hs, first, _, size, rfl, hsize, rfl, rfl⟩
    exact ⟨_, hs, first, rfl, hsize⟩
  · rintro ⟨_, hs, size, rfl, hsize⟩
    exact ⟨_, hs, size, _, _, rfl, hsize, rfl, rfl⟩

private theorem isName_encodeName {t : String} (h : (utf8 t).length < 2 ^ 64) : IsName (encodeName t) t :=
  ⟨_, rfl, isNumber_encodeNumber h⟩

/-! ### Records -/

/-- The bytes of the bound function: a name if there is one, and else nothing. -/
def IsBoundName (bytes : List UInt8) : Option String → Prop
  | none => bytes = []
  | some title => IsName bytes title

/-- The bytes of a record: its place, a number that has the kind in its two low bits, the side in the next one and
whether the function is bound in the fourth, and the name of the bound function if there is one. -/
def IsRecord (bytes : List UInt8) (r : Record) : Prop :=
  ∃ place word bound w, bytes = place ++ word ++ bound ∧ IsNumber place r.place ∧ IsNumber word w ∧
    w % 4 = r.kind.code ∧ w.testBit 2 = r.accelerator ∧ w.testBit 3 = r.bound.isSome ∧ IsBoundName bound r.bound

private theorem recognizes_boundName (isBound : Bool) :
    Recognizes (boundName isBound) fun bytes bound => bound.isSome = isBound ∧ IsBoundName bytes bound := by
  intro s bound rest
  cases isBound with
  | false =>
    rw [show boundName false = pure none from rfl, recognizes_pure none s bound rest]
    constructor
    · rintro ⟨bytes, hs, rfl, rfl⟩
      exact ⟨[], hs, rfl, rfl⟩
    · rintro ⟨bytes, hs, hnone, hbound⟩
      obtain rfl : bound = none := by simpa using hnone
      exact ⟨bytes, hs, hbound, rfl⟩
  | true =>
    rw [show boundName true = (name >>= fun title => pure (some title)) from rfl,
      (recognizes_name.bind fun title => recognizes_pure (some title)) s bound rest]
    constructor
    · rintro ⟨_, hs, first, _, title, rfl, hname, rfl, rfl⟩
      exact ⟨_, hs, rfl, by rwa [List.append_nil]⟩
    · rintro ⟨bytes, hs, hsome, hbound⟩
      obtain ⟨title, rfl⟩ := Option.isSome_iff_exists.mp hsome
      exact ⟨bytes, hs, bytes, [], title, (List.append_nil _).symm, hbound, rfl, rfl⟩

private theorem reads_refuse {condition : Bool} (h : condition = false) (cause : Cause) :
    Reads (refuse condition cause) [] () := by
  subst h
  exact reads_pure ()

/-- Exactly the records of definitions on the roster are read. -/
theorem recognizes_record (roster : Roster) (p : Program) :
    Recognizes (record roster p) fun bytes x => IsRecord bytes x.2 ∧ roster.node? x.2.place = some x.1 ∧
      (p.function x.1).flags.definition = true := by
  rintro s ⟨n, r⟩ rest
  constructor
  · intro h
    obtain ⟨place, s₁, hnumber, hbody⟩ := bind_eq_ok.mp h
    obtain ⟨first, rfl, hplace⟩ := (recognizes_number _ _ _).mp hnumber
    cases hnode : roster.node? place with
    | none =>
      rw [hnode] at hbody
      cases hbody
    | some m =>
      simp only [hnode] at hbody
      obtain ⟨u, s₂, hdefined, hfields⟩ := bind_eq_ok.mp hbody
      have hdef : (p.function m).flags.definition = true := by
        cases hd : (p.function m).flags.definition with
        | true => rfl
        | false =>
          rw [hd] at hdefined
          cases hdefined
      rw [hdef] at hdefined
      cases hdefined
      obtain ⟨w, s₃, hnumber', hname⟩ := bind_eq_ok.mp hfields
      obtain ⟨word, rfl, hword⟩ := (recognizes_number _ _ _).mp hnumber'
      obtain ⟨h₀, h₁, h₂⟩ := wordField_eq w
      rw [h₀, h₁, h₂] at hname
      cases hkind : Kind.ofCode? (w % 4) with
      | none =>
        rw [hkind] at hname
        cases hname
      | some kind =>
        simp only [hkind] at hname
        obtain ⟨bound, s₄, hbound, hpure⟩ := bind_eq_ok.mp hname
        cases hpure
        obtain ⟨last, rfl, hsome, hlast⟩ := (recognizes_boundName _ _ _ _).mp hbound
        exact ⟨first ++ word ++ last, by simp, ⟨first, word, last, w, rfl, hplace, hword, ofCode?_eq_some.mp hkind, rfl,
          hsome.symm, hlast⟩, hnode, hdef⟩
  · rintro ⟨_, rfl, ⟨place, word, name, w, rfl, hplace, hword, hkind, hside, hsome, hname⟩, hnode, hdef⟩
    obtain ⟨h₀, h₁, h₂⟩ := wordField_eq w
    have hbound := (recognizes_boundName r.bound.isSome).reads ⟨rfl, hname⟩
    have hreads : Reads (record roster p) (place ++ word ++ name) (n, r) := by
      unfold record
      rw [List.append_assoc]
      refine (recognizes_number.reads hplace).bind ?_
      simp only [hnode]
      refine (reads_refuse (by rw [hdef]; rfl) _).bind_nil ((recognizes_number.reads hword).bind ?_)
      rw [h₀, h₁, h₂, hkind, hside, hsome, ofCode?_code]
      rw [← List.append_nil name]
      exact hbound.bind (reads_pure _)
    exact hreads rest

/-- A record is about the function at a node: it has the place of the node on the roster, and its numbers fit into
64 bits. -/
structure Record.IsAbout (r : Record) (roster : Roster) (n : Node) : Prop where
  node : roster.node? r.place = some n
  place : r.place < 2 ^ 64
  bound : ∀ t, r.bound = some t → (utf8 t).length < 2 ^ 64

variable {r : Record} {roster : Roster} {p : Program} {n : Node}

theorem isRecord_encode (h : r.IsAbout roster n) : IsRecord r.encode r := by
  obtain ⟨hk, ha, hb⟩ := wordField_word r
  obtain ⟨h₀, h₁, h₂⟩ := wordField_eq r.word
  have hbit : ∀ b : Bool, (b.toNat != 0) = b := by decide
  refine ⟨_, _, _, r.word, rfl, isNumber_encodeNumber h.place, isNumber_encodeNumber (word_lt r), ?_, ?_, ?_, ?_⟩
  · rw [← h₀, hk]
  · rw [← h₁, ha, hbit]
  · rw [← h₂, hb, hbit]
  · cases hbound : r.bound with
    | none => rfl
    | some t => exact isName_encodeName (h.bound t hbound)

/-- A record about a definition is read back as it was written. -/
theorem reads_record (h : r.IsAbout roster n) (hd : (p.function n).flags.definition = true) :
    Reads (record roster p) r.encode (n, r) :=
  (recognizes_record roster p).reads ⟨isRecord_encode h, h.node, hd⟩

/-- A record about a function that is not a definition is refused. -/
theorem record_declaration (h : r.IsAbout roster n) (hd : (p.function n).flags.definition = false)
    (rest : List UInt8) : ∃ s, record roster p (r.encode ++ rest) = .error ⟨s, .notDefinition r.place (p.name n)⟩ := by
  refine ⟨encodeNumber r.word ++ ((r.bound.map encodeName).getD [] ++ rest), ?_⟩
  unfold record Record.encode
  rw [bind_apply, List.append_assoc, List.append_assoc, reads_number h.place]
  simp only [h.node]
  rw [bind_apply, hd]
  rfl

/-- If what was written for a record can be read, then its numbers fit into 64 bits and it is about a definition. -/
theorem isAbout_of_record (hnode : roster.node? r.place = some n) {rest : List UInt8} {x : (Node × Record) × List UInt8}
    (h : record roster p (r.encode ++ rest) = .ok x) :
    r.IsAbout roster n ∧ (p.function n).flags.definition = true := by
  obtain ⟨hk, -, hb⟩ := wordField_word r
  unfold record Record.encode at h
  rw [List.append_assoc, List.append_assoc] at h
  obtain ⟨place, r₁, hplace, h⟩ := bind_eq_ok.mp h
  have hlt := lt_of_number hplace
  rw [reads_number hlt] at hplace
  cases hplace
  simp only [hnode] at h
  obtain ⟨u, r₂, hrefuse, h⟩ := bind_eq_ok.mp h
  have hdef : (p.function n).flags.definition = true := by
    cases hd : (p.function n).flags.definition with
    | true => rfl
    | false =>
      rw [hd] at hrefuse
      cases hrefuse
  rw [hdef] at hrefuse
  cases hrefuse
  obtain ⟨word, r₃, hword, h⟩ := bind_eq_ok.mp h
  rw [reads_number (word_lt r)] at hword
  cases hword
  rw [hk, ofCode?_code] at h
  obtain ⟨bound, r₄, hbound, -⟩ := bind_eq_ok.mp h
  refine ⟨⟨hnode, hlt, fun t ht => ?_⟩, hdef⟩
  rw [hb, ht] at hbound
  obtain ⟨title, r₅, hname, -⟩ := bind_eq_ok.mp hbound
  simp only [Option.map_some, Option.getD_some, encodeName, List.append_assoc] at hname
  obtain ⟨size, r₆, hsize, -⟩ := bind_eq_ok.mp hname
  exact lt_of_number hsize

end Accelerator.Stream
