import Accelerator.Program.Layout
import Accelerator.Program.Printer
import Accelerator.Proofs.Tokens

/-!
# Immediate operands

A number is read up to the last of its digits, so it is read as it was written (`Spells`) exactly if what follows does
not go on it (`Ends`): no digit may follow, and after a lone zero no letter that makes it the mark of a hexadecimal
number.  The magnitude is read without the sign and has to be less than `2 ^ 63` (`Spells.number_eq_ok_iff`).  Thus the
least number of 64 bits can be printed, but not read.
-/

namespace Accelerator

namespace Source

open Scanner

variable {s u ds rest : List Char} {negative : Bool} {base n : Nat} {v : Int}

/-! ### Digits -/

private theorem digitValue_digitChar {d : Nat} (h : d < 16) : digitValue d.digitChar = d :=
  (by decide : ∀ d < 16, digitValue d.digitChar = d) d h

private theorem digitsValue_concat (base : Nat) (ds : List Char) (d : Char) :
    digitsValue base (ds ++ [d]) = digitsValue base ds * base + digitValue d := by
  simp [digitsValue]

/-- The digits of a number have its value. -/
private theorem digitsValue_toDigits (hbase : 1 < base) (hle : base ≤ 16) (n : Nat) :
    digitsValue base (Nat.toDigits base n) = n := by
  induction n using Nat.strong_induction_on with
  | _ n ih =>
    by_cases hlt : n < base
    · rw [Nat.toDigits_of_lt_base hlt]
      simp [digitsValue, digitValue_digitChar (hlt.trans_le hle)]
    · have hdiv : n / base < n := Nat.div_lt_self (by omega) hbase
      have hmod : n % base < base := Nat.mod_lt n (by omega)
      rw [Nat.toDigits_of_base_le hbase (Nat.le_of_not_lt hlt), digitsValue_concat, ih _ hdiv,
        digitValue_digitChar (hmod.trans_le hle), Nat.div_add_mod']

private theorem isDigit_of_mem_toDigits {d : Char} (h : d ∈ Nat.toDigits 10 n) : d.isDigit = true :=
  Nat.isDigit_of_mem_toDigits (by decide) (by decide) h

private theorem toDigits_eq_zero (h : Nat.toDigits 10 n = ['0']) : n = 0 := by
  rw [← digitsValue_toDigits (by decide : 1 < 10) (by decide) n, h]
  decide

private theorem isDigitIn_ten (c : Char) : isDigitIn 10 c = c.isDigit := by simp [isDigitIn]

/-! ### Numbers -/

/-- Digits are not taken for the mark of a hexadecimal number, unless they are a zero before a letter of the mark. -/
private theorem splitBase_digits (hds : ∀ d ∈ ds, d.isDigit = true) (hne : ds ≠ [])
    (hr : ds = ['0'] → ∀ c ∈ rest.head?, c ≠ 'x' ∧ c ≠ 'X') : splitBase (ds ++ rest) = (10, ds ++ rest) := by
  have hmark : ∀ x, (x = 'x' ∨ x = 'X') → ∀ r, ds ++ rest ≠ '0' :: x :: r := by
    intro x hx r he
    match ds, hne with
    | [d], _ =>
      obtain ⟨rfl, hrest⟩ : d = '0' ∧ rest = x :: r := by simpa using he
      have hother := hr rfl x (by rw [hrest]; rfl)
      rcases hx with rfl | rfl
      · exact hother.1 rfl
      · exact hother.2 rfl
    | d :: d' :: ds, _ =>
      obtain ⟨-, he⟩ := List.cons.inj he
      obtain ⟨rfl, -⟩ := List.cons.inj he
      have hdigit := hds d' (by simp)
      rcases hx with rfl | rfl <;> exact absurd hdigit (by decide)
  unfold splitBase
  split
  · rename_i r he
    exact absurd he (hmark 'x' (.inl rfl) r)
  · rename_i r he
    exact absurd he (hmark 'X' (.inr rfl) r)
  · rfl

/-- A number is read up to the end of its digits, if it is not too large. -/
private theorem number_digits (hs : splitSign s = (negative, u)) (hu : splitBase u = (base, ds ++ rest)) (hne : ds ≠ [])
    (hds : ∀ d ∈ ds, isDigitIn base d = true) (hr : ∀ c ∈ rest.head?, isDigitIn base c = false) :
    number s = if digitsValue base ds ≤ maxMagnitude then
      .ok (if negative then -(digitsValue base ds : Int) else digitsValue base ds, rest)
    else .error ⟨rest, .numberTooLarge⟩ := by
  obtain ⟨htake, hdrop⟩ := takeWhile_dropWhile_stop hds hr
  have hempty : ds.isEmpty = false := List.isEmpty_eq_false_iff.mpr hne
  simp only [number, hs, hu, htake, hdrop, hempty, Bool.false_eq_true, if_false]

private theorem rest_of_number (h : number s = .ok (v, rest)) :
    rest = (splitBase (splitSign s).2).2.dropWhile (isDigitIn (splitBase (splitSign s).2).1) := by
  simp only [number] at h
  split at h
  · cases h
  · split at h <;> cases h
    rfl

/-- A number is read up to its last digit, so none is left. -/
private theorem stops_of_number (hs : splitSign s = (negative, u)) (hu : splitBase u = (base, ds ++ rest))
    (hds : ∀ d ∈ ds, isDigitIn base d = true) (h : number s = .ok (v, rest)) :
    ∀ c ∈ rest.head?, isDigitIn base c = false := by
  intro c hc
  by_contra hdigit
  obtain ⟨r, rfl⟩ := List.head?_eq_some_iff.mp hc
  have hrest := rest_of_number h
  rw [hs, hu, List.dropWhile_append_of_pos hds, List.dropWhile_cons_of_pos (by simpa using hdigit)] at hrest
  have hlen := length_dropWhile_le (isDigitIn base) r
  rw [← hrest, List.length_cons] at hlen
  omega

/-- The letter of the mark after a zero is not left, either. -/
private theorem number_zero_mark {c : Char} (hc : c = 'x' ∨ c = 'X') (r : List Char) :
    number ('0' :: c :: r) ≠ .ok (v, c :: r) := by
  intro h
  have hbase : splitBase (splitSign ('0' :: c :: r)).2 = (16, r) := by rcases hc with rfl | rfl <;> rfl
  have hrest := rest_of_number h
  have hlen := length_dropWhile_le (isDigitIn 16) r
  rw [hbase] at hrest
  rw [← hrest, List.length_cons] at hlen
  omega

/-! ### Signs -/

/-- The sign of a number as it is written. -/
def signText (v : Int) : List Char := if v < 0 then ['-'] else []

private theorem toList_toString (v : Int) : (toString v).toList = signText v ++ Nat.toDigits 10 v.natAbs := by
  cases v with
  | ofNat n => exact String.toList_ofList
  | negSucc n =>
    change ("-" ++ String.ofList (Nat.toDigits 10 (n + 1))).toList = _
    rw [signText, if_pos (Int.negSucc_lt_zero n)]
    simp

/-- The sign is split off what begins with a digit. -/
private theorem splitSign_signText (v : Int) {c : Char} (hc : c.isDigit = true) (r : List Char) :
    splitSign (signText v ++ c :: r) = (decide (v < 0), c :: r) := by
  by_cases hneg : v < 0
  · rw [signText, if_pos hneg, decide_eq_true hneg]
    rfl
  · rw [signText, if_neg hneg, decide_eq_false hneg, List.nil_append]
    unfold splitSign
    split
    · rename_i he
      exact absurd (List.cons.inj he).1 (digit_facts hc).2.2.1
    · rfl

private theorem signed_natAbs (v : Int) : (if decide (v < 0) = true then -(v.natAbs : Int) else v.natAbs) = v := by
  by_cases hneg : v < 0
  · rw [if_pos (decide_eq_true hneg)]
    omega
  · rw [if_neg (by simpa using hneg)]
    omega

/-- A signed number begins with its sign or with a digit. -/
private theorem exists_cons_signText (v : Int) {c : Char} (hc : c.isDigit = true) (r : List Char) :
    ∃ d t, signText v ++ c :: r = d :: t ∧ (d = '-' ∨ d.isDigit = true) := by
  unfold signText
  split
  · exact ⟨'-', c :: r, rfl, .inl rfl⟩
  · exact ⟨c, r, rfl, .inr hc⟩

private theorem exists_cons_toDigits (n : Nat) : ∃ c r, Nat.toDigits 10 n = c :: r ∧ c.isDigit = true := by
  obtain ⟨c, r, hcons⟩ := List.exists_cons_of_ne_nil (Nat.toDigits_ne_nil (n := n) (b := 10))
  exact ⟨c, r, hcons, isDigit_of_mem_toDigits (by rw [hcons]; exact List.mem_cons_self)⟩

theorem exists_cons_toString (v : Int) : ∃ c r, (toString v).toList = c :: r ∧ (c = '-' ∨ c.isDigit = true) := by
  obtain ⟨c, r, hcons, hc⟩ := exists_cons_toDigits v.natAbs
  rw [toList_toString, hcons]
  exact exists_cons_signText v hc r

/-! ### Hexadecimal digits -/

/-- The characters spell a number in base sixteen: its digits with letters of either case, and any zeros before them. -/
def IsHex (ds : List Char) (n : Nat) : Prop :=
  ∃ zeros, ds.map Char.toLower = List.replicate zeros '0' ++ Nat.toDigits 16 n

private theorem isDigitIn_sixteen_iff {c : Char} : isDigitIn 16 c = true ↔
    (48 ≤ c.toNat ∧ c.toNat ≤ 57) ∨ (97 ≤ c.toNat ∧ c.toNat ≤ 102) ∨ (65 ≤ c.toNat ∧ c.toNat ≤ 70) := by
  simp [isDigitIn, Char.isDigit, Char.le_def, UInt32.le_iff_toNat_le]

private theorem digitValue_eq (c : Char) : digitValue c =
    if 48 ≤ c.toNat ∧ c.toNat ≤ 57 then c.toNat - 48
    else if c.toNat ≤ 70 then c.toNat - 65 + 10
    else c.toNat - 97 + 10 := by
  simp [digitValue, Char.isDigit, Char.le_def, UInt32.le_iff_toNat_le]

private theorem toNat_toLower (c : Char) :
    c.toLower.toNat = if 65 ≤ c.toNat ∧ c.toNat ≤ 90 then c.toNat + 32 else c.toNat := by
  have hupper : (c.val ≥ 'A'.val ∧ c.val ≤ 'Z'.val) ↔ 65 ≤ c.toNat ∧ c.toNat ≤ 90 := by
    simp [UInt32.le_iff_toNat_le]
  unfold Char.toLower
  split
  · rename_i h
    have hrange := hupper.mp h
    rw [if_pos hrange]
    change (c.val + 32).toNat = c.toNat + 32
    rw [UInt32.toNat_add, Char.toNat_val]
    exact Nat.mod_eq_of_lt (by change c.toNat + 32 < 2 ^ 32; omega)
  · rename_i h
    rw [if_neg (mt hupper.mpr h)]

/-- A letter is the same digit in either case. -/
private theorem isDigitIn_of_toLower {c : Char} (h : isDigitIn 16 c.toLower = true) :
    isDigitIn 16 c = true ∧ digitValue c.toLower = digitValue c := by
  rw [isDigitIn_sixteen_iff, toNat_toLower] at h
  rw [isDigitIn_sixteen_iff, digitValue_eq, digitValue_eq, toNat_toLower]
  split at h <;> split_ifs <;> omega

private theorem isDigitIn_of_mem_toDigits {d : Char} (h : d ∈ Nat.toDigits 16 n) : isDigitIn 16 d = true := by
  have htable : ∀ k < 16, isDigitIn 16 k.digitChar = true := by decide
  induction n using Nat.strong_induction_on with
  | _ n ih =>
    by_cases hlt : n < 16
    · rw [Nat.toDigits_of_lt_base hlt, List.mem_singleton] at h
      exact h ▸ htable n hlt
    · rw [Nat.toDigits_of_base_le (by decide) (Nat.le_of_not_lt hlt), List.mem_append, List.mem_singleton] at h
      rcases h with h | h
      · exact ih _ (Nat.div_lt_self (by omega) (by decide)) h
      · exact h ▸ htable _ (Nat.mod_lt n (by decide))

private theorem digitsValue_zeros (base zeros : Nat) (ds : List Char) :
    digitsValue base (List.replicate zeros '0' ++ ds) = digitsValue base ds := by
  induction zeros with
  | zero => rfl
  | succ zeros ih =>
    rw [← ih, List.replicate_succ, List.cons_append, digitsValue, List.foldl_cons]
    simp [digitsValue, digitValue]

private theorem IsHex.ne_nil (h : IsHex ds n) : ds ≠ [] := by
  obtain ⟨zeros, hds⟩ := h
  rintro rfl
  exact Nat.toDigits_ne_nil (List.append_eq_nil_iff.mp hds.symm).2

private theorem IsHex.isDigitIn_toLower (h : IsHex ds n) {d : Char} (hd : d ∈ ds) : isDigitIn 16 d.toLower = true := by
  obtain ⟨zeros, hds⟩ := h
  have hmem := List.mem_map_of_mem (f := Char.toLower) hd
  rw [hds, List.mem_append] at hmem
  rcases hmem with hzero | hdigit
  · rw [List.eq_of_mem_replicate hzero]
    decide
  · exact isDigitIn_of_mem_toDigits hdigit

private theorem IsHex.digitsValue (h : IsHex ds n) : Source.digitsValue 16 ds = n := by
  have hlower : Source.digitsValue 16 (ds.map Char.toLower) = Source.digitsValue 16 ds := by
    rw [Source.digitsValue, Source.digitsValue, List.foldl_map]
    refine List.foldl_ext _ _ _ fun k d hd => ?_
    rw [(isDigitIn_of_toLower (h.isDigitIn_toLower hd)).2]
  obtain ⟨zeros, hds⟩ := h
  rw [← hlower, hds, digitsValue_zeros, digitsValue_toDigits (by decide) (by decide)]

/-! ### Written numbers -/

/-- The ways to write a number: in base ten, or in base sixteen after its mark. -/
inductive Spells (v : Int) : Nat → List Char → Prop
  | decimal : Spells v 10 (toString v).toList
  | hex {mark : Char} {ds : List Char} (hmark : mark = 'x' ∨ mark = 'X') (hds : IsHex ds v.natAbs) :
      Spells v 16 (signText v ++ '0' :: mark :: ds)

/-- What follows a number goes on neither its digits nor, after a zero, the mark of a hexadecimal number. -/
def Ends (base : Nat) (text rest : List Char) : Prop :=
  ∀ c ∈ rest.head?, isDigitIn base c = false ∧ (text = ['0'] → c ≠ 'x' ∧ c ≠ 'X')

namespace Spells

variable {text : List Char}

private theorem exists_cons (h : Spells v base text) : ∃ c r, text = c :: r ∧ (c = '-' ∨ c.isDigit = true) := by
  cases h with
  | decimal => exact exists_cons_toString v
  | hex => exact exists_cons_signText v (by decide) _

/-- The sign, the base and the digits of a written number. -/
private theorem exists_digits (h : Spells v base text) (hmark : text = ['0'] → ∀ c ∈ rest.head?, c ≠ 'x' ∧ c ≠ 'X') :
    ∃ u ds, splitSign (text ++ rest) = (decide (v < 0), u) ∧ splitBase u = (base, ds ++ rest) ∧ ds ≠ [] ∧
      (∀ d ∈ ds, isDigitIn base d = true) ∧ digitsValue base ds = v.natAbs := by
  cases h with
  | decimal =>
    have hdigits : ∀ d ∈ Nat.toDigits 10 v.natAbs, d.isDigit = true := fun d hd => isDigit_of_mem_toDigits hd
    have hzero : Nat.toDigits 10 v.natAbs = ['0'] → ∀ c ∈ rest.head?, c ≠ 'x' ∧ c ≠ 'X' := by
      intro he
      obtain rfl : v = 0 := Int.natAbs_eq_zero.mp (toDigits_eq_zero he)
      exact hmark (by decide)
    obtain ⟨c, r, hcons, hc⟩ := exists_cons_toDigits v.natAbs
    refine ⟨Nat.toDigits 10 v.natAbs ++ rest, Nat.toDigits 10 v.natAbs, ?_,
      splitBase_digits hdigits Nat.toDigits_ne_nil hzero, Nat.toDigits_ne_nil,
      fun d hd => (isDigitIn_ten d).trans (hdigits d hd), digitsValue_toDigits (by decide) (by decide) _⟩
    rw [toList_toString, hcons, List.append_assoc, List.cons_append]
    exact splitSign_signText v hc _
  | @hex mark ds hletter hds =>
    refine ⟨'0' :: mark :: (ds ++ rest), ds, ?_, ?_, hds.ne_nil,
      fun d hd => (isDigitIn_of_toLower (hds.isDigitIn_toLower hd)).1, hds.digitsValue⟩
    · rw [List.append_assoc]
      exact splitSign_signText v (by decide) _
    · rcases hletter with rfl | rfl <;> rfl

/-- A written number is read up to its end, if it is not too large. -/
private theorem number_eq (h : Spells v base text) (hends : Ends base text rest) :
    number (text ++ rest) =
      if v.natAbs ≤ maxMagnitude then .ok (v, rest) else .error ⟨rest, .numberTooLarge⟩ := by
  obtain ⟨u, ds, hsign, hbase, hne, hds, hvalue⟩ := h.exists_digits fun hzero c hc => (hends c hc).2 hzero
  rw [number_digits hsign hbase hne hds fun c hc => (hends c hc).1, hvalue, signed_natAbs]

private theorem ends_of_number (h : Spells v base text) (hread : number (text ++ rest) = .ok (v, rest)) :
    Ends base text rest := by
  have hmark : text = ['0'] → ∀ c ∈ rest.head?, c ≠ 'x' ∧ c ≠ 'X' := by
    rintro rfl c hc
    obtain ⟨r, rfl⟩ := List.head?_eq_some_iff.mp hc
    exact not_or.mp fun hletter => number_zero_mark hletter r hread
  obtain ⟨u, ds, hsign, hbase, -, hds, -⟩ := h.exists_digits hmark
  exact fun c hc => ⟨stops_of_number hsign hbase hds hread c hc, fun hzero => hmark hzero c hc⟩

theorem number_eq_ok_iff (h : Spells v base text) :
    number (text ++ rest) = .ok (v, rest) ↔ v.natAbs ≤ maxMagnitude ∧ Ends base text rest := by
  constructor
  · intro hread
    have hends := h.ends_of_number hread
    refine ⟨?_, hends⟩
    rw [h.number_eq hends] at hread
    split at hread
    · assumption
    · cases hread
  · rintro ⟨hle, hends⟩
    rw [h.number_eq hends, if_pos hle]

end Spells

/-- Where a name would end, a number in base ten does, too. -/
theorem Stops.ends (hr : Stops rest) (text : List Char) : Ends 10 text rest := by
  intro c hc
  have hstop := hr c hc
  refine ⟨?_, fun _ => ?_⟩
  · rw [isDigitIn_ten]
    by_contra hdigit
    have hgoes := (digit_facts (by simpa using hdigit)).1
    rw [hstop] at hgoes
    cases hgoes
  · constructor <;> rintro rfl <;> exact absurd hstop (by decide)

/-! ### Operands -/

/-- What begins with a sign or a digit is read as an immediate operand. -/
private theorem operand_number {c : Char} {r : List Char} (hc : c = '-' ∨ c.isDigit = true) :
    operand (c :: r) = (number >>= fun n => pure (.immediate n)) (c :: r) := by
  have hblank : Text.isBlank c = false := by
    rcases hc with rfl | hdigit
    · decide
    · exact (digit_facts hdigit).2.1
  have hnumber : (c == '-' || c.isDigit) = true := by simpa using hc
  have hskip : inlineBlanks (c :: r) = .ok ((), c :: r) := by rw [inlineBlanks, skip, dropInline_cons hblank]
  have hpeek : peek (ε := Cause) (c :: r) = .ok (some c, c :: r) := rfl
  rw [operand, bind_apply, hskip]
  dsimp only
  rw [bind_apply, hpeek]
  refine congrFun ?_ (c :: r)
  split
  · rename_i he
    cases he
    exact absurd hnumber (by decide)
  · rename_i he
    cases he
    exact absurd hnumber (by decide)
  · rename_i he
    cases he
    exact absurd hnumber (by decide)
  · rename_i he
    cases he
    rw [if_pos hnumber]
  · rename_i he
    cases he

theorem operand_eq_ok_iff (hs : ∃ c r, s = c :: r ∧ (c = '-' ∨ c.isDigit = true)) :
    operand s = .ok (.immediate v, rest) ↔ number s = .ok (v, rest) := by
  obtain ⟨c, r, rfl, hc⟩ := hs
  rw [operand_number hc, bind_eq_ok]
  constructor
  · rintro ⟨a, m, hnumber, hpure⟩
    cases hpure
    exact hnumber
  · exact fun h => ⟨v, rest, h, rfl⟩

private theorem operand_of_error {e : Halt Char Cause} (hs : ∃ c r, s = c :: r ∧ (c = '-' ∨ c.isDigit = true))
    (h : number s = .error e) : operand s = .error e := by
  obtain ⟨c, r, rfl, hc⟩ := hs
  rw [operand_number hc, bind_apply, h]

private theorem natAbs_le_maxMagnitude_iff (v : Int64) : v.toInt.natAbs ≤ maxMagnitude ↔ v ≠ Int64.minValue := by
  have hmax : maxMagnitude = 2 ^ 63 - 1 := by decide
  have hmin : Int64.minValue.toInt = -2 ^ 63 := by decide
  have hlo := v.le_toInt
  have hhi := v.toInt_lt
  rw [ne_eq, ← Int64.toInt_inj, hmin, hmax]
  omega

/-- The text of a number of 64 bits is read back, whatever follows it and however it is written, exactly if what
follows does not go on the number and it is not the least one.  That one is too large to be read. -/
theorem immediates_read_back (p : Program) (v : Int64) (rest : List Char) :
    Spells v.toInt 10 (p.renderOperand (.immediate v.toInt)).toList ∧
      ∀ base text, Spells v.toInt base text →
        (operand (text ++ rest) = .ok (.immediate v.toInt, rest) ↔ v ≠ Int64.minValue ∧ Ends base text rest) ∧
        (v = Int64.minValue → Ends base text rest →
          operand (text ++ rest) = .error ⟨rest, .numberTooLarge⟩) := by
  refine ⟨.decimal, fun base text hspells => ?_⟩
  have hstart : ∃ c r, text ++ rest = c :: r ∧ (c = '-' ∨ c.isDigit = true) := by
    obtain ⟨c, r, rfl, hc⟩ := hspells.exists_cons
    exact ⟨c, r ++ rest, rfl, hc⟩
  constructor
  · rw [operand_eq_ok_iff hstart, hspells.number_eq_ok_iff, natAbs_le_maxMagnitude_iff]
  · intro hleast hends
    have hlarge : ¬v.toInt.natAbs ≤ maxMagnitude := fun hle => (natAbs_le_maxMagnitude_iff v).mp hle hleast
    exact operand_of_error hstart ((hspells.number_eq hends).trans (if_neg hlarge))

/-- The number `-255` in hexadecimal digits, and the least number in decimal ones, each before a comma. -/
theorem immediates_read_back_comma :
    (Spells (-255) 16 "-0X0fF".toList ∧ Ends 16 "-0X0fF".toList [','] ∧
      operand "-0X0fF,".toList = .ok (.immediate (-255), [','])) ∧
    Ends 10 "-9223372036854775808".toList [','] ∧
      operand "-9223372036854775808,".toList = .error ⟨[','], .numberTooLarge⟩ := by
  have hspells : Spells (-255) 16 "-0X0fF".toList := .hex (.inr rfl) ⟨1, by decide⟩
  have hhex : Ends 16 "-0X0fF".toList [','] := by
    rintro c ⟨⟩
    exact ⟨by decide, by decide⟩
  have hdecimal : Ends 10 "-9223372036854775808".toList [','] := by
    rintro c ⟨⟩
    exact ⟨by decide, by decide⟩
  refine ⟨⟨hspells, hhex, ?_⟩, hdecimal, ?_⟩
  · exact ((immediates_read_back (layOut []) (-255) [',']).2 16 _ hspells).1.mpr ⟨by decide, hhex⟩
  · exact ((immediates_read_back (layOut []) Int64.minValue [',']).2 10 _ .decimal).2 rfl hdecimal

/-- The least number of 64 bits is printed, but a text with it is refused. -/
theorem least_immediate_refused :
    (layOut []).renderOperand (.immediate Int64.minValue.toInt) = "-9223372036854775808" ∧
      operand "-9223372036854775808".toList = .error ⟨[], .numberTooLarge⟩ ∧
      Program.parse "f() \x7b entry: ret -9223372036854775808 \x7d" = .error ⟨1, .numberTooLarge⟩ := by
  refine ⟨?_, ?_, ?_⟩ <;> decide +kernel

end Source

end Accelerator
