import Accelerator.Proofs.Codec

/-!
# Which bytes stand for a number

A number ends at its first byte without the high bit, and its value is a sum over the bytes up to there (`valueAt`).
The sum of the bytes before the last one is too small to carry (`lowPart_lt`), so whether the value has 64 bits is seen
at the place of its last byte and, at the tenth place, from the byte there (`valueAt_lt_iff`).  Of all bytes that
stand for a number, those that are written for it are the fewest (`Digits.eq_or_length_lt`).
-/

namespace Accelerator.Stream

open Scanner

variable {s bytes rest : List UInt8} {n p : Nat}

/-! ### The value of a number -/

/-- The digit at place `i`: what the byte there holds besides its high bit. -/
def digitAt (s : List UInt8) (i : Nat) : Nat := (s.getD i 0).toNat % 128

/-- What the first `p` digits add up to. -/
def lowPart (s : List UInt8) (p : Nat) : Nat := ∑ i ∈ Finset.range p, digitAt s i * 2 ^ (7 * i)

/-- The value of the number whose last byte is at place `p`. -/
def valueAt (s : List UInt8) (p : Nat) : Nat := lowPart s (p + 1)

private theorem lowPart_succ (s : List UInt8) (p : Nat) : lowPart s (p + 1) = lowPart s p + digitAt s p * 2 ^ (7 * p) :=
  Finset.sum_range_succ _ p

/-- The first byte has the least significant digit. -/
private theorem lowPart_cons (b : UInt8) (s : List UInt8) (p : Nat) :
    lowPart (b :: s) (p + 1) = b.toNat % 128 + 128 * lowPart s p := by
  rw [lowPart, Finset.sum_range_succ', lowPart, Finset.mul_sum, Nat.add_comm]
  congr 1
  · simp [digitAt]
  · refine Finset.sum_congr rfl fun i _ => ?_
    rw [show digitAt (b :: s) (i + 1) = digitAt s i from rfl, show 7 * (i + 1) = 7 + 7 * i by omega, Nat.pow_add]
    ring

theorem lowPart_lt (s : List UInt8) (p : Nat) : lowPart s p < 2 ^ (7 * p) := by
  induction p with
  | zero => simp [lowPart]
  | succ p ih =>
    have hdigit : digitAt s p < 128 := Nat.mod_lt _ (by decide)
    have hpow : 2 ^ (7 * (p + 1)) = 128 * 2 ^ (7 * p) := by
      rw [show 7 * (p + 1) = 7 + 7 * p by omega, Nat.pow_add]
    calc lowPart s (p + 1) = lowPart s p + digitAt s p * 2 ^ (7 * p) := lowPart_succ s p
      _ < (digitAt s p + 1) * 2 ^ (7 * p) := by rw [Nat.add_mul]; omega
      _ ≤ 128 * 2 ^ (7 * p) := Nat.mul_le_mul_right _ hdigit
      _ = 2 ^ (7 * (p + 1)) := hpow.symm

/-- Ten places hold 70 bits, so only the digit at the tenth one can be too large. -/
theorem valueAt_lt_iff (hp : p ≤ 9) : valueAt s p < 2 ^ 64 ↔ (p = 9 → digitAt s 9 ≤ 1) := by
  by_cases h9 : p = 9
  · subst h9
    have hlow := lowPart_lt s 9
    rw [valueAt, lowPart_succ]
    constructor
    · intro h _
      omega
    · intro h
      have := h rfl
      omega
  · have hlow : valueAt s p < 2 ^ (7 * (p + 1)) := lowPart_lt s (p + 1)
    have hpow : 2 ^ (7 * (p + 1)) ≤ 2 ^ 64 := Nat.pow_le_pow_right (by decide) (by omega)
    exact iff_of_true (by omega) fun h => absurd h h9

/-! ### Where a number ends -/

private theorem Digits.findIdx? (h : Digits bytes n) (rest : List UInt8) :
    (bytes ++ rest).findIdx? (· < 128) = some (bytes.length - 1) := by
  induction h with
  | last hb => simp [List.findIdx?_cons, UInt8.lt_iff_toNat_lt, hb]
  | @more b bytes n hb h ih =>
    have hpos := h.length_pos
    have hno : ¬b < 128 := by simpa [UInt8.lt_iff_toNat_lt] using hb
    rw [List.cons_append, List.findIdx?_cons, if_neg (by simpa using hno), ih, Option.map_some,
      Nat.sub_add_cancel hpos, List.length_cons, Nat.add_sub_cancel]

/-- The bytes up to the first one without the high bit spell a number. -/
private theorem digits_take (h : s.findIdx? (· < 128) = some p) : Digits (s.take (p + 1)) (valueAt s p) := by
  induction s generalizing p with
  | nil => cases h
  | cons b s ih =>
    rw [List.findIdx?_cons] at h
    by_cases hb : b < 128
    · simp only [hb, decide_true, if_true, Option.some.injEq] at h
      subst h
      have hlt : b.toNat < 128 := UInt8.lt_iff_toNat_lt.mp hb
      have hvalue : valueAt (b :: s) 0 = b.toNat := by
        rw [valueAt, lowPart_cons, Nat.mod_eq_of_lt hlt]
        simp [lowPart]
      rw [hvalue]
      exact .last hlt
    · simp only [hb, decide_false] at h
      obtain ⟨q, hq, rfl⟩ := Option.map_eq_some_iff.mp h
      have hge : 128 ≤ b.toNat := by simpa [UInt8.lt_iff_toNat_lt] using hb
      have hlt := b.toNat_lt
      have hvalue : valueAt (b :: s) (q + 1) = b.toNat - 128 + 128 * valueAt s q := by
        rw [valueAt, lowPart_cons, valueAt]
        omega
      rw [hvalue]
      exact .more hge (ih hq)

/-- Exactly those numbers are read whose last byte is at one of the first ten places and, at the tenth, at most one. -/
private theorem number_eq_ok_iff : number s = .ok (n, rest) ↔
    ∃ p ≤ 9, s.findIdx? (· < 128) = some p ∧ (p = 9 → s.getD 9 0 ≤ 1) ∧ n = valueAt s p ∧ rest = s.drop (p + 1) := by
  -- the last byte has no high bit, so it is its digit
  have hlast : ∀ {p}, s.findIdx? (· < 128) = some p → ((p = 9 → s.getD 9 0 ≤ 1) ↔ (p = 9 → digitAt s 9 ≤ 1)) := by
    intro p hp
    refine forall_congr' fun h9 => ?_
    subst h9
    obtain ⟨hlen, hb, -⟩ := List.findIdx?_eq_some_iff_getElem.mp hp
    have hlt : (s.getD 9 0).toNat < 128 := by
      rw [List.getD_eq_getElem _ _ hlen]
      exact UInt8.lt_iff_toNat_lt.mp (of_decide_eq_true hb)
    rw [digitAt, Nat.mod_eq_of_lt hlt, UInt8.le_iff_toNat_le]
    rfl
  rw [recognizes_number s n rest]
  constructor
  · rintro ⟨bytes, rfl, hdigits, hlen, hlt⟩
    have hpos := hdigits.length_pos
    have hp := hdigits.findIdx? rest
    have htake := digits_take hp
    rw [Nat.sub_add_cancel hpos] at htake
    obtain ⟨-, hvalue⟩ := hdigits.eq_of_append htake (List.take_append_drop _ _).symm
    refine ⟨bytes.length - 1, by omega, hp, (hlast hp).mpr ?_, hvalue, ?_⟩
    · exact (valueAt_lt_iff (by omega)).mp (hvalue ▸ hlt)
    · rw [Nat.sub_add_cancel hpos, List.drop_left]
  · rintro ⟨p, hp, hfind, htenth, rfl, rfl⟩
    refine ⟨s.take (p + 1), (List.take_append_drop _ _).symm, digits_take hfind, ?_, ?_⟩
    · rw [List.length_take]
      omega
    · exact (valueAt_lt_iff hp).mpr ((hlast hfind).mp htenth)

/-! ### The fewest bytes -/

private theorem encodeNumber_of_lt {b : UInt8} (hb : b.toNat < 128) : encodeNumber b.toNat = [b] := by
  rw [encodeNumber, if_pos hb]
  simp [Nat.toUInt8]

private theorem encodeNumber_more {b : UInt8} (hb : 128 ≤ b.toNat) (hn : 0 < n) :
    encodeNumber (b.toNat - 128 + 128 * n) = b :: encodeNumber n := by
  have hlt := b.toNat_lt
  have hlow : (b.toNat - 128 + 128 * n) % 128 + 128 = b.toNat := by omega
  have hhigh : (b.toNat - 128 + 128 * n) / 128 = n := by omega
  rw [encodeNumber, if_neg (by omega), hlow, hhigh]
  simp [Nat.toUInt8]

/-- Bytes that spell a number are those that are written for it, or zero digits at the end make them more. -/
theorem Digits.eq_or_length_lt (h : Digits bytes n) :
    bytes = encodeNumber n ∨ (encodeNumber n).length < bytes.length := by
  induction h with
  | last hb => exact .inl (encodeNumber_of_lt hb).symm
  | @more b bytes n hb h ih =>
    rcases Nat.eq_zero_or_pos n with rfl | hn
    · right
      have hlt := b.toNat_lt
      have hpos := h.length_pos
      rw [encodeNumber, if_pos (by omega)]
      simp only [List.length_cons, List.length_nil]
      omega
    · rw [encodeNumber_more hb hn, List.length_cons, List.length_cons]
      rcases ih with rfl | hlt
      · exact .inl rfl
      · exact .inr (by omega)

/-! ### Where reading stops -/

private theorem numberFrom_more {start : List UInt8} {k : Nat} {b : UInt8} {h : Halt UInt8 Cause}
    (hover : overflowsAt k b = false) (hb : ¬b.toNat < 128) :
    numberFrom start k (b :: s) = .error h ↔ numberFrom start (k + 1) s = .error h := by
  rw [numberFrom, hover, if_neg (by simp), if_neg hb]
  split <;> simp_all

private theorem numberFrom_halt {start : List UInt8} {k : Nat} {h : Halt UInt8 Cause}
    (hs : numberFrom start k s = .error h) : h = ⟨start, .numberTooLarge⟩ ∨ h = ⟨[], .unexpectedEnd⟩ := by
  induction s generalizing k with
  | nil =>
    cases hs
    exact .inr rfl
  | cons b s ih =>
    by_cases hover : overflowsAt k b = true
    · rw [numberFrom, if_pos hover] at hs
      cases hs
      exact .inl rfl
    · by_cases hb : b.toNat < 128
      · rw [numberFrom, if_neg hover, if_pos hb] at hs
        cases hs
      · exact ih ((numberFrom_more (by simpa using hover) hb).mp hs)

/-- A byte is missing if none of those that are there ends the number or makes it too large. -/
private theorem numberFrom_eq_end_iff {start : List UInt8} {k : Nat} (hk : k ≤ 10) :
    numberFrom start k s = .error ⟨[], .unexpectedEnd⟩ ↔
      k + s.length ≤ 10 ∧ (∀ b ∈ s, 128 ≤ b) ∧ (k ≤ 9 → digitAt s (9 - k) ≤ 1) := by
  induction s generalizing k with
  | nil => simp [numberFrom, digitAt, hk]
  | cons b s ih =>
    rw [List.length_cons, List.forall_mem_cons]
    by_cases hover : overflowsAt k b = true
    · have hdigit : k = 9 → digitAt (b :: s) (9 - k) = b.toNat % 128 := by
        rintro rfl
        rfl
      simp only [overflowsAt, Bool.or_eq_true, Bool.and_eq_true, decide_eq_true_eq] at hover
      rw [numberFrom, if_pos (by simpa [overflowsAt] using hover)]
      simp only [Except.error.injEq, Halt.mk.injEq, reduceCtorEq, and_false, false_iff, not_and]
      intro hlen _ hlast
      have := hlast (by omega)
      omega
    · have hroom : k ≤ 9 ∧ (k = 9 → b.toNat % 128 ≤ 1) := by
        simp only [overflowsAt, Bool.or_eq_true, Bool.and_eq_true, decide_eq_true_eq] at hover
        omega
      by_cases hb : b.toNat < 128
      · have hno : ¬128 ≤ b := by simpa [UInt8.le_iff_toNat_le] using hb
        rw [numberFrom, if_neg hover, if_pos hb]
        simp [hno]
      · have hge : 128 ≤ b := by simpa [UInt8.le_iff_toNat_le] using hb
        have hdigit : (k ≤ 9 → digitAt (b :: s) (9 - k) ≤ 1) ↔ (k + 1 ≤ 9 → digitAt s (9 - (k + 1)) ≤ 1) := by
          by_cases h9 : k = 9
          · subst h9
            simpa [digitAt] using hroom.2 rfl
          · rw [show 9 - k = 9 - (k + 1) + 1 by omega]
            exact ⟨fun h _ => h hroom.1, fun h _ => h (by omega)⟩
        rw [numberFrom_more (by simpa using hover) hb, ih (by omega), hdigit, Nat.add_assoc k, Nat.add_comm 1]
        simp [hge]

/-- Numbers of 64 bits are read back from the bytes that are written for them, and leave what follows; what is read at
all, and its value, depends on the place of the first byte without the high bit; no other bytes that are read as a
number are as few as those that are written for it; and if nothing is read, then the reader is back at the first byte,
because the number is too large, or at the end, because a byte is missing. -/
theorem number_exact :
    (∀ (v : UInt64) (rest : List UInt8), number (encodeNumber v.toNat ++ rest) = .ok (v.toNat, rest)) ∧
    (∀ s n rest, number s = .ok (n, rest) ↔ ∃ p ≤ 9, s.findIdx? (· < 128) = some p ∧ (p = 9 → s.getD 9 0 ≤ 1) ∧
      n = ∑ i ∈ Finset.range (p + 1), (s.getD i 0).toNat % 128 * 2 ^ (7 * i) ∧ rest = s.drop (p + 1)) ∧
    (∀ s n rest, number s = .ok (n, rest) → n < 2 ^ 64) ∧
    (∀ bytes n, number bytes = .ok (n, []) → bytes = encodeNumber n ∨ (encodeNumber n).length < bytes.length) ∧
    (∀ before s halt, number s = .error halt →
      (halt.cause = .numberTooLarge ∧ (faultOf (before ++ s) halt).offset = before.length) ∨
      (halt.cause = .unexpectedEnd ∧ (faultOf (before ++ s) halt).offset = (before ++ s).length)) ∧
    ∀ s, number s = .error ⟨[], .unexpectedEnd⟩ ↔
      s.length ≤ 10 ∧ (∀ b ∈ s, 128 ≤ b) ∧ (s.getD 9 0).toNat % 128 ≤ 1 := by
  refine ⟨fun v => reads_number v.toNat_lt, fun s n rest => number_eq_ok_iff, fun s n rest h => ?_,
    fun bytes n h => ?_, fun before s halt h => ?_, fun s => ?_⟩
  · obtain ⟨_, -, hnumber⟩ := (recognizes_number _ _ _).mp h
    exact hnumber.lt
  · obtain ⟨_, hbytes, hnumber⟩ := (recognizes_number _ _ _).mp h
    rw [List.append_nil] at hbytes
    rw [hbytes]
    exact hnumber.digits.eq_or_length_lt
  · rcases numberFrom_halt h with rfl | rfl
    · exact .inl ⟨rfl, by simp [faultOf]⟩
    · exact .inr ⟨rfl, by simp [faultOf]⟩
  · rw [number, numberFrom_eq_end_iff (Nat.zero_le _), Nat.zero_add]
    simp only [Nat.zero_le, forall_const, Nat.sub_zero, digitAt]

/-- The greatest number, a number with a zero digit at its end, the tenth byte at and above its limit, and a number that
goes on where the bytes end. -/
theorem number_exact_limits :
    number (encodeNumber 18446744073709551615 ++ [7]) = .ok (18446744073709551615, [7]) ∧
    number (List.replicate 9 128 ++ [1, 5]) = .ok (9223372036854775808, [5]) ∧ 9223372036854775808 < 2 ^ 64 ∧
    number [133, 0] = .ok (5, []) ∧ ([133, 0] = encodeNumber 5 ∨ (encodeNumber 5).length < [133, 0].length) ∧
    (∃ halt, number (List.replicate 9 255 ++ [2]) = .error halt ∧ halt.cause = .numberTooLarge ∧
      (faultOf ([9] ++ (List.replicate 9 255 ++ [2])) halt).offset = 1) ∧
    number (List.replicate 9 255 ++ [129]) = .error ⟨[], .unexpectedEnd⟩ := by
  obtain ⟨hwritten, hread, hlt, hfewest, hhalt, hend⟩ := number_exact
  have hhigh : number (List.replicate 9 128 ++ [1, 5]) = .ok (9223372036854775808, [5]) :=
    (hread _ _ _).mpr ⟨9, by decide, by decide, by decide, by decide, by decide⟩
  have hzero : number [133, 0] = .ok (5, []) := by decide
  have hlarge : number (List.replicate 9 255 ++ [2]) = .error ⟨List.replicate 9 255 ++ [2], .numberTooLarge⟩ := by
    decide
  have hgreatest := hwritten 18446744073709551615 [7]
  rw [show (18446744073709551615 : UInt64).toNat = 18446744073709551615 from rfl] at hgreatest
  have hmissing : number (List.replicate 9 255 ++ [129]) = .error ⟨[], .unexpectedEnd⟩ :=
    (hend _).mpr ⟨by decide, by simp, by decide⟩
  refine ⟨hgreatest, hhigh, hlt _ _ _ hhigh, hzero, hfewest _ _ hzero, ?_, hmissing⟩
  rcases hhalt [9] _ _ hlarge with h | ⟨h, -⟩
  · exact ⟨_, hlarge, h⟩
  · cases h

end Accelerator.Stream
