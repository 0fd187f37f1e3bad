import Accelerator.Stream.BitFields
import Mathlib

/-!
# Fields of a word

The fields of a word do not overlap: filling the next one adds to the word what lies above the bits in use
(`BitPack.toNat_put`), so the bits in use stay as they are however many fields follow (`BitPack.low_fill`).  This holds
as long as the widths add up to 64 at most (`HasRoom`); no bit is lost at the top of the word then.
-/

namespace Accelerator.Stream

/-- Fields of these widths have room in a word of which `used` bits are in use. -/
structure HasRoom (used : Nat) (widths : List Nat) : Prop where
  width : ∀ w ∈ widths, 1 ≤ w ∧ w ≤ 63
  total : used + widths.sum ≤ 64

variable {used w : Nat} {widths : List Nat} {fields : List (Nat × Nat)}

private theorem HasRoom.head (h : HasRoom used (w :: widths)) : w ≤ 63 ∧ used ≤ 63 ∧ used + w ≤ 64 := by
  have hw := h.width w List.mem_cons_self
  have htotal := h.total
  rw [List.sum_cons] at htotal
  omega

private theorem HasRoom.tail (h : HasRoom used (w :: widths)) : HasRoom (used + w) widths := by
  refine ⟨fun v hv => h.width v (List.mem_cons_of_mem w hv), ?_⟩
  have htotal := h.total
  rw [List.sum_cons] at htotal
  omega

namespace BitPack

variable {b : BitPack}

/-- The bits in use are the only ones that are set. -/
def Filled (b : BitPack) : Prop := b.word.toNat < 2 ^ b.position

private theorem filled_empty : ({} : BitPack).Filled := Nat.one_pos

/-- Fills one field after the other. -/
def fill (b : BitPack) (fields : List (Nat × Nat)) : BitPack :=
  fields.foldl (fun b field => b.put field.1.toUInt64 field.2) b

private theorem fill_cons (b : BitPack) (field : Nat × Nat) (fields : List (Nat × Nat)) :
    b.fill (field :: fields) = (b.put field.1.toUInt64 field.2).fill fields := rfl

private theorem toNat_toUInt64_mod {n : Nat} (h : n ≤ 63) : n.toUInt64.toNat % 64 = n := by
  have : n.toUInt64.toNat = n % 2 ^ 64 := UInt64.toNat_ofNat'
  omega

/-! ### One field -/

private theorem toNat_mask (hw : w ≤ 63) : (mask w).toNat = 2 ^ w - 1 := by
  have hlt : 2 ^ w < 2 ^ 64 := Nat.pow_lt_pow_right (by decide) (by omega)
  have hone : ((1 : UInt64) <<< w.toUInt64).toNat = 2 ^ w := by
    rw [UInt64.toNat_shiftLeft, toNat_toUInt64_mod hw, UInt64.toNat_one, Nat.one_shiftLeft, Nat.mod_eq_of_lt hlt]
  have hle : (1 : UInt64) ≤ 1 <<< w.toUInt64 := by
    rw [UInt64.le_iff_toNat_le, hone]
    exact Nat.one_le_two_pow
  rw [mask, UInt64.toNat_sub_of_le _ _ hle, hone, UInt64.toNat_one]

private theorem toNat_and_mask (v : UInt64) (hw : w ≤ 63) : (v &&& mask w).toNat = v.toNat % 2 ^ w := by
  rw [UInt64.toNat_and, toNat_mask hw, Nat.and_two_pow_sub_one_eq_mod]

theorem toNat_next (word : UInt64) (hw : w ≤ 63) (hused : used ≤ 63) :
    ((⟨word, used⟩ : BitPack).next w).toNat = word.toNat / 2 ^ used % 2 ^ w := by
  rw [next, toNat_and_mask _ hw, UInt64.toNat_shiftRight, toNat_toUInt64_mod hused, Nat.shiftRight_eq_div_pow]

/-- A field is put above the bits in use, and all of its bits are in the word. -/
theorem toNat_put (hb : b.Filled) (hw : w ≤ 63) (hpos : b.position ≤ 63) (htop : b.position + w ≤ 64) (v : UInt64) :
    (b.put v w).word.toNat = b.word.toNat + 2 ^ b.position * (v.toNat % 2 ^ w) := by
  have hfield : 2 ^ b.position * (v.toNat % 2 ^ w) < 2 ^ 64 := by
    calc 2 ^ b.position * (v.toNat % 2 ^ w)
        < 2 ^ b.position * 2 ^ w := Nat.mul_lt_mul_of_pos_left (Nat.mod_lt _ (Nat.two_pow_pos w)) (Nat.two_pow_pos _)
      _ = 2 ^ (b.position + w) := (Nat.pow_add ..).symm
      _ ≤ 2 ^ 64 := Nat.pow_le_pow_right (by decide) htop
  have hshift : ((v &&& mask w) <<< b.position.toUInt64).toNat = (v.toNat % 2 ^ w) <<< b.position := by
    rw [UInt64.toNat_shiftLeft, toNat_and_mask v hw, toNat_toUInt64_mod hpos, Nat.mod_eq_of_lt]
    rwa [Nat.shiftLeft_eq, Nat.mul_comm]
  rw [put, UInt64.toNat_or, hshift, Nat.or_comm, ← Nat.shiftLeft_add_eq_or_of_lt hb, Nat.shiftLeft_eq, Nat.add_comm,
    Nat.mul_comm]

private theorem Filled.put (hb : b.Filled) (hw : w ≤ 63) (hpos : b.position ≤ 63) (htop : b.position + w ≤ 64)
    (v : UInt64) : (b.put v w).Filled := by
  have hmod : v.toNat % 2 ^ w < 2 ^ w := Nat.mod_lt _ (Nat.two_pow_pos w)
  have hword : b.word.toNat < 2 ^ b.position := hb
  calc (b.put v w).word.toNat = b.word.toNat + 2 ^ b.position * (v.toNat % 2 ^ w) := toNat_put hb hw hpos htop v
    _ < 2 ^ b.position * (v.toNat % 2 ^ w + 1) := by rw [Nat.mul_add, Nat.mul_one]; omega
    _ ≤ 2 ^ b.position * 2 ^ w := Nat.mul_le_mul_left _ hmod
    _ = 2 ^ (b.position + w) := (Nat.pow_add ..).symm

/-! ### All fields -/

private theorem Filled.fill (hb : b.Filled) (hroom : HasRoom b.position (fields.map Prod.snd)) :
    (b.fill fields).Filled ∧ (b.fill fields).position = b.position + (fields.map Prod.snd).sum := by
  induction fields generalizing b with
  | nil => exact ⟨hb, by simp [BitPack.fill]⟩
  | cons field fields ih =>
    obtain ⟨hw, hpos, htop⟩ := hroom.head
    obtain ⟨hfilled, hposition⟩ := ih (hb.put hw hpos htop field.1.toUInt64) hroom.tail
    refine ⟨hfilled, ?_⟩
    rw [fill_cons, hposition, List.map_cons, List.sum_cons, ← Nat.add_assoc]
    rfl

/-- The fields that follow leave the bits in use as they are. -/
theorem low_fill (hb : b.Filled) (hroom : HasRoom b.position (fields.map Prod.snd)) :
    (b.fill fields).word.toNat % 2 ^ b.position = b.word.toNat := by
  induction fields generalizing b with
  | nil => exact Nat.mod_eq_of_lt hb
  | cons field fields ih =>
    obtain ⟨hw, hpos, htop⟩ := hroom.head
    have hlow := ih (hb.put hw hpos htop field.1.toUInt64) hroom.tail
    have hdvd : 2 ^ b.position ∣ 2 ^ (b.put field.1.toUInt64 field.2).position :=
      Nat.pow_dvd_pow 2 (Nat.le_add_right b.position field.2)
    rw [fill_cons, ← Nat.mod_mod_of_dvd _ hdvd, hlow, toNat_put hb hw hpos htop, Nat.add_mul_mod_self_left,
      Nat.mod_eq_of_lt hb]

/-- A value and the word that it is cut down to have the same low bits. -/
private theorem toNat_toUInt64_field (n : Nat) (hw : w ≤ 63) : n.toUInt64.toNat % 2 ^ w = n % 2 ^ w := by
  rw [show n.toUInt64.toNat = n % 2 ^ 64 from UInt64.toNat_ofNat',
    Nat.mod_mod_of_dvd _ (Nat.pow_dvd_pow 2 (by omega : w ≤ 64))]

/-- The fields that were filled are read back from where filling began. -/
private theorem fields_fill (hb : b.Filled) (hroom : HasRoom b.position (fields.map Prod.snd)) :
    ((⟨(b.fill fields).word, b.position⟩ : BitPack).fields (fields.map Prod.snd)).map (·.toNat) =
      fields.map fun field => field.1 % 2 ^ field.2 := by
  induction fields generalizing b with
  | nil => rfl
  | cons field fields ih =>
    obtain ⟨hw, hpos, htop⟩ := hroom.head
    have hput := hb.put hw hpos htop field.1.toUInt64
    -- the word up to the end of the first field is what it was right after that field was put
    have hlow : (b.fill (field :: fields)).word.toNat % (2 ^ b.position * 2 ^ field.2) =
        b.word.toNat + 2 ^ b.position * (field.1 % 2 ^ field.2) := by
      rw [← Nat.pow_add, ← toNat_toUInt64_field field.1 hw, ← toNat_put hb hw hpos htop]
      exact low_fill hput hroom.tail
    have hfirst : ((⟨(b.fill (field :: fields)).word, b.position⟩ : BitPack).next field.2).toNat =
        field.1 % 2 ^ field.2 := by
      rw [toNat_next _ hw hpos, ← Nat.mod_mul_right_div_self, hlow, Nat.add_mul_div_left _ _ (Nat.two_pow_pos _),
        Nat.div_eq_of_lt hb, Nat.zero_add]
    rw [List.map_cons, BitPack.fields, List.map_cons, List.map_cons, hfirst]
    exact congrArg _ (ih hput hroom.tail)

end BitPack

/-- No bit is set above the fields. -/
theorem packFields_lt (hroom : HasRoom 0 (fields.map Prod.snd)) :
    packFields fields < 2 ^ (fields.map Prod.snd).sum := by
  obtain ⟨hfilled, hposition⟩ := BitPack.filled_empty.fill hroom
  rw [BitPack.Filled, hposition, Nat.zero_add] at hfilled
  exact hfilled

/-- Every field is read back, less what its width does not hold. -/
theorem unpackFields_packFields (hroom : HasRoom 0 (fields.map Prod.snd)) :
    unpackFields (packFields fields) (fields.map Prod.snd) = fields.map fun field => field.1 % 2 ^ field.2 := by
  rw [unpackFields, packFields, Nat.toUInt64_eq, UInt64.ofNat_toNat]
  exact BitPack.fields_fill BitPack.filled_empty hroom

end Accelerator.Stream
