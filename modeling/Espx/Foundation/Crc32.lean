import Mathlib.Data.Nat.Bitwise

/-!
# Reflected 32-bit cyclic redundancy checks

The bytewise checksum over a reflected polynomial, with the complement before and after. Shifting is
linear, so that a byte can be shifted in with one lookup in a table of 256 entries. A wrong entry makes a
difference that the bytes after it shift on, whatever these are.
-/

namespace Espx.Foundation

/-- Shift out one bit, adding the polynomial when it was set. -/
def crcBit (polynomial crc : UInt32) : UInt32 :=
  if crc &&& 1 = 1 then (crc >>> 1) ^^^ polynomial else crc >>> 1

/-- Shift out a number of bits. -/
def crcBits (polynomial : UInt32) : ℕ → UInt32 → UInt32
  | 0, crc => crc
  | count + 1, crc => crcBits polynomial count (crcBit polynomial crc)

/-- Continue a checksum over more bytes; a new checksum continues from zero. -/
def crc32Update (polynomial crc : UInt32) (bytes : List UInt8) : UInt32 :=
  ~~~ bytes.foldl (fun c b => crcBits polynomial 8 (c ^^^ b.toUInt32)) (~~~ crc)

/-- The Castagnoli polynomial, reflected. -/
def castagnoli : UInt32 := 0x82f63b78

/-- The IEEE polynomial, reflected. -/
def ieee : UInt32 := 0xedb88320

/-- The check value of the Castagnoli checksum. -/
example : crc32Update castagnoli 0 "123456789".toUTF8.data.toList = 0xe3069283 := by
  decide +kernel

section

variable (polynomial : UInt32)

/-- A bit is shifted out, and the polynomial is added when it was set. -/
theorem crcBit_eq (crc : UInt32) :
    crcBit polynomial crc = (crc >>> 1) ^^^ if crc.toNat % 2 = 1 then polynomial else 0 := by
  have hbit : crc &&& 1 = 1 ↔ crc.toNat % 2 = 1 := by
    rw [← UInt32.toNat_inj, UInt32.toNat_and]
    change crc.toNat &&& 1 = 1 ↔ _
    rw [Nat.and_one_is_mod]
  unfold crcBit
  by_cases h : crc.toNat % 2 = 1
  · rw [if_pos (hbit.mpr h), if_pos h]
  · rw [if_neg fun hset => h (hbit.mp hset), if_neg h, UInt32.xor_zero]

/-- Shifting out a bit is linear. -/
theorem crcBit_xor (a b : UInt32) :
    crcBit polynomial (a ^^^ b) = crcBit polynomial a ^^^ crcBit polynomial b := by
  have hparity : (a ^^^ b).toNat % 2 = (a.toNat % 2) ^^^ (b.toNat % 2) := by
    exact Nat.xor_mod_two_pow (n := 1)
  have hswap : ∀ x y p q : UInt32, x ^^^ p ^^^ (y ^^^ q) = x ^^^ y ^^^ (p ^^^ q) := by
    intro x y p q
    rw [UInt32.xor_assoc, UInt32.xor_assoc, ← UInt32.xor_assoc p, UInt32.xor_comm p y,
      UInt32.xor_assoc y]
  rw [crcBit_eq, crcBit_eq, crcBit_eq, UInt32.shiftRight_xor, hparity, hswap]
  obtain ha | ha := Nat.mod_two_eq_zero_or_one a.toNat <;>
    obtain hb | hb := Nat.mod_two_eq_zero_or_one b.toNat <;> simp [ha, hb]

/-- Shifting out bits is linear. -/
theorem crcBits_xor (count : ℕ) (a b : UInt32) :
    crcBits polynomial count (a ^^^ b) = crcBits polynomial count a ^^^ crcBits polynomial count b := by
  induction count generalizing a b with
  | zero => rfl
  | succ count ih => rw [crcBits, crcBit_xor, ih, crcBits, crcBits]

/-- Zero bits that are shifted out add nothing. -/
theorem crcBits_toNat_of_dvd {count : ℕ} {crc : UInt32} (h : 2 ^ count ∣ crc.toNat) :
    (crcBits polynomial count crc).toNat = crc.toNat / 2 ^ count := by
  induction count generalizing crc with
  | zero => exact (Nat.div_one _).symm
  | succ count ih =>
    obtain ⟨rest, hrest⟩ := h
    have heven : crc.toNat % 2 = 0 := by
      rw [hrest, Nat.pow_succ, Nat.mul_comm (2 ^ count), Nat.mul_assoc]
      exact Nat.mul_mod_right 2 _
    have hhalf : (crcBit polynomial crc).toNat = 2 ^ count * rest := by
      rw [crcBit_eq, if_neg (by omega), UInt32.xor_zero, UInt32.toNat_shiftRight]
      rw [Nat.shiftRight_eq_div_pow, hrest, Nat.pow_succ, Nat.mul_right_comm]
      exact Nat.mul_div_cancel _ (by decide)
    rw [crcBits, ih ⟨rest, hhalf⟩, hhalf, hrest, Nat.mul_div_cancel_left _ (Nat.two_pow_pos _),
      Nat.mul_div_cancel_left _ (Nat.two_pow_pos _)]

/-- Shifting out a byte: the other bytes move down, and the byte is looked up. -/
theorem crcBits_eight (x : UInt32) :
    crcBits polynomial 8 x = (x >>> 8) ^^^ crcBits polynomial 8 (x &&& 0xff) := by
  have hmask : (x &&& 0xff).toNat = x.toNat % 2 ^ 8 := by
    exact Nat.and_two_pow_sub_one_eq_mod x.toNat 8
  have hhigh : (x ^^^ (x &&& 0xff)).toNat = x.toNat ^^^ (x.toNat % 2 ^ 8) := by
    rw [UInt32.toNat_xor, hmask]
  have hdvd : 2 ^ 8 ∣ (x ^^^ (x &&& 0xff)).toNat := by
    apply Nat.dvd_of_mod_eq_zero
    rw [hhigh, Nat.xor_mod_two_pow, Nat.mod_mod, Nat.xor_self]
  have hshift : crcBits polynomial 8 (x ^^^ (x &&& 0xff)) = x >>> 8 := by
    apply UInt32.toNat_inj.mp
    rw [crcBits_toNat_of_dvd polynomial hdvd, hhigh, Nat.xor_div_two_pow,
      Nat.div_eq_of_lt (Nat.mod_lt x.toNat (by decide)), Nat.xor_zero, UInt32.toNat_shiftRight]
    exact (Nat.shiftRight_eq_div_pow _ _).symm
  have hsplit : x = x ^^^ (x &&& 0xff) ^^^ (x &&& 0xff) := by
    rw [UInt32.xor_assoc, UInt32.xor_self, UInt32.xor_zero]
  conv_lhs => rw [hsplit, crcBits_xor, hshift]

variable (damage : UInt32 → UInt32)

/-- Shift in one byte. -/
def crcByte (crc : UInt32) (b : UInt8) : UInt32 := crcBits polynomial 8 (crc ^^^ b.toUInt32)

/-- Shift in one byte with a table of 256 entries. -/
def tableByte (table : UInt32 → UInt32) (crc : UInt32) (b : UInt8) : UInt32 :=
  (crc >>> 8) ^^^ table ((crc ^^^ b.toUInt32) &&& 0xff)

/-- The difference that a damaged table makes: each damaged entry that is looked up adds its
damage, and the bytes after it shift that on. -/
def errorAfter (crc err : UInt32) : List UInt8 → UInt32
  | [] => err
  | b :: rest =>
    errorAfter (crcByte polynomial crc b)
      (crcBits polynomial 8 err ^^^ damage ((crc ^^^ err ^^^ b.toUInt32) &&& 0xff)) rest

/-- A byte has no bits above the eighth. -/
theorem toUInt32_shiftRight_eight (b : UInt8) : b.toUInt32 >>> 8 = 0 := by
  apply UInt32.toNat_inj.mp
  rw [UInt32.toNat_shiftRight, UInt8.toNat_toUInt32]
  rw [Nat.shiftRight_eq_div_pow]
  exact Nat.div_eq_of_lt b.toNat_lt

/-- A checksum with a damaged table differs from the true one by the shifted damage. -/
theorem foldl_tableByte {table : UInt32 → UInt32}
    (htable : ∀ i : UInt8, table i.toUInt32 = crcBits polynomial 8 i.toUInt32 ^^^ damage i.toUInt32)
    (crc err : UInt32) (bytes : List UInt8) :
    bytes.foldl (tableByte table) (crc ^^^ err) =
      bytes.foldl (crcByte polynomial) crc ^^^ errorAfter polynomial damage crc err bytes := by
  induction bytes generalizing crc err with
  | nil => rfl
  | cons b rest ih =>
    have hmask : ∀ x : UInt32, table (x &&& 0xff) =
        crcBits polynomial 8 (x &&& 0xff) ^^^ damage (x &&& 0xff) := by
      intro x
      have hbyte : x &&& 0xff = x.toUInt8.toUInt32 := by
        apply UInt32.toNat_inj.mp
        exact Nat.and_two_pow_sub_one_eq_mod x.toNat 8
      rw [hbyte]
      exact htable _
    have hstep : tableByte table (crc ^^^ err) b = crcByte polynomial crc b ^^^
        (crcBits polynomial 8 err ^^^ damage ((crc ^^^ err ^^^ b.toUInt32) &&& 0xff)) := by
      have hshift : (crc ^^^ err) >>> 8 = (crc ^^^ err ^^^ b.toUInt32) >>> 8 := by
        rw [UInt32.shiftRight_xor (a := crc ^^^ err), toUInt32_shiftRight_eight, UInt32.xor_zero]
      have hswap : crc ^^^ err ^^^ b.toUInt32 = crc ^^^ b.toUInt32 ^^^ err := by
        rw [UInt32.xor_assoc, UInt32.xor_comm err, UInt32.xor_assoc]
      rw [tableByte, hmask, hshift, ← UInt32.xor_assoc, ← crcBits_eight, crcByte, ← UInt32.xor_assoc,
        ← crcBits_xor, hswap]
    rw [List.foldl_cons, hstep, ih, List.foldl_cons, errorAfter]

end

end Espx.Foundation
