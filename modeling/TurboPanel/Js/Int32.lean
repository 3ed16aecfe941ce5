import Mathlib.Data.BitVec
import Mathlib.Tactic

/-!
# The 32-bit operators of ECMAScript

A number is an integer; `<<`, `&` and `>>>` take its bits modulo `2 ^ 32`, and `<<` and `&` answer
with a signed 32-bit value. What later arithmetic sees of such a value is its residue modulo
`2 ^ 32` (`bits_shl`, `bits_and`), which `ushr` by zero reads off (`ushr_zero`).
-/

namespace TurboPanel.Js

/-- The 32 bits the operators see of a number. -/
def bits (x : ℤ) : BitVec 32 := BitVec.ofInt 32 x

/-- `a << k`. -/
def shl (a : ℤ) (k : ℕ) : ℤ := (bits a <<< (k % 32)).toInt

/-- `a & b`. -/
def and32 (a b : ℤ) : ℤ := (bits a &&& bits b).toInt

/-- `a | b`. -/
def or32 (a b : ℤ) : ℤ := (bits a ||| bits b).toInt

/-- `a >>> k`. -/
def ushr (a : ℤ) (k : ℕ) : ℤ := (bits a >>> (k % 32)).toNat

/-- `a >> k`. -/
def shr (a : ℤ) (k : ℕ) : ℤ := ((bits a).sshiftRight (k % 32)).toInt

theorem bits_toInt (x : BitVec 32) : bits x.toInt = x := BitVec.ofInt_toInt

theorem bits_add (a b : ℤ) : bits (a + b) = bits a + bits b := BitVec.ofInt_add a b

theorem bits_natCast (n : ℕ) : bits (n : ℤ) = BitVec.ofNat 32 n := BitVec.ofInt_natCast 32 n

variable {k : ℕ}

theorem bits_shl (a : ℤ) (hk : k < 32) : bits (shl a k) = bits a <<< k := by
  rw [shl, bits_toInt, Nat.mod_eq_of_lt hk]

theorem bits_and (a b : ℤ) : bits (and32 a b) = bits a &&& bits b := bits_toInt _

theorem bits_ushr (a : ℤ) (hk : k < 32) : bits (ushr a k) = bits a >>> k := by
  rw [ushr, bits_natCast, BitVec.ofNat_toNat, BitVec.setWidth_eq, Nat.mod_eq_of_lt hk]

theorem ushr_eq (a : ℤ) (hk : k < 32) : ushr a k = ((bits a).toNat / 2 ^ k : ℕ) := by
  rw [ushr, Nat.mod_eq_of_lt hk, BitVec.toNat_ushiftRight, Nat.shiftRight_eq_div_pow]

theorem ushr_zero (a : ℤ) : ushr a 0 = ((bits a).toNat : ℤ) := by
  rw [ushr_eq a (by decide), pow_zero, Nat.div_one]

theorem and32_byte (a : ℤ) : and32 a 255 = ((bits a).toNat % 256 : ℕ) := by
  have h : (bits a &&& bits 255).toNat = (bits a).toNat % 256 := by
    rw [BitVec.toNat_and]
    exact Nat.and_two_pow_sub_one_eq_mod _ 8
  rw [and32, BitVec.toInt_eq_toNat_of_lt, h]
  rw [h]
  have := Nat.mod_lt (bits a).toNat (show 0 < 256 by decide)
  omega

theorem and32_natCast_byte (n : ℕ) : and32 n 0xff = (n % 256 : ℕ) := by
  rw [and32_byte, bits_natCast, BitVec.toNat_ofNat]
  congr 1
  omega

theorem and32_shr_byte (n : ℕ) : and32 (shr n 8) 0xff = (n / 256 % 256 : ℕ) := by
  have hbits : (bits n).sshiftRight 8 &&& bits 255 = (bits n) >>> 8 &&& bits 255 := by
    apply BitVec.eq_of_getLsbD_eq
    intro i hi
    rw [BitVec.getLsbD_and, BitVec.getLsbD_and, BitVec.getLsbD_sshiftRight, BitVec.getLsbD_ushiftRight]
    by_cases hlow : i < 8
    · simp [show 8 + i < 32 by omega, show ¬32 ≤ i by omega]
    · have hmask : (bits 255).getLsbD i = false := by
        rw [show (255 : ℤ) = (255 : ℕ) by rfl, bits_natCast, BitVec.getLsbD_ofNat]
        have : (255 : ℕ) < 2 ^ i := lt_of_lt_of_le (by norm_num) (Nat.pow_le_pow_right (by decide)
          (show 8 ≤ i by omega))
        rw [Nat.testBit_lt_two_pow this, Bool.and_false]
      rw [hmask, Bool.and_false, Bool.and_false]
  have hshr : and32 (shr n 8) 0xff = and32 (ushr n 8) 0xff := by
    rw [and32, and32, bits_ushr _ (by decide), shr, bits_toInt]
    exact congrArg BitVec.toInt hbits
  rw [hshr, and32_byte, bits_ushr _ (by decide), bits_natCast, BitVec.toNat_ushiftRight,
    BitVec.toNat_ofNat, Nat.shiftRight_eq_div_pow]
  congr 1
  omega

theorem and32_low (b : UInt8) : and32 b.toNat 0x7f = (b.toNat % 128 : ℕ) := by
  have hb := b.toNat_lt
  have h : (bits b.toNat &&& bits 0x7f).toNat = b.toNat % 128 := by
    rw [BitVec.toNat_and, bits_natCast, BitVec.toNat_ofNat, Nat.mod_eq_of_lt (by omega)]
    exact Nat.and_two_pow_sub_one_eq_mod _ 7
  rw [and32, BitVec.toInt_eq_toNat_of_lt (by rw [h]; omega), h]

theorem bits_two_pow (k : ℕ) : bits (2 ^ k) = BitVec.twoPow 32 k := by
  apply BitVec.eq_of_toNat_eq
  rw [show (2 : ℤ) ^ k = (2 ^ k : ℕ) by push_cast; rfl, bits_natCast, BitVec.toNat_ofNat,
    BitVec.toNat_twoPow]

theorem and32_two_pow (n : ℕ) (hk : k < 32) : and32 n (2 ^ k) = 0 ↔ n.testBit k = false := by
  have hbit : (BitVec.ofNat 32 n).getLsbD k = n.testBit k := by
    rw [BitVec.getLsbD_ofNat, decide_eq_true hk, Bool.true_and]
  rw [and32, bits_natCast, bits_two_pow, BitVec.and_twoPow, hbit, ← BitVec.toInt_zero,
    BitVec.toInt_inj]
  cases n.testBit k with
  | false => simp
  | true =>
    have hne : BitVec.twoPow 32 k ≠ 0#32 := by
      intro h
      have hzero := congrArg BitVec.toNat h
      rw [BitVec.toNat_twoPow, Nat.mod_eq_of_lt (Nat.pow_lt_pow_right (by decide) hk)] at hzero
      exact absurd hzero (pow_ne_zero k two_ne_zero)
    simpa using hne

theorem and32_high (b : UInt8) : and32 b.toNat 0x80 = 0 ↔ b.toNat < 128 := by
  have hb := b.toNat_lt
  rw [show (0x80 : ℤ) = 2 ^ 7 by norm_num, and32_two_pow _ (by decide),
    Nat.testBit_eq_decide_div_mod_eq, decide_eq_false_iff_not]
  omega

theorem or32_shl (a : ℤ) {k b : ℕ} (hk : k < 32) (hb : b < 2 ^ k) :
    or32 (shl a k) b = (a * 2 ^ k + b : ℤ).bmod (2 ^ 32) := by
  have hpow : (2 : ℕ) ^ 32 = 2 ^ (32 - k) * 2 ^ k := by rw [← pow_add, Nat.sub_add_cancel hk.le]
  have hlt : b < 2 ^ 32 := hb.trans (Nat.pow_lt_pow_right (by decide) hk)
  have hres : (bits a).toNat % 2 ^ (32 - k) + 1 ≤ 2 ^ (32 - k) := Nat.mod_lt _ (by positivity)
  have hsum : 2 ^ k * ((bits a).toNat % 2 ^ (32 - k)) + b < 2 ^ (32 - k) * 2 ^ k :=
    calc 2 ^ k * ((bits a).toNat % 2 ^ (32 - k)) + b
        < 2 ^ k * ((bits a).toNat % 2 ^ (32 - k)) + 2 ^ k := by omega
      _ = 2 ^ k * ((bits a).toNat % 2 ^ (32 - k) + 1) := by ring
      _ ≤ 2 ^ k * 2 ^ (32 - k) := Nat.mul_le_mul_left _ hres
      _ = 2 ^ (32 - k) * 2 ^ k := mul_comm _ _
  have hor : bits (shl a k) ||| bits b = bits (shl a k) + bits b := by
    apply BitVec.eq_of_toNat_eq
    rw [bits_shl a hk, bits_natCast, BitVec.toNat_or, BitVec.toNat_add, BitVec.toNat_shiftLeft,
      BitVec.toNat_ofNat, Nat.mod_eq_of_lt hlt, Nat.shiftLeft_eq, hpow, Nat.mul_mod_mul_right,
      mul_comm _ (2 ^ k), ← Nat.two_pow_add_eq_or_of_lt hb, Nat.mod_eq_of_lt hsum]
  have hshl : bits (shl a k) = bits (a * 2 ^ k) := by
    rw [bits_shl a hk, BitVec.shiftLeft_eq_mul_twoPow, ← bits_two_pow]
    exact (BitVec.ofInt_mul a (2 ^ k)).symm
  rw [or32, hor, hshl, ← bits_add, bits, BitVec.toInt_ofInt]

theorem toNat_and_allOnes_shl (x : BitVec 32) (hk : k ≤ 32) :
    (x &&& (BitVec.allOnes 32 <<< k)).toNat = x.toNat / 2 ^ k * 2 ^ k := by
  have h : x &&& (BitVec.allOnes 32 <<< k) = (x >>> k) <<< k := by
    apply BitVec.eq_of_getLsbD_eq
    intro i hi
    by_cases hik : i < k
    · simp [hik]
    · have hlt : i - k < 32 := by omega
      rw [BitVec.getLsbD_and, BitVec.getLsbD_shiftLeft, BitVec.getLsbD_shiftLeft,
        BitVec.getLsbD_allOnes, BitVec.getLsbD_ushiftRight, show k + (i - k) = i by omega]
      simp [hi, hik, hlt]
  rw [h, BitVec.toNat_shiftLeft, BitVec.toNat_ushiftRight, Nat.shiftRight_eq_div_pow,
    Nat.shiftLeft_eq]
  refine Nat.mod_eq_of_lt (lt_of_le_of_lt (Nat.div_mul_le_self _ _) x.isLt)

end TurboPanel.Js
