import Mathlib.Algebra.Order.Group.Nat
import Mathlib.Tactic.Ring

/-!
# A number as groups of bits

The `k` groups of `w` bits of a number, the highest first. The first `j` of them are the groups of
the number without its lower bits, so two numbers agree in them exactly when they agree above those
bits.
-/

namespace TurboPanel.BitGroups

open List

/-- The `k` lowest groups of `w` bits, the highest of them first. -/
def groups (w : ℕ) : ℕ → ℕ → List ℕ
  | 0, _ => []
  | k + 1, n => groups w k (n / 2 ^ w) ++ [n % 2 ^ w]

variable {w : ℕ}

@[simp] theorem length_groups (k n : ℕ) : (groups w k n).length = k := by
  induction k generalizing n with
  | zero => rfl
  | succ k ih => rw [groups, length_append, ih, length_singleton]

theorem groups_eq_map (k n : ℕ) :
    groups w k n = (List.range k).map fun i => n / 2 ^ (w * (k - 1 - i)) % 2 ^ w := by
  induction k generalizing n with
  | zero => rfl
  | succ k ih =>
    rw [groups, ih, range_succ, map_append, map_singleton]
    congr 1
    · refine map_congr_left fun i hi => ?_
      have hlt := mem_range.1 hi
      have hplace : w * (k + 1 - 1 - i) = w + w * (k - 1 - i) := by
        rw [show k + 1 - 1 - i = k - 1 - i + 1 by omega]
        ring
      rw [hplace, Nat.pow_add, Nat.div_div_eq_div_mul]
    · rw [Nat.add_sub_cancel, Nat.sub_self, Nat.mul_zero, Nat.pow_zero, Nat.div_one]

theorem groups_inj {k n m : ℕ} (hn : n < 2 ^ (w * k)) (hm : m < 2 ^ (w * k)) :
    groups w k n = groups w k m ↔ n = m := by
  refine ⟨fun h => ?_, fun h => h ▸ rfl⟩
  induction k generalizing n m with
  | zero =>
    rw [Nat.mul_zero, Nat.pow_zero] at hn hm
    omega
  | succ k ih =>
    obtain ⟨hhigh, hlow⟩ := append_inj' h rfl
    have hpow : 2 ^ (w * (k + 1)) = 2 ^ w * 2 ^ (w * k) := by ring
    rw [hpow] at hn hm
    have hdiv := ih (Nat.div_lt_of_lt_mul hn) (Nat.div_lt_of_lt_mul hm) hhigh
    rw [← Nat.div_add_mod n (2 ^ w), ← Nat.div_add_mod m (2 ^ w), hdiv, (List.cons.inj hlow).1]

theorem take_groups {k j : ℕ} (hj : j ≤ k) (n : ℕ) :
    (groups w k n).take j = groups w j (n / 2 ^ (w * (k - j))) := by
  induction k generalizing n with
  | zero =>
    obtain rfl := Nat.le_zero.1 hj
    rfl
  | succ k ih =>
    rcases Nat.lt_or_ge j (k + 1) with hlt | hge
    · have hsub : w + w * (k - j) = w * (k + 1 - j) := by
        rw [Nat.succ_sub (Nat.le_of_lt_succ hlt), Nat.succ_eq_add_one]
        ring
      rw [groups, take_append_of_le_length (by rw [length_groups]; omega), ih (by omega),
        Nat.div_div_eq_div_mul, ← Nat.pow_add, hsub]
    · obtain rfl : j = k + 1 := by omega
      rw [take_of_length_le (by simp), Nat.sub_self, Nat.mul_zero, Nat.pow_zero, Nat.div_one]

/-- **Two numbers agree in their first groups when they agree above the bits that follow.** -/
theorem take_groups_eq_iff {k j n m : ℕ} (hj : j ≤ k) (hn : n < 2 ^ (w * k)) (hm : m < 2 ^ (w * k)) :
    (groups w k n).take j = (groups w k m).take j ↔
      n / 2 ^ (w * (k - j)) = m / 2 ^ (w * (k - j)) := by
  have hpow : 2 ^ (w * k) = 2 ^ (w * (k - j)) * 2 ^ (w * j) := by
    rw [← Nat.pow_add, ← Nat.mul_add, Nat.sub_add_cancel hj]
  rw [hpow] at hn hm
  rw [take_groups hj, take_groups hj, groups_inj (Nat.div_lt_of_lt_mul hn) (Nat.div_lt_of_lt_mul hm)]

end TurboPanel.BitGroups
