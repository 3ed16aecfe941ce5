import Mathlib.Data.Nat.Digits.Lemmas
import Mathlib.Tactic

/-!
# Numbers written with the highest digit first

`bigEndian base` reads digits as a loop does that multiplies what it has by the base and adds the
next digit. It is `Nat.ofDigits` of the reversed digits, which gives the bounds and the injectivity
among digits of one length; leading zeros do not count.
-/

namespace TurboPanel

open List

/-- The number that the digits write, the highest of them first. -/
def bigEndian (base : ℕ) (digits : List ℕ) : ℕ := digits.foldl (fun n d => n * base + d) 0

section

variable {base : ℕ} {ds es : List ℕ}

theorem bigEndian_concat (base d : ℕ) (ds : List ℕ) :
    bigEndian base (ds ++ [d]) = bigEndian base ds * base + d := by
  rw [bigEndian, foldl_append]
  rfl

theorem bigEndian_eq_ofDigits (base : ℕ) (ds : List ℕ) :
    bigEndian base ds = Nat.ofDigits base ds.reverse := by
  induction ds using List.reverseRecOn with
  | nil => rfl
  | append_singleton ds d ih =>
    rw [bigEndian_concat, ih, reverse_append, reverse_singleton, singleton_append,
      Nat.ofDigits_cons, add_comm, mul_comm]

theorem bigEndian_append (base : ℕ) (ds es : List ℕ) :
    bigEndian base (ds ++ es) = bigEndian base ds * base ^ es.length + bigEndian base es := by
  rw [bigEndian_eq_ofDigits, bigEndian_eq_ofDigits, bigEndian_eq_ofDigits, reverse_append,
    Nat.ofDigits_append, length_reverse, add_comm, mul_comm]

theorem bigEndian_singleton (base d : ℕ) : bigEndian base [d] = d := by simp [bigEndian]

theorem bigEndian_cons (base d : ℕ) (ds : List ℕ) :
    bigEndian base (d :: ds) = d * base ^ ds.length + bigEndian base ds := by
  rw [← singleton_append, bigEndian_append, bigEndian_singleton]

theorem bigEndian_lt (hbase : 1 < base) (h : ∀ d ∈ ds, d < base) :
    bigEndian base ds < base ^ ds.length := by
  rw [bigEndian_eq_ofDigits, ← length_reverse]
  exact Nat.ofDigits_lt_base_pow_length hbase fun d hd => h d (mem_reverse.1 hd)

theorem bigEndian_zero_cons (base : ℕ) (ds : List ℕ) :
    bigEndian base (0 :: ds) = bigEndian base ds := by
  rw [bigEndian_cons, zero_mul, zero_add]

theorem bigEndian_replicate_append (base n : ℕ) (ds : List ℕ) :
    bigEndian base (List.replicate n 0 ++ ds) = bigEndian base ds := by
  induction n with
  | zero => rfl
  | succ n ih => rw [replicate_succ, cons_append, bigEndian_zero_cons, ih]

end

end TurboPanel
