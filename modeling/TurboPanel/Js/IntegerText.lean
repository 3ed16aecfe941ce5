import TurboPanel.Js.Number
import TurboPanel.Js.Text

/-!
# The text of a double that is an integer

`String(x)` writes a double with the fewest digits that round to it, padded with zeros, and from
10^21 on with an exponent. Up to `Number.MAX_SAFE_INTEGER` that is the integer itself
(`integerText_of_safe`): an integer is its own double there, and no other integer rounds to it.
-/

namespace TurboPanel.Js

/-! ## Digits -/

variable {n : ℕ}

theorem toDigits_cons (hn : 1 ≤ n) : ∃ first rest, Nat.toDigits 10 n = first :: rest ∧ first ≠ '0' := by
  induction n using Nat.strong_induction_on with
  | _ n ih =>
    obtain hlt | hge := Nat.lt_or_ge n 10
    · have hchar : ∀ d < 10, 1 ≤ d → Nat.digitChar d ≠ '0' := by decide
      exact ⟨Nat.digitChar n, [], Nat.toDigits_of_lt_base hlt, hchar n hlt hn⟩
    · obtain ⟨first, rest, hdigits, hfirst⟩ := ih (n / 10) (by omega) (by omega)
      refine ⟨first, rest ++ Nat.toDigits 10 (n % 10), ?_, hfirst⟩
      rw [← List.cons_append, ← hdigits,
        Nat.toDigits_append_toDigits (by decide) (by omega) (Nat.mod_lt n (by decide)), Nat.div_add_mod]

/-! ## Rounding -/

/-- The numbers below are the safe integers: `Number.MAX_SAFE_INTEGER + 1`. -/
@[irreducible] def safeBound : ℕ := 2 ^ 53

theorem lt_two_pow {k : ℕ} (h : n < 2 ^ 53) (hk : 53 ≤ k) : n < 2 ^ k :=
  h.trans_le (Nat.pow_le_pow_right (by omega) hk)

theorem Number.ofNat_of_lt (h : n < safeBound) : Number.ofNat n = .finite n := by
  rw [safeBound] at h
  have hlog : n.log2 - 52 = 0 := by
    rcases Nat.eq_zero_or_pos n with rfl | hpos
    · rfl
    · have hlt := (Nat.log2_lt hpos.ne').2 h
      omega
  have hfinite := lt_two_pow h (by omega : 53 ≤ 1024)
  have hexact : ¬(1 < 0 ∨ 0 = 1 ∧ n % 2 = 1) := by omega
  unfold Number.ofNat
  rw [hlog]
  simp only [pow_zero, Nat.div_one, Nat.mod_one, mul_zero, mul_one]
  generalize 2 ^ 1024 = bound at hfinite ⊢
  rw [if_neg hexact, if_pos hfinite]

theorem Number.ofNat_ne_of_le {m : ℕ} (hm : safeBound ≤ m) (hn : n < safeBound) : Number.ofNat m ≠ .finite n := by
  rw [safeBound] at hm hn
  have hm0 : m ≠ 0 := by
    rintro rfl
    cases hm
  have hlog : 53 ≤ m.log2 := (Nat.le_log2 hm0).2 hm
  have hself := Nat.log2_self_le hm0
  have hunit : 2 ^ m.log2 = 2 ^ 52 * 2 ^ (m.log2 - 52) := by
    rw [← pow_add]
    congr 1
    omega
  have hsignificand : 2 ^ 52 ≤ m / 2 ^ (m.log2 - 52) := by
    rw [Nat.le_div_iff_mul_le (by positivity), ← hunit]
    exact hself
  have hbig : 2 ^ 53 ≤ 2 ^ m.log2 := Nat.pow_le_pow_right (by omega) hlog
  unfold Number.ofNat
  generalize 2 ^ 1024 = bound
  generalize 2 ^ (m.log2 - 52) = unit at *
  dsimp only
  split_ifs with hup hfinite hfinite
  · intro heq
    rw [Number.finite.injEq, Nat.cast_inj] at heq
    have hle : 2 ^ 52 * unit ≤ n := by
      rw [← heq]
      exact Nat.mul_le_mul_right _ (by omega)
    omega
  · exact Number.noConfusion
  · intro heq
    rw [Number.finite.injEq, Nat.cast_inj] at heq
    have hle : 2 ^ 52 * unit ≤ n := by
      rw [← heq]
      exact Nat.mul_le_mul_right _ hsignificand
    omega
  · exact Number.noConfusion

/-! ## Fewest digits -/

/-- The multiple of a power of ten next to a double that rounds to it. -/
def shortestAt (n e : ℕ) : Option ℕ :=
  let lower := n / 10 ^ e * 10 ^ e
  let upper := lower + 10 ^ e
  if Number.ofNat lower = .finite n ∧ (Number.ofNat upper ≠ .finite n ∨ n - lower ≤ upper - n) then some lower
  else if Number.ofNat upper = .finite n then some upper
  else none

/-- The decimal with the fewest digits that rounds to a double. -/
def shortest (n : ℕ) : ℕ :=
  ((List.range ((Nat.toDigits 10 n).length + 1)).reverse.findSome? (shortestAt n)).getD n

/-- `String(x)` of a double that is a natural number. -/
def integerText (n : ℕ) : Text :=
  let digits := Nat.toDigits 10 (shortest n)
  if shortest n < 10 ^ 21 then digits
  else
    match (digits.reverse.dropWhile (· == '0')).reverse with
    | [] => digits
    | [first] => first :: 'e' :: '+' :: Nat.toDigits 10 (digits.length - 1)
    | first :: rest => first :: '.' :: rest ++ 'e' :: '+' :: Nat.toDigits 10 (digits.length - 1)

theorem shortestAt_of_safe {e s : ℕ} (hn : n < safeBound) (h : shortestAt n e = some s) : s = n := by
  have hrounds : ∀ m, Number.ofNat m = .finite n → m = n := by
    intro m hm
    obtain hlt | hle := Nat.lt_or_ge m safeBound
    · rw [Number.ofNat_of_lt hlt, Number.finite.injEq] at hm
      exact_mod_cast hm
    · exact absurd hm (Number.ofNat_ne_of_le hle hn)
  rw [shortestAt] at h
  split_ifs at h with hlower hupper
  · rw [← Option.some.inj h]
    exact hrounds _ hlower.1
  · rw [← Option.some.inj h]
    exact hrounds _ hupper

theorem shortest_of_safe (hn : n < safeBound) : shortest n = n := by
  rw [shortest]
  cases hfound : (List.range ((Nat.toDigits 10 n).length + 1)).reverse.findSome? (shortestAt n) with
  | none => rfl
  | some s =>
    obtain ⟨e, -, he⟩ := List.exists_of_findSome?_eq_some hfound
    exact shortestAt_of_safe hn he

/-- **A safe integer is written as it is.** -/
theorem integerText_of_safe (hn : n < safeBound) : integerText n = Nat.toDigits 10 n := by
  have hlt : n < 10 ^ 21 := by
    rw [safeBound] at hn
    omega
  rw [integerText, shortest_of_safe hn, if_pos hlt]

end TurboPanel.Js
