import Mathlib.Data.Rat.Floor
import Mathlib.Tactic

/-!
# Numbers

A number of ECMAScript is finite, an infinity or `NaN`. The finite ones are kept as rationals:
rounding down and comparing, which is all that is used here, are exact. A comparison with `NaN` is
false.
-/

namespace TurboPanel.Js

inductive Number where
  | finite (q : ℚ)
  | posInf
  | negInf
  | nan
  deriving DecidableEq

namespace Number

/-- `Math.floor`. -/
def floor : Number → Number
  | finite q => finite ⌊q⌋
  | posInf => posInf
  | negInf => negInf
  | nan => nan

/-- `Math.max(n, x)`, for an integer `n`. -/
def maxInt (n : ℤ) : Number → Number
  | finite q => finite (max (n : ℚ) q)
  | posInf => posInf
  | negInf => finite n
  | nan => nan

/-- `n < x`, for an integer `n`. -/
def below (n : ℤ) : Number → Bool
  | finite q => decide ((n : ℚ) < q)
  | posInf => true
  | negInf => false
  | nan => false

/-- `n > x`, for an integer `n`. -/
def above (n : ℤ) : Number → Bool
  | finite q => decide (q < (n : ℚ))
  | posInf => false
  | negInf => true
  | nan => false

/-- The natural number it is: `Number.isInteger(x) && x >= 0`. -/
def natural? : Number → Option ℕ
  | finite q => if q.den = 1 ∧ 0 ≤ q.num then some q.num.toNat else none
  | posInf => none
  | negInf => none
  | nan => none

/-- An integer as a double: 53 significant bits, a half goes to the even one, and what is too large
is `Infinity`. -/
@[irreducible] def ofNat (n : ℕ) : Number :=
  let unit := 2 ^ (n.log2 - 52)
  let significand := n / unit
  let rest := n % unit
  let up := unit < 2 * rest ∨ 2 * rest = unit ∧ significand % 2 = 1
  let rounded := (if up then significand + 1 else significand) * unit
  if rounded < 2 ^ 1024 then finite rounded else posInf

/-- `x - y`. The difference of two finite numbers is not rounded: only its sign is used. -/
def sub : Number → Number → Number
  | finite p, finite q => finite (p - q)
  | finite _, posInf => negInf
  | finite _, negInf => posInf
  | posInf, finite _ => posInf
  | posInf, negInf => posInf
  | negInf, finite _ => negInf
  | negInf, posInf => negInf
  | _, _ => nan

/-- How a comparison whose result this is came out; `NaN` is no result. -/
def ordering? : Number → Option Ordering
  | finite q => some (if q < 0 then .lt else if q = 0 then .eq else .gt)
  | posInf => some .gt
  | negInf => some .lt
  | nan => none

theorem natural?_natCast (n : ℕ) : natural? (finite n) = some n := by
  rw [natural?, if_pos ⟨Rat.den_natCast n, by rw [Rat.num_natCast]; exact Int.natCast_nonneg n⟩,
    Rat.num_natCast, Int.toNat_natCast]

theorem maxInt_floor_finite (n : ℤ) (q : ℚ) : maxInt n (floor (finite q)) = finite (max n ⌊q⌋ : ℤ) := by
  rw [floor, maxInt, Int.cast_max]

theorem above_mono {x : Number} {m n : ℤ} (h : m ≤ n) (hn : above n x = false) :
    above m x = false := by
  cases x with
  | finite q =>
    simp only [above, decide_eq_false_iff_not, not_lt] at *
    exact (Int.cast_le.2 h).trans hn
  | posInf => rfl
  | negInf => exact hn
  | nan => rfl

end Number

end TurboPanel.Js
