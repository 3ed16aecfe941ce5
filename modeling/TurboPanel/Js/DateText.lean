import Mathlib.Data.Char
import TurboPanel.Data.Lexicographic
import TurboPanel.Js.Calendar
import TurboPanel.Js.Text

/-!
# Dates as text

`toISOString` and the fields of a date with zeros in front. Numbers of one width are in alphabetical
order (`fixedDigits_lt`), and days are in the order of their dates (`date_lt`).
-/

namespace TurboPanel.Js

open List

/-- `text.padStart(width, '0')`, of a text of characters of one code unit. -/
def padStart (width : ℕ) (text : Text) : Text := List.replicate (width - text.length) '0' ++ text

/-- The year of `toISOString`: four digits, or a sign and six. -/
def yearText (y : ℤ) : Text :=
  if 0 ≤ y ∧ y ≤ 9999 then padStart 4 (intText y)
  else (if y < 0 then '-' else '+') :: padStart 6 (Nat.toDigits 10 y.natAbs)

/-- `new Date(ms).toISOString()`. -/
def isoText (ms : ℤ) : Text :=
  let day := ms / msPerDay
  let time := ms % msPerDay
  yearText (yearFromDay day) ++ '-' :: padStart 2 (intText (monthFromDay day + 1)) ++
    '-' :: padStart 2 (intText (dateFromDay day)) ++ 'T' :: padStart 2 (intText (time / 3600000)) ++
      ':' :: padStart 2 (intText (time / 60000 % 60)) ++ ':' :: padStart 2 (intText (time / 1000 % 60)) ++
        '.' :: padStart 3 (intText (time % 1000)) ++ ['Z']

example : isoText 1767225600000 = "2026-01-01T00:00:00.000Z".toList := by decide +kernel

/-! ## Digits of one width -/

/-- The last digits of a number. -/
def fixedDigits : ℕ → ℕ → Text
  | 0, _ => []
  | width + 1, n => fixedDigits width (n / 10) ++ [Nat.digitChar (n % 10)]

@[simp] theorem length_fixedDigits (width n : ℕ) : (fixedDigits width n).length = width := by
  induction width generalizing n with
  | zero => rfl
  | succ width ih => rw [fixedDigits, length_append, ih, length_singleton]

theorem fixedDigits_zero (width : ℕ) : fixedDigits width 0 = List.replicate width '0' := by
  induction width with
  | zero => rfl
  | succ width ih =>
    rw [fixedDigits, Nat.zero_div, ih, replicate_succ']
    rfl

theorem isDigitOf_of_mem_fixedDigits {width n : ℕ} {c : Char} (h : c ∈ fixedDigits width n) :
    isDigitOf 10 c = true := by
  induction width generalizing n with
  | zero => cases h
  | succ width ih =>
    rw [fixedDigits, mem_append, mem_singleton] at h
    obtain h | rfl := h
    · exact ih h
    · have hlt : n % 10 < 10 := Nat.mod_lt n (by decide)
      exact (by decide : ∀ k < 10, isDigitOf 10 (Nat.digitChar k) = true) _ hlt

theorem padStart_toDigits {width n : ℕ} (hwidth : 0 < width) (h : n < 10 ^ width) :
    padStart width (Nat.toDigits 10 n) = fixedDigits width n := by
  induction width generalizing n with
  | zero => exact absurd hwidth (lt_irrefl 0)
  | succ width ih =>
    by_cases hn : n < 10
    · rw [Nat.toDigits_of_lt_base hn, padStart, fixedDigits, Nat.div_eq_of_lt hn, Nat.mod_eq_of_lt hn,
        fixedDigits_zero, length_singleton, Nat.add_sub_cancel]
    · have hten : 10 ≤ n := not_lt.1 hn
      have hpos : 0 < width := by
        by_contra hzero
        have hlt : n < 10 ^ 1 := by rwa [show width = 0 by omega] at h
        omega
      have hdiv : n / 10 < 10 ^ width := Nat.div_lt_of_lt_mul (by rwa [pow_succ'] at h)
      rw [Nat.toDigits_of_base_le (by decide) hten, fixedDigits, ← ih hpos hdiv, padStart, padStart,
        length_append, length_singleton, Nat.add_sub_add_right, append_assoc]

/-- **Numbers of one width are in alphabetical order.** -/
theorem fixedDigits_lt {width n m : ℕ} (h : n < m) (hm : m < 10 ^ width) : fixedDigits width n <
    fixedDigits width m := by
  induction width generalizing n m with
  | zero =>
    rw [pow_zero] at hm
    omega
  | succ width ih =>
    have hdiv : m / 10 < 10 ^ width := Nat.div_lt_of_lt_mul (by rwa [pow_succ'] at hm)
    have hlength : (fixedDigits width (n / 10)).length = (fixedDigits width (m / 10)).length := by
      rw [length_fixedDigits, length_fixedDigits]
    rw [fixedDigits, fixedDigits]
    obtain hlt | heq := (Nat.div_le_div_right (c := 10) h.le).lt_or_eq
    · exact Lexicographic.append_lt_append hlength (ih hlt hdiv) _ _
    · have hmod : n % 10 < m % 10 := by omega
      have hm10 : m % 10 < 10 := Nat.mod_lt m (by decide)
      rw [heq]
      refine Lexicographic.append_cons_lt _ ?_ [] []
      exact (by decide : ∀ k < 10, ∀ l < k, Nat.digitChar l < Nat.digitChar k) _ hm10 _ hmod

/-! ## Days -/

theorem daysInMonth_le (y month : ℤ) : daysInMonth y month ≤ 31 := by
  have hleap := inLeapYear_cases y
  rw [daysInMonth, monthLengths, getD_eq_getElem?_getD]
  generalize inLeapYear y = leap at hleap
  cases hget : [31, 28 + leap, 31, 30, 31, 30, 31, 31, 30, 31, 30, 31][month.toNat]? with
  | none =>
    rw [Option.getD_none]
    decide
  | some days =>
    have hmem := mem_of_getElem? hget
    simp only [mem_cons, not_mem_nil, or_false] at hmem
    rw [Option.getD_some]
    omega

/-- **Days are in the order of their dates.** -/
theorem date_lt {d e : ℤ} (h : d < e) : yearFromDay d < yearFromDay e ∨
    yearFromDay d = yearFromDay e ∧ (monthFromDay d < monthFromDay e ∨
      monthFromDay d = monthFromDay e ∧ dateFromDay d < dateFromDay e) := by
  have hyear : yearFromDay d ≤ yearFromDay e := le_yearFromDay ((yearFromDay_spec d).1.trans h.le)
  obtain hlt | heq := hyear.lt_or_eq
  · exact .inl hlt
  · refine .inr ⟨heq, ?_⟩
    have hmonth : monthFromDay d ≤ monthFromDay e := by
      rw [monthFromDay, monthFromDay, heq]
      refine Int.ofNat_le.2 (countP_mono_left fun start _ hstart => ?_)
      rw [decide_eq_true_eq] at hstart ⊢
      omega
    refine hmonth.lt_or_eq.imp_right fun hsame => ⟨hsame, ?_⟩
    rw [dateFromDay, dateFromDay, hsame, heq]
    omega

end TurboPanel.Js
