import Mathlib.Tactic

/-!
# Token buckets

A bucket holds up to a capacity and refills evenly. It keeps its level and the time of its last
withdrawal, and it is refilled when the next one is made. In a window of time there is withdrawn at
most the capacity and what the window refills (`Draws.drawn_le`).
-/

namespace TurboPanel.TokenBucket

open List

variable {K : Type*} [Field K] [LinearOrder K]

structure Bucket (K : Type*) where
  level : K
  time : K
  deriving DecidableEq

structure Withdrawal (K : Type*) where
  time : K
  amount : K

/-- What is in the bucket at a time. -/
def Bucket.refilled (capacity rate : K) (b : Bucket K) (time : K) : K :=
  min capacity (b.level + rate * (time - b.time))

/-- The withdrawals are made one after the other, each of at most what is in the bucket. -/
inductive Draws (capacity rate : K) : Bucket K → List (Withdrawal K) → Prop where
  | nil (b : Bucket K) : Draws capacity rate b []
  | cons {b : Bucket K} {w : Withdrawal K} {rest : List (Withdrawal K)} (htime : b.time ≤ w.time)
      (hamount : 0 ≤ w.amount) (hle : w.amount ≤ b.refilled capacity rate w.time)
      (hrest : Draws capacity rate ⟨b.refilled capacity rate w.time - w.amount, w.time⟩ rest) :
      Draws capacity rate b (w :: rest)

/-- What is withdrawn in a window. -/
def drawn (start stop : K) (ws : List (Withdrawal K)) : K :=
  ((ws.filter fun w => decide (start ≤ w.time ∧ w.time ≤ stop)).map (·.amount)).sum

variable {capacity rate start stop : K} {b : Bucket K} {ws : List (Withdrawal K)}

variable {w : Withdrawal K}

theorem drawn_cons_of_mem (h : start ≤ w.time ∧ w.time ≤ stop) :
    drawn start stop (w :: ws) = w.amount + drawn start stop ws := by
  rw [drawn, filter_cons_of_pos (by simpa using h), map_cons, sum_cons, drawn]

theorem drawn_cons_of_not (h : ¬(start ≤ w.time ∧ w.time ≤ stop)) :
    drawn start stop (w :: ws) = drawn start stop ws := by
  rw [drawn, filter_cons_of_neg (by simpa using h), drawn]

theorem Draws.le_time (h : Draws capacity rate b ws) (hw : w ∈ ws) : b.time ≤ w.time := by
  induction h with
  | nil b => cases hw
  | cons htime hamount hle hrest ih =>
    obtain rfl | hw := mem_cons.1 hw
    · exact htime
    · exact htime.trans (ih hw)

theorem Draws.drawn_eq_zero (h : Draws capacity rate b ws) (hstop : stop < b.time) : drawn start stop ws = 0 := by
  rw [drawn, filter_eq_nil_iff.2 fun w hw => ?_, map_nil, sum_nil]
  simpa using fun _ => hstop.trans_le (h.le_time hw)

variable [IsStrictOrderedRing K]

theorem refilled_nonneg (hcapacity : 0 ≤ capacity) (hrate : 0 ≤ rate) (hlevel : 0 ≤ b.level) {time : K}
    (htime : b.time ≤ time) : 0 ≤ b.refilled capacity rate time :=
  le_min hcapacity (add_nonneg hlevel (mul_nonneg hrate (sub_nonneg.2 htime)))

theorem Draws.drawn_le_level (h : Draws capacity rate b ws) (hrate : 0 ≤ rate) (hlevel : 0 ≤ b.level)
    (hstop : b.time ≤ stop) : drawn start stop ws ≤ b.level + rate * (stop - b.time) := by
  induction h with
  | nil b => exact add_nonneg hlevel (mul_nonneg hrate (sub_nonneg.2 hstop))
  | @cons b w rest htime hamount hle hrest ih =>
    by_cases hlate : stop < w.time
    · rw [drawn_cons_of_not fun hmem => absurd hmem.2 (not_le.2 hlate), hrest.drawn_eq_zero hlate]
      exact add_nonneg hlevel (mul_nonneg hrate (sub_nonneg.2 hstop))
    · have hrefilled : b.refilled capacity rate w.time ≤ b.level + rate * (w.time - b.time) := min_le_right _ _
      have hbound := ih (sub_nonneg.2 hle) (not_lt.1 hlate)
      have htotal : w.amount + drawn start stop rest ≤ b.level + rate * (stop - b.time) := by
        calc w.amount + drawn start stop rest
            ≤ w.amount + (b.refilled capacity rate w.time - w.amount + rate * (stop - w.time)) := by gcongr
          _ = b.refilled capacity rate w.time + rate * (stop - w.time) := by ring
          _ ≤ b.level + rate * (w.time - b.time) + rate * (stop - w.time) := by gcongr
          _ = b.level + rate * (stop - b.time) := by ring
      by_cases hmem : start ≤ w.time ∧ w.time ≤ stop
      · rw [drawn_cons_of_mem hmem]
        exact htotal
      · rw [drawn_cons_of_not hmem]
        exact (le_add_of_nonneg_left hamount).trans htotal

/-- **What a window can withdraw**: the capacity, and what is refilled in it. -/
theorem Draws.drawn_le (h : Draws capacity rate b ws) (hcapacity : 0 ≤ capacity) (hrate : 0 ≤ rate)
    (hstop : start ≤ stop) : drawn start stop ws ≤ capacity + rate * (stop - start) := by
  have hnonneg : 0 ≤ capacity + rate * (stop - start) :=
    add_nonneg hcapacity (mul_nonneg hrate (sub_nonneg.2 hstop))
  induction h with
  | nil b => exact hnonneg
  | @cons b w rest htime hamount hle hrest ih =>
    by_cases hmem : start ≤ w.time ∧ w.time ≤ stop
    · rw [drawn_cons_of_mem hmem]
      have hrefilled : b.refilled capacity rate w.time ≤ capacity := min_le_left _ _
      have hbound : drawn start stop rest ≤ b.refilled capacity rate w.time - w.amount + rate * (stop - w.time) :=
        hrest.drawn_le_level hrate (sub_nonneg.2 hle) hmem.2
      calc w.amount + drawn start stop rest
          ≤ w.amount + (b.refilled capacity rate w.time - w.amount + rate * (stop - w.time)) := by gcongr
        _ = b.refilled capacity rate w.time + rate * (stop - w.time) := by ring
        _ ≤ capacity + rate * (stop - start) := by
          have := hmem.1
          gcongr
    · rw [drawn_cons_of_not hmem]
      exact ih

end TurboPanel.TokenBucket
