import Mathlib.Tactic

/-!
# Histograms

A histogram counts how many values are at most each of its bounds. Between two bounds the values are
taken to lie evenly: `countAt` is the count of the values up to a point, and `quantileAt` is the
least point with a given count. Each is read off the other (`quantileAt_le_iff`), which gives the
laws of the quantiles: the sum of two histograms has its quantiles between theirs
(`quantileAt_add_mem`).
-/

namespace TurboPanel.Histogram

variable {K : Type*} [Field K] [LinearOrder K]

/-- The least point up to which there are `rank` values, in the buckets above `lower`. -/
def quantileAt (rank : K) : K → K → List (K × K) → K
  | lower, _, [] => lower
  | lower, lowerCount, (bound, count) :: buckets =>
    if rank ≤ count then lower + (rank - lowerCount) / (count - lowerCount) * (bound - lower)
    else quantileAt rank bound count buckets

/-- The count of the values up to a point, in the buckets above `lower`. -/
def countAt (x : K) : K → K → List (K × K) → K
  | _, lowerCount, [] => lowerCount
  | lower, lowerCount, (bound, count) :: buckets =>
    if x < bound then lowerCount + (x - lower) / (bound - lower) * (count - lowerCount)
    else countAt x bound count buckets

/-- The bound of the last bucket. -/
def lastBound : K → List (K × K) → K
  | lower, [] => lower
  | _, (bound, _) :: buckets => lastBound bound buckets

/-- The bounds grow, and the counts do not fall. -/
def Ascending : K → K → List (K × K) → Prop
  | _, _, [] => True
  | lower, lowerCount, (bound, count) :: buckets => lower < bound ∧ lowerCount ≤ count ∧ Ascending bound count buckets

variable {rank lower lowerCount x : K} {buckets : List (K × K)}

omit [Field K] in
theorem le_lastBound (h : Ascending lower lowerCount buckets) : lower ≤ lastBound lower buckets := by
  induction buckets generalizing lower lowerCount with
  | nil => exact le_rfl
  | cons bucket buckets ih => exact h.1.le.trans (ih h.2.2)

variable [IsStrictOrderedRing K]

section

variable (h : Ascending lower lowerCount buckets)
include h

theorem le_countAt (hx : lower ≤ x) : lowerCount ≤ countAt x lower lowerCount buckets := by
  induction buckets generalizing lower lowerCount with
  | nil => exact le_rfl
  | cons bucket buckets ih =>
    obtain ⟨hbound, hcount, hrest⟩ := h
    rw [countAt]
    split_ifs with hin
    · have hpart : 0 ≤ (x - lower) / (bucket.1 - lower) := div_nonneg (sub_nonneg.2 hx) (sub_nonneg.2 hbound.le)
      have := mul_nonneg hpart (sub_nonneg.2 hcount)
      linarith
    · exact hcount.trans (ih hrest (not_lt.1 hin))

theorem le_quantileAt (hrank : lowerCount ≤ rank) : lower ≤ quantileAt rank lower lowerCount buckets := by
  induction buckets generalizing lower lowerCount with
  | nil => exact le_rfl
  | cons bucket buckets ih =>
    obtain ⟨hbound, hcount, hrest⟩ := h
    rw [quantileAt]
    split_ifs with hin
    · have hpart : 0 ≤ (rank - lowerCount) / (bucket.2 - lowerCount) :=
        div_nonneg (sub_nonneg.2 hrank) (sub_nonneg.2 hcount)
      have := mul_nonneg hpart (sub_nonneg.2 hbound.le)
      linarith
    · exact hbound.le.trans (ih hrest (not_le.1 hin).le)

/-- **A quantile is at most a point when the count up to the point reaches the rank**, or past the
last bound. -/
theorem quantileAt_le_iff (hrank : lowerCount < rank) (hx : lower ≤ x) :
    quantileAt rank lower lowerCount buckets ≤ x ↔
      rank ≤ countAt x lower lowerCount buckets ∨ lastBound lower buckets ≤ x := by
  induction buckets generalizing lower lowerCount with
  | nil => exact iff_of_true hx (.inr hx)
  | cons bucket buckets ih =>
    obtain ⟨hbound, hcount, hrest⟩ := h
    have hlast := le_lastBound hrest
    rw [quantileAt, countAt, lastBound]
    have hwidth : 0 < bucket.1 - lower := sub_pos.2 hbound
    by_cases hin : rank ≤ bucket.2
    · have hpopulation : 0 < bucket.2 - lowerCount := sub_pos.2 (hrank.trans_le hin)
      rw [if_pos hin]
      by_cases hx' : x < bucket.1
      · -- both are read off the same bucket
        rw [if_pos hx', or_iff_left (not_le.2 (hx'.trans_le hlast)), ← le_sub_iff_add_le', ← sub_le_iff_le_add',
          div_mul_eq_mul_div, div_mul_eq_mul_div, div_le_iff₀ hpopulation, le_div_iff₀ hwidth]
      · have hx' := not_lt.1 hx'
        rw [if_neg (not_lt.2 hx')]
        refine iff_of_true (le_trans ?_ hx') (.inl (hin.trans (le_countAt hrest hx')))
        have hpart : (rank - lowerCount) / (bucket.2 - lowerCount) ≤ 1 := (div_le_one hpopulation).2 (by linarith)
        have := mul_le_mul_of_nonneg_right hpart hwidth.le
        linarith
    · have hin := not_le.1 hin
      rw [if_neg (not_le.2 hin)]
      by_cases hx' : x < bucket.1
      · rw [if_pos hx']
        refine iff_of_false (not_le.2 (hx'.trans_le (le_quantileAt hrest hin.le))) (not_or.2 ⟨?_, ?_⟩)
        · have hpart : (x - lower) / (bucket.1 - lower) ≤ 1 := (div_le_one hwidth).2 (by linarith)
          have := mul_le_mul_of_nonneg_right hpart (sub_nonneg.2 hcount)
          exact not_le.2 (by linarith)
        · exact not_le.2 (hx'.trans_le hlast)
      · rw [if_neg hx']
        exact ih hrest hin (not_lt.1 hx')

end

omit [IsStrictOrderedRing K] in
theorem quantileAt_self (h : Ascending lower lowerCount buckets) :
    quantileAt lowerCount lower lowerCount buckets = lower := by
  cases buckets with
  | nil => rfl
  | cons bucket buckets => rw [quantileAt, if_pos h.2.1, sub_self, zero_div, zero_mul, add_zero]

/-- **A quantile is not past the last bound.** -/
theorem quantileAt_le_lastBound (h : Ascending lower lowerCount buckets) (hrank : lowerCount ≤ rank) :
    quantileAt rank lower lowerCount buckets ≤ lastBound lower buckets := by
  obtain rfl | hrank := hrank.eq_or_lt
  · rw [quantileAt_self h]
    exact le_lastBound h
  · exact (quantileAt_le_iff h hrank (le_lastBound h)).2 (.inr le_rfl)

/-- **A higher rank has a higher quantile.** -/
theorem quantileAt_mono (h : Ascending lower lowerCount buckets) {rank' : K} (hrank : lowerCount ≤ rank)
    (hle : rank ≤ rank') : quantileAt rank lower lowerCount buckets ≤ quantileAt rank' lower lowerCount buckets := by
  have hlower := le_quantileAt h (hrank.trans hle)
  obtain rfl | hrank := hrank.eq_or_lt
  · rwa [quantileAt_self h]
  · rw [quantileAt_le_iff h hrank hlower]
    exact ((quantileAt_le_iff h (hrank.trans_le hle) hlower).1 le_rfl).imp_left hle.trans

/-- **Counting in another unit changes no quantile.** -/
theorem quantileAt_mul {unit : K} (hunit : 0 < unit) :
    quantileAt (unit * rank) lower (unit * lowerCount) (buckets.map fun bucket => (bucket.1, unit * bucket.2)) =
      quantileAt rank lower lowerCount buckets := by
  induction buckets generalizing lower lowerCount with
  | nil => rfl
  | cons bucket buckets ih =>
    rw [List.map_cons, quantileAt, quantileAt, ih, ← mul_sub, ← mul_sub, mul_div_mul_left _ _ hunit.ne']
    simp only [mul_le_mul_iff_right₀ hunit]

/-! ## Sums -/

section Sum

variable {ι : Type*} {bound count count' : ι → K} {indices : List ι} {lowerCount' rank' : K}

omit [IsStrictOrderedRing K] in
theorem countAt_add :
    countAt x lower (lowerCount + lowerCount') (indices.map fun i => (bound i, count i + count' i)) =
      countAt x lower lowerCount (indices.map fun i => (bound i, count i)) +
        countAt x lower lowerCount' (indices.map fun i => (bound i, count' i)) := by
  induction indices generalizing lower lowerCount lowerCount' with
  | nil => rfl
  | cons i indices ih =>
    rw [List.map_cons, List.map_cons, List.map_cons, countAt, countAt, countAt, ih]
    split_ifs
    · ring
    · rfl

omit [Field K] [LinearOrder K] [IsStrictOrderedRing K] in
theorem lastBound_map (count count' : ι → K) :
    lastBound lower (indices.map fun i => (bound i, count i)) =
      lastBound lower (indices.map fun i => (bound i, count' i)) := by
  induction indices generalizing lower with
  | nil => rfl
  | cons i indices ih => exact ih

section

variable (h : Ascending lower lowerCount (indices.map fun i => (bound i, count i)))
  (h' : Ascending lower lowerCount' (indices.map fun i => (bound i, count' i)))
include h h'

theorem ascending_add :
    Ascending lower (lowerCount + lowerCount') (indices.map fun i => (bound i, count i + count' i)) := by
  induction indices generalizing lower lowerCount lowerCount' with
  | nil => trivial
  | cons i indices ih => exact ⟨h.1, add_le_add h.2.1 h'.2.1, ih h.2.2 h'.2.2⟩

/-- **The quantile of a sum is between the quantiles.** -/
theorem quantileAt_add_mem (hrank : lowerCount < rank) (hrank' : lowerCount' < rank') :
    quantileAt (rank + rank') lower (lowerCount + lowerCount') (indices.map fun i => (bound i, count i + count' i)) ∈
      Set.uIcc (quantileAt rank lower lowerCount (indices.map fun i => (bound i, count i)))
        (quantileAt rank' lower lowerCount' (indices.map fun i => (bound i, count' i))) := by
  have hsum := ascending_add h h'
  have hle : ∀ {x}, lower ≤ x →
      (quantileAt (rank + rank') lower (lowerCount + lowerCount')
          (indices.map fun i => (bound i, count i + count' i)) ≤ x ↔
        rank + rank' ≤ countAt x lower lowerCount (indices.map fun i => (bound i, count i)) +
            countAt x lower lowerCount' (indices.map fun i => (bound i, count' i)) ∨
          lastBound lower (indices.map fun i => (bound i, count i)) ≤ x) := by
    intro x hx
    rw [quantileAt_le_iff hsum (add_lt_add hrank hrank') hx, countAt_add, lastBound_map _ count]
  rw [Set.uIcc, Set.mem_Icc]
  constructor
  · -- below both quantiles neither count reaches its rank
    by_contra hlt
    have hlt := not_le.1 hlt
    have hlower := le_quantileAt hsum (add_lt_add hrank hrank').le
    have hx := (quantileAt_le_iff h hrank hlower).not.1 (not_le.2 (lt_of_lt_of_le hlt inf_le_left))
    have hx' := (quantileAt_le_iff h' hrank' hlower).not.1 (not_le.2 (lt_of_lt_of_le hlt inf_le_right))
    rw [not_or, not_le, not_le] at hx hx'
    obtain hreached | hlast := (hle hlower).1 le_rfl
    · exact absurd hreached (not_le.2 (add_lt_add hx.1 hx'.1))
    · exact absurd hlast (not_le.2 hx.2)
  · -- at the greater quantile both counts reach their ranks
    have hlower := (le_quantileAt h hrank.le).trans (@le_sup_left _ _ _
      (quantileAt rank' lower lowerCount' (indices.map fun i => (bound i, count' i))))
    rw [hle hlower]
    obtain hreached | hlast := (quantileAt_le_iff h hrank hlower).1 le_sup_left
    · obtain hreached' | hlast' := (quantileAt_le_iff h' hrank' hlower).1 le_sup_right
      · exact .inl (add_le_add hreached hreached')
      · exact .inr (lastBound_map count count' ▸ hlast')
    · exact .inr hlast

end

end Sum

end TurboPanel.Histogram
