import TurboPanel.Arith.Histogram

/-!
# Latencies of an ingress

The model of `computeLatencyPercentileMs` and `computeIngressDerivedValues` in
`src/daemon/metrics/query/derived-metrics.ts`, with exact arithmetic: what is shown of the latencies
of an ingress, from its counters. A division by zero is an error of the model.
-/

namespace TurboPanel.IngressLatency

open Histogram List

/-! ## Percentiles -/

structure LatencyBucket where
  field : String
  boundMs : ℚ

/-- The buckets that the daemon scrapes, in the order of their bounds. -/
def ingressLatencyBuckets : List LatencyBucket :=
  [⟨"bucket10ms", 10⟩, ⟨"bucket50ms", 50⟩, ⟨"bucket100ms", 100⟩, ⟨"bucket500ms", 500⟩, ⟨"bucket1s", 1000⟩,
    ⟨"bucket5s", 5000⟩]

/-- The values of an entity, by field. -/
abbrev Values := String → Option ℚ

/-- A division by zero. -/
inductive Failure
  | divisionByZero
  deriving DecidableEq

def divide (dividend divisor : ℚ) : Except Failure ℚ :=
  if divisor = 0 then .error .divisionByZero else .ok (dividend / divisor)

/-- The cumulative counts, clamped so that they do not fall. -/
def cumulativeCounts (values : Values) (previous : ℚ) : List LatencyBucket → Option (List ℚ)
  | [] => some []
  | bucket :: buckets => do
    let raw ← values bucket.field
    let previous := max previous raw
    let cumulative ← cumulativeCounts values previous buckets
    return previous :: cumulative

/-- The walk to the first bucket whose count reaches the rank. -/
def interpolate (rank lowerBoundMs lowerCount : ℚ) : List (LatencyBucket × ℚ) → Except Failure ℚ
  | [] => .ok (ingressLatencyBuckets.getLast (by simp [ingressLatencyBuckets])).boundMs
  | (bucket, upperCount) :: buckets =>
    if rank ≤ upperCount then
      let population := upperCount - lowerCount
      if population ≤ 0 then .ok lowerBoundMs
      else do
        let fraction ← divide (rank - lowerCount) population
        return lowerBoundMs + fraction * (bucket.boundMs - lowerBoundMs)
    else interpolate rank bucket.boundMs upperCount buckets

/-- `null` is `none`. -/
def computeLatencyPercentileMs (values : Values) (total : Option ℚ) (quantile : ℚ) : Except Failure (Option ℚ) :=
  match total with
  | none => .ok none
  | some total =>
    if total ≤ 0 then .ok none
    else
      match cumulativeCounts values 0 ingressLatencyBuckets with
      | none => .ok none
      | some cumulative => do
        let percentile ← interpolate (quantile * total) 0 0 (ingressLatencyBuckets.zip cumulative)
        return some percentile

structure IngressDerivedValues where
  errorRatePercent : Option ℚ
  averageLatencyMs : Option ℚ
  p50LatencyMs : Option ℚ
  p90LatencyMs : Option ℚ
  p99LatencyMs : Option ℚ

def errorRatePercent : Option ℚ → Option ℚ → Option ℚ → Except Failure (Option ℚ)
  | some requests, some responses4xx, some responses5xx =>
    if requests ≤ 0 then .ok none
    else do
      let rate ← divide (responses4xx + responses5xx) requests
      return some (rate * 100)
  | _, _, _ => .ok none

def averageLatencyMs : Option ℚ → Option ℚ → Except Failure (Option ℚ)
  | some requestDurationSecondsSum, some requests =>
    if requests ≤ 0 then .ok none
    else do
      let seconds ← divide requestDurationSecondsSum requests
      return some (seconds * 1000)
  | _, _ => .ok none

def computeIngressDerivedValues (values : Values) : Except Failure IngressDerivedValues := do
  let requests := values "requests"
  let errorRatePercent ← errorRatePercent requests (values "responses4xx") (values "responses5xx")
  let averageLatencyMs ← averageLatencyMs (values "requestDurationSecondsSum") requests
  let p50LatencyMs ← computeLatencyPercentileMs values requests (1 / 2)
  let p90LatencyMs ← computeLatencyPercentileMs values requests (9 / 10)
  let p99LatencyMs ← computeLatencyPercentileMs values requests (99 / 100)
  return { errorRatePercent, averageLatencyMs, p50LatencyMs, p90LatencyMs, p99LatencyMs }

/-! ## Clamped counts -/

/-- All buckets have a reading. -/
def Counted (values : Values) : Prop :=
  ∀ bucket ∈ ingressLatencyBuckets, ∃ count, values bucket.field = some count ∧ 0 ≤ count

/-- The buckets with their clamped counts, as a histogram. -/
def clamped (values : Values) (previous : ℚ) : List LatencyBucket → List (ℚ × ℚ)
  | [] => []
  | bucket :: buckets =>
    let previous := max previous ((values bucket.field).getD 0)
    (bucket.boundMs, previous) :: clamped values previous buckets

/-- What the percentile is: a quantile of the clamped histogram. -/
def percentile (values : Values) (total quantile : ℚ) : ℚ :=
  quantileAt (quantile * total) 0 0 (clamped values 0 ingressLatencyBuckets)

section Clamped

variable {values : Values} {buckets : List LatencyBucket} {previous lower rank : ℚ}

theorem cumulativeCounts_eq (hvalues : ∀ bucket ∈ buckets, ∃ count, values bucket.field = some count ∧ 0 ≤ count) :
    cumulativeCounts values previous buckets = some ((clamped values previous buckets).map Prod.snd) := by
  induction buckets generalizing previous with
  | nil => rfl
  | cons bucket buckets ih =>
    obtain ⟨count, hcount, -⟩ := hvalues bucket mem_cons_self
    rw [cumulativeCounts, clamped, hcount]
    simp [ih fun bucket h => hvalues bucket (mem_cons_of_mem _ h)]

theorem ascending_clamped (hbounds : ((lower :: buckets.map LatencyBucket.boundMs)).Pairwise (· < ·)) :
    Ascending lower previous (clamped values previous buckets) := by
  induction buckets generalizing lower previous with
  | nil => trivial
  | cons bucket buckets ih =>
    obtain ⟨hfirst, hrest⟩ := pairwise_cons.1 hbounds
    exact ⟨hfirst _ mem_cons_self, le_max_left _ _, ih hrest⟩

/-- **The walk is the quantile of the clamped histogram**, and it divides by no zero. -/
theorem interpolate_eq (hlast : lastBound lower (clamped values previous buckets) =
      (ingressLatencyBuckets.getLast (by simp [ingressLatencyBuckets])).boundMs) :
    interpolate rank lower previous (buckets.zip ((clamped values previous buckets).map Prod.snd)) =
      .ok (quantileAt rank lower previous (clamped values previous buckets)) := by
  induction buckets generalizing lower previous with
  | nil =>
    rw [zip_nil_left, interpolate, ← hlast]
    rfl
  | cons bucket buckets ih =>
    rw [clamped, map_cons, zip_cons_cons, interpolate, quantileAt]
    dsimp only
    split_ifs with hreached hpopulation
    · -- an empty bucket is not interpolated
      have hempty : max previous ((values bucket.field).getD 0) - previous = 0 :=
        le_antisymm hpopulation (sub_nonneg.2 (le_max_left _ _))
      rw [hempty, div_zero, zero_mul, add_zero]
    · rw [divide, if_neg (ne_of_gt (not_le.1 hpopulation))]
      rfl
    · exact ih hlast

theorem clamped_mul {unit : ℚ} (hunit : 0 < unit) :
    clamped (fun field => (values field).map (unit * ·)) (unit * previous) buckets =
      (clamped values previous buckets).map fun bucket => (bucket.1, unit * bucket.2) := by
  induction buckets generalizing previous with
  | nil => rfl
  | cons bucket buckets ih =>
    have hcount : ((values bucket.field).map (unit * ·)).getD 0 = unit * (values bucket.field).getD 0 := by
      cases values bucket.field with
      | none => exact (mul_zero unit).symm
      | some count => rfl
    rw [clamped, clamped, hcount, ← mul_max_of_nonneg _ _ hunit.le, ih, map_cons]

/-- The counts of a window do not fall from one bucket to the next. -/
def NonDecreasing (values : Values) (buckets : List LatencyBucket) : Prop :=
  buckets.Pairwise fun bucket bucket' => (values bucket.field).getD 0 ≤ (values bucket'.field).getD 0

theorem clamped_of_nonDecreasing (h : NonDecreasing values buckets)
    (hprevious : ∀ bucket ∈ buckets, previous ≤ (values bucket.field).getD 0) :
    clamped values previous buckets = buckets.map fun bucket => (bucket.boundMs, (values bucket.field).getD 0) := by
  induction buckets generalizing previous with
  | nil => rfl
  | cons bucket buckets ih =>
    obtain ⟨hfirst, hrest⟩ := pairwise_cons.1 h
    rw [clamped, max_eq_right (hprevious bucket mem_cons_self), map_cons, ih hrest hfirst]

end Clamped

/-! ## Laws -/

section Laws

variable {values values' : Values} {total total' quantile : ℚ}

/-- The window with the counters of two windows. -/
def addWindows (values values' : Values) : Values := fun field => Option.map₂ (· + ·) (values field) (values' field)

theorem pairwise_bounds : ((0 : ℚ) :: ingressLatencyBuckets.map LatencyBucket.boundMs).Pairwise (· < ·) := by
  decide +kernel

theorem ascending_ingress (values : Values) : Ascending 0 0 (clamped values 0 ingressLatencyBuckets) :=
  ascending_clamped pairwise_bounds

theorem lastBound_ingress (values : Values) : lastBound 0 (clamped values 0 ingressLatencyBuckets) = 5000 := rfl

theorem computeLatencyPercentileMs_eq (htotal : 0 < total) (hvalues : Counted values) (quantile : ℚ) :
    computeLatencyPercentileMs values (some total) quantile = .ok (some (percentile values total quantile)) := by
  rw [computeLatencyPercentileMs, if_neg (not_le.2 htotal), cumulativeCounts_eq hvalues]
  dsimp only
  rw [interpolate_eq (lastBound_ingress values)]
  rfl

theorem percentile_mem (htotal : 0 < total) (hquantile : 0 ≤ quantile) :
    0 ≤ percentile values total quantile ∧ percentile values total quantile ≤ 5000 := by
  have hrank : 0 ≤ quantile * total := mul_nonneg hquantile htotal.le
  refine ⟨le_quantileAt (ascending_ingress values) hrank, ?_⟩
  rw [← lastBound_ingress values]
  exact quantileAt_le_lastBound (ascending_ingress values) hrank

theorem percentile_mono (htotal : 0 < total) (hquantile : 0 ≤ quantile) {quantile' : ℚ} (hle : quantile ≤ quantile') :
    percentile values total quantile ≤ percentile values total quantile' :=
  quantileAt_mono (ascending_ingress values) (mul_nonneg hquantile htotal.le)
    (mul_le_mul_of_nonneg_right hle htotal.le)

theorem percentile_mul {unit : ℚ} (hunit : 0 < unit) :
    percentile (fun field => (values field).map (unit * ·)) (unit * total) quantile =
      percentile values total quantile := by
  have hclamped := @clamped_mul values ingressLatencyBuckets 0 unit hunit
  rw [mul_zero] at hclamped
  have hscaled := @quantileAt_mul ℚ _ _ (quantile * total) 0 0 (clamped values 0 ingressLatencyBuckets) _ unit hunit
  rw [mul_zero] at hscaled
  rw [percentile, hclamped, mul_left_comm, hscaled, percentile]

theorem clamped_ingress (hvalues : Counted values) (h : NonDecreasing values ingressLatencyBuckets) :
    clamped values 0 ingressLatencyBuckets =
      ingressLatencyBuckets.map fun bucket => (bucket.boundMs, (values bucket.field).getD 0) := by
  refine clamped_of_nonDecreasing h fun bucket hbucket => ?_
  obtain ⟨count, hcount, hnonneg⟩ := hvalues bucket hbucket
  rw [hcount]
  exact hnonneg

section

variable (hvalues : Counted values) (hvalues' : Counted values')
include hvalues hvalues'

theorem addWindows_field :
    ∀ bucket ∈ ingressLatencyBuckets, ∃ count count', 0 ≤ count ∧ 0 ≤ count' ∧
      values bucket.field = some count ∧ values' bucket.field = some count' ∧
        addWindows values values' bucket.field = some (count + count') := by
  intro bucket hbucket
  obtain ⟨count, hcount, hnonneg⟩ := hvalues bucket hbucket
  obtain ⟨count', hcount', hnonneg'⟩ := hvalues' bucket hbucket
  refine ⟨count, count', hnonneg, hnonneg', hcount, hcount', ?_⟩
  rw [addWindows, hcount, hcount']
  rfl

theorem counted_addWindows : Counted (addWindows values values') := by
  intro bucket hbucket
  obtain ⟨count, count', hnonneg, hnonneg', -, -, hsum⟩ := addWindows_field hvalues hvalues' bucket hbucket
  exact ⟨count + count', hsum, add_nonneg hnonneg hnonneg'⟩

theorem clamped_addWindows
    (h : NonDecreasing values ingressLatencyBuckets) (h' : NonDecreasing values' ingressLatencyBuckets) :
    clamped (addWindows values values') 0 ingressLatencyBuckets = ingressLatencyBuckets.map fun bucket =>
      (bucket.boundMs, (values bucket.field).getD 0 + (values' bucket.field).getD 0) := by
  have hsum : ∀ bucket ∈ ingressLatencyBuckets, (addWindows values values' bucket.field).getD 0 =
      (values bucket.field).getD 0 + (values' bucket.field).getD 0 := by
    intro bucket hbucket
    obtain ⟨count, count', -, -, hcount, hcount', hsum⟩ := addWindows_field hvalues hvalues' bucket hbucket
    rw [hcount, hcount', hsum]
    rfl
  rw [clamped_ingress (counted_addWindows hvalues hvalues')]
  · exact map_congr_left fun bucket hbucket => by rw [hsum bucket hbucket]
  · refine List.Pairwise.imp_of_mem (fun hbucket hbucket' hle => ?_) (h.and h')
    rw [hsum _ hbucket, hsum _ hbucket']
    exact add_le_add hle.1 hle.2

end

/-- **The percentile of two windows together is between theirs.** -/
theorem percentile_addWindows_mem (htotal : 0 < total) (htotal' : 0 < total') (hvalues : Counted values)
    (hvalues' : Counted values') (h : NonDecreasing values ingressLatencyBuckets)
    (h' : NonDecreasing values' ingressLatencyBuckets) (hquantile : 0 ≤ quantile) :
    percentile (addWindows values values') (total + total') quantile ∈
      Set.uIcc (percentile values total quantile) (percentile values' total' quantile) := by
  obtain rfl | hquantile := hquantile.eq_or_lt
  · have hzero : ∀ values total, percentile values total 0 = 0 := fun values total => by
      rw [percentile, zero_mul, quantileAt_self (ascending_ingress values)]
    rw [hzero, hzero, hzero]
    exact Set.left_mem_uIcc
  · have hascending := ascending_ingress values
    have hascending' := ascending_ingress values'
    rw [clamped_ingress hvalues h] at hascending
    rw [clamped_ingress hvalues' h'] at hascending'
    have hmem := quantileAt_add_mem hascending hascending' (mul_pos hquantile htotal) (mul_pos hquantile htotal')
    rw [add_zero, ← mul_add] at hmem
    rw [percentile, percentile, percentile, clamped_addWindows hvalues hvalues' h h', clamped_ingress hvalues h,
      clamped_ingress hvalues' h']
    exact hmem

theorem computeIngressDerivedValues_ok (htotal : 0 < total) (hvalues : Counted values)
    (hrequests : values "requests" = some total) : ∃ derived, computeIngressDerivedValues values = .ok derived ∧
      derived.p50LatencyMs = some (percentile values total (1 / 2)) ∧
      derived.p90LatencyMs = some (percentile values total (9 / 10)) ∧
      derived.p99LatencyMs = some (percentile values total (99 / 100)) := by
  have hdivide : ∀ dividend, divide dividend total = .ok (dividend / total) := fun dividend => if_neg htotal.ne'
  have herror : ∃ rate, errorRatePercent (some total) (values "responses4xx") (values "responses5xx") = .ok rate := by
    cases values "responses4xx" with
    | none => exact ⟨none, rfl⟩
    | some responses4xx =>
      cases values "responses5xx" with
      | none => exact ⟨none, rfl⟩
      | some responses5xx =>
        rw [errorRatePercent, if_neg (not_le.2 htotal), hdivide]
        exact ⟨_, rfl⟩
  have haverage : ∃ latency, averageLatencyMs (values "requestDurationSecondsSum") (some total) = .ok latency := by
    cases values "requestDurationSecondsSum" with
    | none => exact ⟨none, rfl⟩
    | some requestDurationSecondsSum =>
      rw [averageLatencyMs, if_neg (not_le.2 htotal), hdivide]
      exact ⟨_, rfl⟩
  obtain ⟨rate, herror⟩ := herror
  obtain ⟨latency, haverage⟩ := haverage
  rw [computeIngressDerivedValues]
  simp only [hrequests, herror, haverage, computeLatencyPercentileMs_eq htotal hvalues]
  exact ⟨_, rfl, rfl, rfl, rfl⟩

/-- **Latency percentiles behave like quantiles**: they are between 0 and 5 s and grow with the
quantile, they do not depend on the unit of the counters, and those of two windows together are
between theirs. -/
theorem latency_percentiles_are_quantiles (values : Values) (total : ℚ) (htotal : 0 < total)
    (hvalues : Counted values) :
    ∃ p : ℚ → ℚ,
      (∀ quantile, 0 ≤ quantile → computeLatencyPercentileMs values (some total) quantile = .ok (some (p quantile)) ∧
        0 ≤ p quantile ∧ p quantile ≤ 5000) ∧
      MonotoneOn p (Set.Ici 0) ∧
      (values "requests" = some total → ∃ derived, computeIngressDerivedValues values = .ok derived ∧
        ∃ p50 p90 p99, derived.p50LatencyMs = some p50 ∧ derived.p90LatencyMs = some p90 ∧
          derived.p99LatencyMs = some p99 ∧ p50 ≤ p90 ∧ p90 ≤ p99) ∧
      (∀ unit, 0 < unit → ∀ quantile,
        computeLatencyPercentileMs (fun field => (values field).map (unit * ·)) (some (unit * total)) quantile =
          computeLatencyPercentileMs values (some total) quantile) ∧
      ∀ values' total', 0 < total' → Counted values' → NonDecreasing values ingressLatencyBuckets →
        NonDecreasing values' ingressLatencyBuckets → ∀ quantile, 0 ≤ quantile →
          ∃ p' sum, computeLatencyPercentileMs values' (some total') quantile = .ok (some p') ∧
            computeLatencyPercentileMs (addWindows values values') (some (total + total')) quantile = .ok (some sum) ∧
              sum ∈ Set.uIcc (p quantile) p' := by
  refine ⟨percentile values total, fun quantile hquantile =>
    ⟨computeLatencyPercentileMs_eq htotal hvalues quantile, percentile_mem htotal hquantile⟩, ?_, ?_, ?_, ?_⟩
  · intro quantile hquantile quantile' _ hle
    exact percentile_mono htotal hquantile hle
  · intro hrequests
    obtain ⟨derived, hok, h50, h90, h99⟩ := computeIngressDerivedValues_ok htotal hvalues hrequests
    exact ⟨derived, hok, _, _, _, h50, h90, h99, percentile_mono htotal (by norm_num) (by norm_num),
      percentile_mono htotal (by norm_num) (by norm_num)⟩
  · intro unit hunit quantile
    have hscaled : Counted fun field => (values field).map (unit * ·) := by
      intro bucket hbucket
      obtain ⟨count, hcount, hnonneg⟩ := hvalues bucket hbucket
      exact ⟨unit * count, congrArg (Option.map (unit * ·)) hcount, mul_nonneg hunit.le hnonneg⟩
    rw [computeLatencyPercentileMs_eq (mul_pos hunit htotal) hscaled, computeLatencyPercentileMs_eq htotal hvalues,
      percentile_mul hunit]
  · intro values' total' htotal' hvalues' h h' quantile hquantile
    exact ⟨_, _, computeLatencyPercentileMs_eq htotal' hvalues' quantile,
      computeLatencyPercentileMs_eq (add_pos htotal htotal') (counted_addWindows hvalues hvalues') quantile,
      percentile_addWindows_mem htotal htotal' hvalues hvalues' h h' hquantile⟩

/-- A window of 200 requests, half of them within 50 ms. -/
def fastWindow : Values
  | "requests" => some 200
  | "bucket10ms" => some 0
  | "bucket50ms" => some 100
  | _ => some 200

theorem latency_percentiles_fastWindow :
    computeLatencyPercentileMs fastWindow (some 200) (9 / 10) = .ok (some 90) ∧
      ∃ p : ℚ → ℚ, computeLatencyPercentileMs fastWindow (some 200) 1 = .ok (some (p 1)) ∧ p 1 ≤ 5000 := by
  obtain ⟨p, hp, -⟩ := latency_percentiles_are_quantiles fastWindow 200 (by norm_num) (by
    intro bucket hbucket
    simp only [ingressLatencyBuckets, mem_cons, not_mem_nil, or_false] at hbucket
    rcases hbucket with rfl | rfl | rfl | rfl | rfl | rfl
    · exact ⟨0, rfl, le_rfl⟩
    · exact ⟨100, rfl, by norm_num⟩
    all_goals exact ⟨200, rfl, by norm_num⟩)
  exact ⟨by decide +kernel, p, (hp 1 zero_le_one).1, (hp 1 zero_le_one).2.2⟩

end Laws

end TurboPanel.IngressLatency
