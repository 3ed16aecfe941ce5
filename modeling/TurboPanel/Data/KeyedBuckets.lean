import TurboPanel.Data.TokenBucket

/-!
# A token bucket for each key

A limiter answers requests one after the other, each with a key and a time (`answers`). The ideal
one has a bucket for each key, full before its first request, and never forgets one (`idealStep`). A
limiter that keeps its own state gives the answers of the ideal one when its buckets have the same
levels from each request on (`answers_eq_of_follows`). A bucket that was not used while it was
refilled from empty to full has the level of one that never was used (`level_of_untouched`), so that
it may be forgotten. In any window a key gets at most the capacity and what the window refills
(`granted_le`).
-/

namespace TurboPanel.TokenBucket

open List

structure Request (Key K : Type*) where
  key : Key
  time : K

/-- A limiter: what it answers, and its next state. -/
abbrev Limiter (State Key K : Type*) := State → Request Key K → Bool × State

section Runs

variable {State State' Key K : Type*}

def answers (step : Limiter State Key K) : State → List (Request Key K) → List Bool
  | _, [] => []
  | s, r :: rest => (step s r).1 :: answers step (step s r).2 rest

/-- The requests that were granted. -/
def granted (step : Limiter State Key K) (s : State) (calls : List (Request Key K)) : List (Request Key K) :=
  ((calls.zip (answers step s calls)).filter (·.2)).map (·.1)

theorem granted_cons (step : Limiter State Key K) (s : State) (r : Request Key K) (rest : List (Request Key K)) :
    granted step s (r :: rest) = if (step s r).1 then r :: granted step (step s r).2 rest
      else granted step (step s r).2 rest := by
  rw [granted, answers, zip_cons_cons, filter_cons]
  split <;> rfl

/-- The state after some requests. -/
def stateAfter (step : Limiter State Key K) (s : State) (calls : List (Request Key K)) : State :=
  calls.foldl (fun s r => (step s r).2) s

theorem stateAfter_concat (step : Limiter State Key K) (s : State) (calls : List (Request Key K))
    (r : Request Key K) : stateAfter step s (calls ++ [r]) = (step (stateAfter step s calls) r).2 := by
  rw [stateAfter, foldl_append]
  rfl

/-- **Simulation.** Two limiters whose states stay related, whatever requests they had, give the
same answers. -/
theorem answers_eq_of_sim {step : Limiter State Key K} {step' : Limiter State' Key K}
    (Ok : List (Request Key K) → Prop) (R : List (Request Key K) → State → State' → Prop)
    (hstep : ∀ {past r s s'}, Ok (past ++ [r]) → R past s s' →
      (step s r).1 = (step' s' r).1 ∧ R (past ++ [r]) (step s r).2 (step' s' r).2)
    (past : List (Request Key K)) {calls : List (Request Key K)} {s : State} {s' : State'} (hR : R past s s')
    (hok : ∀ p, p <+: past ++ calls → Ok p) : answers step s calls = answers step' s' calls := by
  induction calls generalizing past s s' with
  | nil => rfl
  | cons r rest ih =>
    have happend : past ++ r :: rest = past ++ [r] ++ rest := by
      rw [append_assoc]
      rfl
    rw [happend] at hok
    obtain ⟨hanswer, hnext⟩ := hstep (hok _ (prefix_append _ rest)) hR
    rw [answers, answers, hanswer, ih (past ++ [r]) hnext hok]

end Runs

section Levels

variable {Key K : Type*} [DecidableEq Key] [Field K] [LinearOrder K]

/-- What is in a bucket at a time; one that was never used is full. -/
def level (capacity rate : K) : Option (Bucket K) → K → K
  | none, _ => capacity
  | some b, time => b.refilled capacity rate time

/-- One token is taken, if there is one. -/
def take (capacity rate : K) (b : Option (Bucket K)) (time : K) : Bool × Bucket K :=
  let tokens := level capacity rate b time
  if tokens < 1 then (false, ⟨tokens, time⟩) else (true, ⟨tokens - 1, time⟩)

/-- The limiter that never forgets. -/
def idealStep (capacity rate : K) : Limiter (Key → Option (Bucket K)) Key K := fun s r =>
  let taken := take capacity rate (s r.key) r.time
  (taken.1, Function.update s r.key (some taken.2))

variable {capacity rate : K}

variable {b : Option (Bucket K)} {time : K}

theorem take_congr {b' : Option (Bucket K)}
    (h : level capacity rate b time = level capacity rate b' time) :
    take capacity rate b time = take capacity rate b' time := by
  rw [take, h, take]

theorem idealStep_bucket (s : Key → Option (Bucket K)) (r : Request Key K) (key : Key) :
    (idealStep capacity rate s r).2 key =
      if key = r.key then some (take capacity rate (s r.key) r.time).2 else s key := by
  rw [idealStep]
  exact Function.update_apply s r.key _ key

theorem take_time (b : Option (Bucket K)) (time : K) : (take capacity rate b time).2.time = time := by
  rw [take]
  split <;> rfl

variable [IsStrictOrderedRing K]

theorem level_of_untouched {b : Bucket K} (hlevel : 0 ≤ b.level)
    (h : capacity ≤ rate * (time - b.time)) : level capacity rate (some b) time = capacity :=
  min_eq_left (h.trans (le_add_of_nonneg_left hlevel))

theorem level_nonneg (hcapacity : 0 ≤ capacity) (hrate : 0 ≤ rate)
    (hb : ∀ b' ∈ b, 0 ≤ b'.level ∧ b'.time ≤ time) : 0 ≤ level capacity rate b time := by
  cases b with
  | none => exact hcapacity
  | some b =>
    obtain ⟨hlevel, htime⟩ := hb b rfl
    exact refilled_nonneg hcapacity hrate hlevel htime

theorem take_level_nonneg (h : 0 ≤ level capacity rate b time) :
    0 ≤ (take capacity rate b time).2.level := by
  rw [take]
  split
  · exact h
  · rename_i hone
    exact sub_nonneg.2 (not_lt.1 hone)

/-- The times of the requests do not go back. -/
def Ordered (calls : List (Request Key K)) : Prop := calls.Pairwise fun r r' => r.time ≤ r'.time

omit [DecidableEq Key] [Field K] [IsStrictOrderedRing K] in
theorem Ordered.le_last {past : List (Request Key K)} {r : Request Key K} (h : Ordered (past ++ [r])) :
    ∀ r' ∈ past, r'.time ≤ r.time := by
  intro r' hr'
  exact (pairwise_append.1 h).2.2 r' hr' r mem_cons_self

/-- The buckets that a limiter shows at a time have the levels of the ideal ones, now and later. -/
def Follows (capacity rate : K) (shown : K → Key → Option (Bucket K)) (past : List (Request Key K))
    (s : Key → Option (Bucket K)) : Prop :=
  ∀ key time, (∀ r ∈ past, r.time ≤ time) →
    level capacity rate (shown time key) time = level capacity rate (s key) time

omit [IsStrictOrderedRing K] in
variable {calls : List (Request Key K)}

omit [IsStrictOrderedRing K] in
/-- **A limiter that follows the ideal one.** Its answer is what the bucket that it shows gives, and
it then shows for that key a bucket of the level that is left, and for the others buckets of the
levels they had. -/
theorem answers_eq_of_follows {State : Type*} {step : Limiter State Key K} (shown : State → K → Key → Option (Bucket K))
    (Ok : List (Request Key K) → Prop) (Inv : List (Request Key K) → State → Prop) {start : State}
    (hstep : ∀ {past r s}, Ok (past ++ [r]) → Ordered (past ++ [r]) → Inv past s →
      Inv (past ++ [r]) (step s r).2 ∧ (step s r).1 = (take capacity rate (shown s r.time r.key) r.time).1 ∧
      ∀ key time, r.time ≤ time → level capacity rate (shown (step s r).2 time key) time =
        level capacity rate (if key = r.key then some (take capacity rate (shown s r.time r.key) r.time).2
          else shown s time key) time)
    (hInv : Inv [] start) (hstart : ∀ time key, shown start time key = none)
    (hordered : Ordered calls) (hok : ∀ p, p <+: calls → Ok p) :
    answers step start calls = answers (idealStep capacity rate) (fun _ => none) calls := by
  refine answers_eq_of_sim (fun p => Ok p ∧ Ordered p)
    (fun past s s' => Inv past s ∧ Follows capacity rate (shown s) past s') ?_ [] ⟨hInv, fun key time _ => ?_⟩
    fun p hp => ⟨hok p hp, hordered.sublist hp.sublist⟩
  · rintro past r s s' ⟨hok, hordered⟩ ⟨hInv, hfollows⟩
    obtain ⟨hInv', hanswer, hlevels⟩ := hstep hok hordered hInv
    have htake := take_congr (hfollows r.key r.time hordered.le_last)
    refine ⟨?_, hInv', fun key time htime => ?_⟩
    · rw [hanswer, htake]
      rfl
    · have hlast : r.time ≤ time := htime r (mem_append_right _ mem_cons_self)
      rw [hlevels key time hlast, idealStep_bucket, htake]
      split
      · rfl
      · exact hfollows key time fun r' hr' => htime r' (mem_append_left _ hr')
  · rw [hstart]

/-! ## What a window grants -/

/-- What is taken from the bucket of a key. -/
def withdrawals (capacity rate : K) (key : Key) : (Key → Option (Bucket K)) → List (Request Key K) →
    List (Withdrawal K)
  | _, [] => []
  | s, r :: rest =>
    let next := withdrawals capacity rate key (idealStep capacity rate s r).2 rest
    if r.key = key then ⟨r.time, if (idealStep capacity rate s r).1 then 1 else 0⟩ :: next else next

/-- The requests of a key in a window. -/
def InWindow (key : Key) (start stop : K) (r : Request Key K) : Prop :=
  r.key = key ∧ start ≤ r.time ∧ r.time ≤ stop

instance (key : Key) (start stop : K) : DecidablePred (InWindow key start stop) := fun r =>
  inferInstanceAs (Decidable (r.key = key ∧ start ≤ r.time ∧ r.time ≤ stop))

omit [IsStrictOrderedRing K] in
theorem drawn_withdrawals (capacity rate : K) (key : Key) (start stop : K) (calls : List (Request Key K))
    (s : Key → Option (Bucket K)) : drawn start stop (withdrawals capacity rate key s calls) =
      (((granted (idealStep capacity rate) s calls).countP fun r => InWindow key start stop r : ℕ) : K) := by
  set counted : Request Key K → Bool := fun r => decide (InWindow key start stop r)
  induction calls generalizing s with
  | nil => exact Nat.cast_zero.symm
  | cons r rest ih =>
    have hnext := ih (idealStep capacity rate s r).2
    rw [withdrawals, granted_cons]
    by_cases hkey : r.key = key
    · rw [if_pos hkey]
      by_cases hmem : start ≤ r.time ∧ r.time ≤ stop
      · rw [drawn_cons_of_mem hmem, hnext]
        split
        · rw [countP_cons_of_pos (p := counted) (decide_eq_true ⟨hkey, hmem⟩), Nat.cast_succ, add_comm]
        · rw [zero_add]
      · rw [drawn_cons_of_not hmem, hnext]
        split
        · rw [countP_cons_of_neg (p := counted) fun h => hmem (of_decide_eq_true h).2]
        · rfl
    · rw [if_neg hkey, hnext]
      split
      · rw [countP_cons_of_neg (p := counted) fun h => hkey (of_decide_eq_true h).1]
      · rfl

theorem draws_withdrawals (hcapacity : 0 ≤ capacity) (hrate : 0 ≤ rate) (key : Key)
    (hordered : Ordered calls) {s : Key → Option (Bucket K)} {b : Bucket K} (hlevel : 0 ≤ b.level)
    (hb : ∀ time, b.time ≤ time → level capacity rate (s key) time = b.refilled capacity rate time)
    (htimes : ∀ r ∈ calls, b.time ≤ r.time) : Draws capacity rate b (withdrawals capacity rate key s calls) := by
  induction calls generalizing s b with
  | nil => exact .nil b
  | cons r rest ih =>
    obtain ⟨hfirst, hrest⟩ := pairwise_cons.1 hordered
    have htime : b.time ≤ r.time := htimes r mem_cons_self
    rw [withdrawals]
    by_cases hkey : r.key = key
    · rw [if_pos hkey]
      have hlevels := hb r.time htime
      have hnonneg : 0 ≤ b.refilled capacity rate r.time := refilled_nonneg hcapacity hrate hlevel htime
      have hnext : (idealStep capacity rate s r).2 key = some (take capacity rate (s key) r.time).2 := by
        rw [idealStep_bucket, if_pos hkey.symm, hkey]
      have hanswer : (idealStep capacity rate s r).1 = (take capacity rate (s key) r.time).1 := by
        rw [idealStep, hkey]
      rw [hanswer]
      rw [take, hlevels] at hnext ⊢
      split at hnext
      · rename_i hlow
        rw [if_pos hlow]
        refine .cons htime le_rfl hnonneg (ih hrest ?_ (fun time _ => ?_) hfirst)
        · rw [if_neg Bool.false_ne_true, sub_zero]
          exact hnonneg
        · rw [hnext, if_neg Bool.false_ne_true, sub_zero]
          rfl
      · rename_i hone
        rw [if_neg hone]
        refine .cons htime zero_le_one (not_lt.1 hone) (ih hrest ?_ (fun time _ => ?_) hfirst)
        · exact sub_nonneg.2 (not_lt.1 hone)
        · rw [hnext]
          rfl
    · rw [if_neg hkey]
      refine ih hrest hlevel (fun time hle => ?_) fun r' hr' => htimes r' (mem_cons_of_mem r hr')
      rw [idealStep_bucket, if_neg (Ne.symm hkey)]
      exact hb time hle

/-- **What a window grants.** A key gets at most the capacity, and what is refilled in the window.
-/
theorem granted_le (hcapacity : 0 ≤ capacity) (hrate : 0 ≤ rate)
    (hordered : Ordered calls) (key : Key) {start stop : K} (hle : start ≤ stop) :
    (((granted (idealStep capacity rate) (fun _ => none) calls).countP fun r => InWindow key start stop r : ℕ) : K) ≤
      capacity + rate * (stop - start) := by
  rw [← drawn_withdrawals capacity rate key start stop calls fun _ => none]
  cases calls with
  | nil => exact add_nonneg hcapacity (mul_nonneg hrate (sub_nonneg.2 hle))
  | cons r rest =>
    refine (draws_withdrawals hcapacity hrate key hordered (b := ⟨capacity, r.time⟩) hcapacity
      (fun time htime => ?_) fun r' hr' => ?_).drawn_le hcapacity hrate hle
    · exact (min_eq_left (le_add_of_nonneg_right (mul_nonneg hrate (sub_nonneg.2 htime)))).symm
    · obtain rfl | hr' := mem_cons.1 hr'
      · exact le_rfl
      · exact (pairwise_cons.1 hordered).1 r' hr'

end Levels

end TurboPanel.TokenBucket
