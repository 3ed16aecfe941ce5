import TurboPanel.Data.KeyedBuckets
import TurboPanel.Js.Map

/-!
# Rate limiters

`createRedisRateLimiter` and `createLocalTokenBucketLimiter` of
`daemon/rate-limit/redis-rate-limiter.ts`, with the script `RATE_LIMIT_TOKEN_BUCKET` of
`daemon/cell/redis/lua.ts`. Both have a bucket for each key and forget some: Redis one whose key
expired, the process one that was not used for a full refill, and when that does not make room, the
one that was used longest ago. The first two are not seen, and the last does not happen while no
more than `maxKeys` keys were used within a full refill (`limiters_ideal`).

Numbers are exact, and times are in milliseconds. What happens when Redis fails is left out.
-/

namespace TurboPanel.RateLimit

open List hiding take
open Option TokenBucket Js

/-- `limit` and `periodSeconds`. -/
structure Opts where
  limit : ℚ
  periodSeconds : ℚ

namespace Opts

variable (opts : Opts)

def capacity : ℚ := opts.limit

def msPerToken : ℚ := opts.periodSeconds * 1000 / opts.limit

def refillMs : ℚ := opts.capacity * opts.msPerToken

/-- `MIN_BUCKET_TTL_MS`. -/
def minBucketTtlMs : ℚ := 1000

def ttlMs : ℚ := max (⌈opts.capacity * opts.msPerToken⌉ : ℤ) minBucketTtlMs

/-- How much is refilled in a millisecond. -/
def rate : ℚ := 1 / opts.msPerToken

/-- The limit and the period are at least one. -/
structure Valid : Prop where
  limit : 1 ≤ opts.limit
  periodSeconds : 1 ≤ opts.periodSeconds

end Opts

/-! ## The limiter in Redis -/

/-- The hash of a key, and when the key expires. -/
structure RedisHash where
  tokens : ℚ
  ts : ℚ
  expiresAt : ℚ

/-- `tokens` and `ts` when the script has refilled the bucket. -/
def refillHash (capacity msPerToken nowMs : ℚ) : Option RedisHash → ℚ × ℚ
  | none => (capacity, nowMs)
  | some vals =>
    let elapsed := nowMs - vals.ts
    if 0 < elapsed then (min capacity (vals.tokens + elapsed / msPerToken), nowMs) else (vals.tokens, vals.ts)

/-- `RATE_LIMIT_TOKEN_BUCKET`. -/
def rateLimitTokenBucket (capacity msPerToken nowMs ttlMs : ℚ) (vals : Option RedisHash) : Bool × RedisHash :=
  let refilled := refillHash capacity msPerToken nowMs vals
  if 1 ≤ refilled.1 then (true, ⟨refilled.1 - 1, refilled.2, nowMs + ttlMs⟩)
  else (false, ⟨refilled.1, refilled.2, nowMs + ttlMs⟩)

/-- A key that expired is not there. -/
def readHash (now : ℚ) (hash : Option RedisHash) : Option RedisHash :=
  hash.filter fun hash => decide (now ≤ hash.expiresAt)

variable {Key : Type*} [DecidableEq Key]

/-- `createRedisRateLimiter`, over the hashes of the keys. -/
def redisLimit (opts : Opts) : Limiter (Key → Option RedisHash) Key ℚ := fun hashes args =>
  let result := rateLimitTokenBucket opts.capacity opts.msPerToken args.time opts.ttlMs
    (readHash args.time (hashes args.key))
  (result.1, Function.update hashes args.key (some result.2))

/-! ## The limiter in the process -/

structure LocalBucket where
  tokens : ℚ
  lastMs : ℚ

abbrev LocalBuckets (Key : Type*) := Map Key LocalBucket

/-- The entries that the loop does not delete. -/
def dropRefilled (refillMs now : ℚ) (buckets : LocalBuckets Key) : LocalBuckets Key where
  entries := buckets.entries.filter fun e => !decide (refillMs ≤ now - e.2.lastMs)
  nodup := buckets.nodup.sublist (filter_sublist.map Prod.fst)

def makeRoom (refillMs : ℚ) (maxKeys : ℕ) (buckets : LocalBuckets Key) (now : ℚ) : LocalBuckets Key :=
  let buckets := dropRefilled refillMs now buckets
  if buckets.entries.length < maxKeys then buckets
  else match buckets.keys.head? with
    | none => buckets
    | some oldest => buckets.delete oldest

/-- The bucket that a call uses, and the others. -/
def pick (opts : Opts) (maxKeys : ℕ) (buckets : LocalBuckets Key) (args : Request Key ℚ) :
    LocalBuckets Key × LocalBucket :=
  match buckets.get? args.key with
  | some bucket => (buckets.delete args.key, bucket)
  | none =>
    (if maxKeys ≤ buckets.entries.length then makeRoom opts.refillMs maxKeys buckets args.time else buckets,
      ⟨opts.capacity, args.time⟩)

/-- `createLocalTokenBucketLimiter`. -/
def localLimit (opts : Opts) (maxKeys : ℕ) : Limiter (LocalBuckets Key) Key ℚ := fun buckets args =>
  let (buckets, bucket) := pick opts maxKeys buckets args
  let elapsed := args.time - bucket.lastMs
  let tokens := min opts.capacity (bucket.tokens + elapsed / opts.msPerToken)
  if tokens < 1 then (false, buckets.set args.key ⟨tokens, args.time⟩)
  else (true, buckets.set args.key ⟨tokens - 1, args.time⟩)

/-! ## Numbers -/

section

variable {opts : Opts}

theorem Opts.Valid.msPerToken_pos (h : opts.Valid) : 0 < opts.msPerToken := by
  have hlimit : 0 < opts.limit := zero_lt_one.trans_le h.limit
  have hperiod : 0 < opts.periodSeconds := zero_lt_one.trans_le h.periodSeconds
  rw [Opts.msPerToken]
  positivity

theorem Opts.Valid.rate_nonneg (h : opts.Valid) : 0 ≤ opts.rate :=
  one_div_nonneg.2 h.msPerToken_pos.le

theorem Opts.Valid.capacity_nonneg (h : opts.Valid) : 0 ≤ opts.capacity :=
  zero_le_one.trans h.limit

theorem Opts.Valid.capacity_le (h : opts.Valid) {elapsed : ℚ} (hle : opts.refillMs ≤ elapsed) :
    opts.capacity ≤ opts.rate * elapsed := by
  rw [Opts.rate, one_div_mul_eq_div, le_div_iff₀ h.msPerToken_pos]
  exact hle

theorem Opts.refillMs_le_ttlMs (opts : Opts) : opts.refillMs ≤ opts.ttlMs :=
  (Int.le_ceil _).trans (le_max_left _ _)

theorem Opts.rate_mul (opts : Opts) (elapsed : ℚ) : opts.rate * elapsed = elapsed / opts.msPerToken :=
  one_div_mul_eq_div _ _

/-! ## Redis follows the ideal limiter -/

def RedisHash.bucket (hash : RedisHash) : Bucket ℚ := ⟨hash.tokens, hash.ts⟩

/-- What the script reads of a key: a level that the bucket can have, and a time that is not to
come. -/
def RedisHash.Read (opts : Opts) (now : ℚ) (hash : RedisHash) : Prop :=
  0 ≤ hash.tokens ∧ hash.tokens ≤ opts.capacity ∧ hash.ts ≤ now

variable {now : ℚ}

theorem refillHash_eq (opts : Opts) {vals : Option RedisHash} (hvals : ∀ hash ∈ vals, hash.Read opts now) :
    refillHash opts.capacity opts.msPerToken now vals =
      (level opts.capacity opts.rate (vals.map RedisHash.bucket) now, now) := by
  cases vals with
  | none => rfl
  | some hash =>
    obtain ⟨-, hle, htime⟩ := hvals hash rfl
    change ite _ _ _ = (min opts.capacity (hash.tokens + opts.rate * (now - hash.ts)), now)
    rw [opts.rate_mul]
    split
    · rfl
    · rename_i helapsed
      obtain rfl : hash.ts = now := le_antisymm htime (sub_nonpos.1 (not_lt.1 helapsed))
      rw [sub_self, zero_div, add_zero, min_eq_right hle]

/-- **The script** takes a token as the ideal bucket gives it. -/
theorem rateLimitTokenBucket_eq (opts : Opts) (ttlMs : ℚ) {vals : Option RedisHash}
    (hvals : ∀ hash ∈ vals, hash.Read opts now) :
    rateLimitTokenBucket opts.capacity opts.msPerToken now ttlMs vals =
      ((take opts.capacity opts.rate (vals.map RedisHash.bucket) now).1,
        ⟨(take opts.capacity opts.rate (vals.map RedisHash.bucket) now).2.level, now, now + ttlMs⟩) := by
  rw [rateLimitTokenBucket, refillHash_eq opts hvals, take]
  by_cases hone : 1 ≤ level opts.capacity opts.rate (vals.map RedisHash.bucket) now
  · simp only [if_pos hone, if_neg (not_lt.2 hone)]
  · simp only [if_neg hone, if_pos (not_le.1 hone)]

/-- What the keys hold after some calls. -/
def Stored (opts : Opts) (past : List (Request Key ℚ)) (hashes : Key → Option RedisHash) : Prop :=
  ∀ key, ∀ hash ∈ hashes key, 0 ≤ hash.tokens ∧ hash.tokens ≤ opts.capacity ∧
    (∃ r ∈ past, hash.ts = r.time) ∧ hash.expiresAt = hash.ts + opts.ttlMs

/-- The buckets that the script sees at a time. -/
def shownHashes (hashes : Key → Option RedisHash) (now : ℚ) (key : Key) : Option (Bucket ℚ) :=
  (readHash now (hashes key)).map RedisHash.bucket

theorem level_readHash {opts : Opts} (hopts : opts.Valid) {hash : RedisHash} (hnonneg : 0 ≤ hash.tokens)
    (hexpires : hash.expiresAt = hash.ts + opts.ttlMs) :
    level opts.capacity opts.rate ((readHash now (some hash)).map RedisHash.bucket) now =
      level opts.capacity opts.rate (some hash.bucket) now := by
  by_cases halive : now ≤ hash.expiresAt
  · rw [readHash, filter_some, if_pos (decide_eq_true halive), map_some]
  · rw [readHash, filter_some, if_neg (by simpa using halive), map_none]
    refine (level_of_untouched hnonneg (hopts.capacity_le ?_)).symm
    have hlate : hash.ts + opts.ttlMs < now := hexpires ▸ not_le.1 halive
    have hrefill := opts.refillMs_le_ttlMs
    change opts.refillMs ≤ now - hash.ts
    linarith

theorem take_level_le (opts : Opts) (b : Option (Bucket ℚ)) (now : ℚ) :
    (take opts.capacity opts.rate b now).2.level ≤ opts.capacity := by
  have hlevel : level opts.capacity opts.rate b now ≤ opts.capacity := by
    cases b with
    | none => exact le_rfl
    | some b => exact min_le_left _ _
  rw [take]
  split
  · exact hlevel
  · exact (sub_le_self _ zero_le_one).trans hlevel

theorem redisLimit_follows {opts : Opts} (hopts : opts.Valid) {calls : List (Request Key ℚ)}
    (hordered : Ordered calls) : answers (redisLimit opts) (fun _ => none) calls =
      answers (idealStep opts.capacity opts.rate) (fun _ => none) calls := by
  refine answers_eq_of_follows shownHashes (fun _ => True) (Stored opts) ?_
    (fun key hash hhash => absurd hhash (not_mem_none hash)) (fun time key => rfl) hordered fun p _ => trivial
  intro past r hashes _ hpast hstored
  have hread : ∀ hash ∈ readHash r.time (hashes r.key), hash.Read opts r.time := by
    intro hash hhash
    obtain ⟨hnonneg, hle, ⟨r', hr', hts⟩, -⟩ := hstored r.key hash (mem_filter_iff.1 hhash).1
    exact ⟨hnonneg, hle, hts ▸ hpast.le_last r' hr'⟩
  have htake := rateLimitTokenBucket_eq opts opts.ttlMs hread
  have hnonneg : 0 ≤ (take opts.capacity opts.rate (shownHashes hashes r.time r.key) r.time).2.level := by
    refine take_level_nonneg (level_nonneg hopts.capacity_nonneg hopts.rate_nonneg fun b hb => ?_)
    obtain ⟨hash, hhash, rfl⟩ := mem_map.1 hb
    exact ⟨(hread hash hhash).1, (hread hash hhash).2.2⟩
  set taken := take opts.capacity opts.rate (shownHashes hashes r.time r.key) r.time
  have hnext : ∀ key, (redisLimit opts hashes r).2 key =
      if key = r.key then some ⟨taken.2.level, r.time, r.time + opts.ttlMs⟩ else hashes key := by
    intro key
    rw [redisLimit, htake]
    exact Function.update_apply hashes r.key _ key
  refine ⟨fun key hash hhash => ?_, by rw [redisLimit, htake]; rfl, fun key time htime => ?_⟩
  · rw [hnext, mem_def] at hhash
    split at hhash
    · cases hhash
      exact ⟨hnonneg, take_level_le opts _ _, ⟨r, mem_append_right _ mem_cons_self, rfl⟩, rfl⟩
    · obtain ⟨h₁, h₂, ⟨r', hr', hts⟩, hexpires⟩ := hstored key hash hhash
      exact ⟨h₁, h₂, ⟨r', mem_append_left _ hr', hts⟩, hexpires⟩
  · rw [shownHashes, hnext]
    split
    · rw [level_readHash hopts hnonneg rfl]
      congr 2
      exact congrArg (Bucket.mk _) (take_time _ _).symm
    · rfl

end

/-! ## Making room -/

section

variable {refillMs now : ℚ} {maxKeys : ℕ} {buckets : LocalBuckets Key}

omit [DecidableEq Key] in
theorem mem_dropRefilled {e : Key × LocalBucket} : e ∈ (dropRefilled refillMs now buckets).entries ↔
    e ∈ buckets.entries ∧ now - e.2.lastMs < refillMs := by
  rw [dropRefilled, mem_filter, Bool.not_eq_true', decide_eq_false_iff_not, not_le]

theorem get?_dropRefilled {key : Key} {bucket : LocalBucket} :
    (dropRefilled refillMs now buckets).get? key = some bucket ↔
      buckets.get? key = some bucket ∧ now - bucket.lastMs < refillMs := by
  rw [Map.get?_eq_some_iff, mem_dropRefilled, Map.get?_eq_some_iff]

theorem get?_dropRefilled_eq_none {key : Key}
    (h : ∀ bucket, buckets.get? key = some bucket → refillMs ≤ now - bucket.lastMs) :
    (dropRefilled refillMs now buckets).get? key = none := by
  by_contra hsome
  obtain ⟨bucket, hbucket⟩ := ne_none_iff_exists'.1 hsome
  obtain ⟨hget, hrecent⟩ := get?_dropRefilled.1 hbucket
  exact absurd hrecent (not_lt.2 (h bucket hget))

theorem makeRoom_of_lt (h : (dropRefilled refillMs now buckets).entries.length < maxKeys) :
    makeRoom refillMs maxKeys buckets now = dropRefilled refillMs now buckets := by
  rw [makeRoom]
  exact if_pos h

theorem length_makeRoom_lt (hmax : 1 ≤ maxKeys) (hle : buckets.entries.length ≤ maxKeys) :
    (makeRoom refillMs maxKeys buckets now).entries.length < maxKeys := by
  by_cases hroom : (dropRefilled refillMs now buckets).entries.length < maxKeys
  · rw [makeRoom_of_lt hroom]
    exact hroom
  · have hkept : (dropRefilled refillMs now buckets).entries.length ≤ maxKeys :=
      (length_filter_le _ _).trans hle
    rw [makeRoom, if_neg hroom]
    generalize dropRefilled refillMs now buckets = kept at hroom hkept
    obtain ⟨entries, nodup⟩ := kept
    cases entries with
    | nil => exact absurd hmax (by simpa using hroom)
    | cons e rest =>
      change ((e :: rest).filter fun e' => decide (e'.1 ≠ e.1)).length < maxKeys
      rw [filter_cons_of_neg (by simp)]
      exact (Nat.lt_succ_of_le (length_filter_le _ rest)).trans_le hkept

end

theorem length_set_le (buckets : LocalBuckets Key) (key : Key) (bucket : LocalBucket) :
    (buckets.set key bucket).entries.length ≤ buckets.entries.length + 1 := by
  have hkeys : (buckets.set key bucket).entries.length = ((buckets.set key bucket).entries.map Prod.fst).length :=
    (length_map _).symm
  rw [hkeys, Map.set, keys_setEntry]
  split
  · rw [length_map]
    exact Nat.le_succ _
  · rw [length_append, length_map, length_singleton]

variable {buckets : LocalBuckets Key}

theorem length_delete_lt {key : Key} {bucket : LocalBucket}
    (h : buckets.get? key = some bucket) : (buckets.delete key).entries.length < buckets.entries.length := by
  have hmem : (key, bucket) ∈ buckets.entries := Map.get?_eq_some_iff.1 h
  refine lt_of_le_of_ne (length_filter_le _ _) fun hall => ?_
  have := length_filter_eq_length_iff.1 hall (key, bucket) hmem
  simp at this

variable {opts : Opts} {maxKeys : ℕ}

theorem length_pick_lt (hmax : 1 ≤ maxKeys)
    (hle : buckets.entries.length ≤ maxKeys) (args : Request Key ℚ) :
    (pick opts maxKeys buckets args).1.entries.length < maxKeys := by
  rw [pick]
  split
  · rename_i hbucket
    exact (length_delete_lt hbucket).trans_le hle
  · split
    · exact length_makeRoom_lt hmax hle
    · rename_i hroom
      exact not_le.1 hroom

def LocalBucket.bucket (bucket : LocalBucket) : Bucket ℚ := ⟨bucket.tokens, bucket.lastMs⟩

/-- What a call takes from the bucket that it uses. -/
def taken (opts : Opts) (maxKeys : ℕ) (buckets : LocalBuckets Key) (args : Request Key ℚ) : Bool × Bucket ℚ :=
  take opts.capacity opts.rate (some (pick opts maxKeys buckets args).2.bucket) args.time

theorem localLimit_eq (opts : Opts) (maxKeys : ℕ) (buckets : LocalBuckets Key) (args : Request Key ℚ) :
    localLimit opts maxKeys buckets args = ((taken opts maxKeys buckets args).1,
      (pick opts maxKeys buckets args).1.set args.key ⟨(taken opts maxKeys buckets args).2.level, args.time⟩) := by
  rw [localLimit, taken, take, level, Bucket.refilled, opts.rate_mul]
  generalize pick opts maxKeys buckets args = picked
  obtain ⟨others, bucket⟩ := picked
  change ite _ _ _ = _
  by_cases hlow : min opts.capacity (bucket.tokens + (args.time - bucket.lastMs) / opts.msPerToken) < 1
  · simp only [LocalBucket.bucket, hlow, if_true]
  · simp only [LocalBucket.bucket, hlow, if_false]

/-- **The map never holds more than `maxKeys` entries.** -/
theorem length_localLimit_le (hmax : 1 ≤ maxKeys) (calls : List (Request Key ℚ)) :
    (stateAfter (localLimit opts maxKeys) Map.empty calls).entries.length ≤ maxKeys := by
  induction calls using List.reverseRecOn with
  | nil => exact Nat.zero_le _
  | append_singleton calls args ih =>
    rw [stateAfter_concat, localLimit_eq]
    exact (length_set_le _ _ _).trans (length_pick_lt hmax ih args)

/-! ## The process follows the ideal limiter -/

/-- The keys that were used within a full refill before a time. -/
def recentKeys (refillMs now : ℚ) (calls : List (Request Key ℚ)) : List Key :=
  ((calls.filter fun r => decide (now - r.time < refillMs)).map (·.key)).dedup

/-- No call makes more than `maxKeys` keys that were used within a full refill. -/
def Uncrowded (opts : Opts) (maxKeys : ℕ) (calls : List (Request Key ℚ)) : Prop :=
  ∀ past r, past ++ [r] <+: calls → (recentKeys opts.refillMs r.time (past ++ [r])).length ≤ maxKeys

/-- What the map holds after some calls. -/
def Held (past : List (Request Key ℚ)) (buckets : LocalBuckets Key) : Prop :=
  ∀ key bucket, buckets.get? key = some bucket →
    0 ≤ bucket.tokens ∧ ∃ r ∈ past, r.key = key ∧ bucket.lastMs = r.time

theorem mem_recentKeys {refillMs now : ℚ} {calls : List (Request Key ℚ)} {key : Key} :
    key ∈ recentKeys refillMs now calls ↔ ∃ r ∈ calls, now - r.time < refillMs ∧ r.key = key := by
  simp [recentKeys, and_assoc]

theorem Opts.Valid.refillMs_pos (h : opts.Valid) : 0 < opts.refillMs :=
  mul_pos (zero_lt_one.trans_le h.limit) h.msPerToken_pos

theorem length_dropRefilled_lt (hopts : opts.Valid) {past : List (Request Key ℚ)}
    {args : Request Key ℚ} (hheld : Held past buckets) (hnew : buckets.get? args.key = none)
    (hfew : (recentKeys opts.refillMs args.time (past ++ [args])).length ≤ maxKeys) :
    (dropRefilled opts.refillMs args.time buckets).entries.length < maxKeys := by
  set kept := dropRefilled opts.refillMs args.time buckets with hkept
  have hnot : args.key ∉ kept.keys := by
    intro hmem
    obtain ⟨bucket, hbucket⟩ := Map.mem_keys_iff.1 hmem
    cases hnew.symm.trans (get?_dropRefilled.1 hbucket).1
  have hsub : args.key :: kept.keys ⊆ recentKeys opts.refillMs args.time (past ++ [args]) := by
    intro key hkey
    rw [mem_recentKeys]
    obtain rfl | hkey := mem_cons.1 hkey
    · refine ⟨args, mem_append_right _ mem_cons_self, ?_, rfl⟩
      rw [sub_self]
      exact hopts.refillMs_pos
    · obtain ⟨bucket, hbucket⟩ := Map.mem_keys_iff.1 hkey
      obtain ⟨hget, hrecent⟩ := get?_dropRefilled.1 hbucket
      obtain ⟨-, r, hr, hrkey, hlast⟩ := hheld key bucket hget
      exact ⟨r, mem_append_left _ hr, hlast ▸ hrecent, hrkey⟩
  have hnodup : (args.key :: kept.keys).Nodup := nodup_cons.2 ⟨hnot, kept.nodup⟩
  have hlength := (hnodup.subperm hsub).length_le
  rw [length_cons, Map.keys, length_map] at hlength
  exact hlength.trans hfew

/-- The buckets of the map. -/
def shownBuckets (buckets : LocalBuckets Key) (_ : ℚ) (key : Key) : Option (Bucket ℚ) :=
  (buckets.get? key).map LocalBucket.bucket

theorem pick_follows (hopts : opts.Valid) {past : List (Request Key ℚ)}
    {args : Request Key ℚ} (hheld : Held past buckets)
    (hfew : (recentKeys opts.refillMs args.time (past ++ [args])).length ≤ maxKeys) :
    Held past (pick opts maxKeys buckets args).1 ∧ 0 ≤ (pick opts maxKeys buckets args).2.tokens ∧
      (pick opts maxKeys buckets args).2.lastMs ∈ args.time :: past.map (·.time) ∧
      level opts.capacity opts.rate (some (pick opts maxKeys buckets args).2.bucket) args.time =
        level opts.capacity opts.rate (shownBuckets buckets args.time args.key) args.time ∧
      ∀ key time, key ≠ args.key → args.time ≤ time →
        level opts.capacity opts.rate (shownBuckets (pick opts maxKeys buckets args).1 time key) time =
          level opts.capacity opts.rate (shownBuckets buckets time key) time := by
  rw [pick]
  cases hbucket : buckets.get? args.key with
  | some bucket =>
    obtain ⟨hnonneg, r, hr, -, hlast⟩ := hheld args.key bucket hbucket
    refine ⟨fun key bucket' hget => ?_, hnonneg, ?_, ?_, fun key time hkey _ => ?_⟩
    · rw [Map.get?_delete] at hget
      split at hget
      · cases hget
      · exact hheld key bucket' hget
    · exact mem_cons_of_mem _ (mem_map.2 ⟨r, hr, hlast.symm⟩)
    · rw [shownBuckets, hbucket]
      rfl
    · rw [shownBuckets, Map.get?_delete, if_neg hkey]
      rfl
  | none =>
    have hfull : level opts.capacity opts.rate (some (LocalBucket.bucket ⟨opts.capacity, args.time⟩)) args.time =
        level opts.capacity opts.rate (shownBuckets buckets args.time args.key) args.time := by
      rw [shownBuckets, hbucket]
      change min opts.capacity (opts.capacity + opts.rate * (args.time - args.time)) = opts.capacity
      rw [sub_self, mul_zero, add_zero, min_self]
    refine ⟨?_, hopts.capacity_nonneg, mem_cons_self, hfull, fun key time hkey htime => ?_⟩
    · dsimp only
      split
      · rw [makeRoom_of_lt (length_dropRefilled_lt hopts hheld hbucket hfew)]
        exact fun key bucket' hget => hheld key bucket' (get?_dropRefilled.1 hget).1
      · exact hheld
    · dsimp only
      split
      · rw [makeRoom_of_lt (length_dropRefilled_lt hopts hheld hbucket hfew), shownBuckets, shownBuckets]
        cases hget : buckets.get? key with
        | none =>
          rw [get?_dropRefilled_eq_none fun bucket' hget' => by cases hget.symm.trans hget']
        | some bucket' =>
          by_cases hrecent : args.time - bucket'.lastMs < opts.refillMs
          · rw [get?_dropRefilled.2 ⟨hget, hrecent⟩]
          · have hold : opts.refillMs ≤ args.time - bucket'.lastMs := not_lt.1 hrecent
            rw [get?_dropRefilled_eq_none fun _ hget' => Option.some.inj (hget.symm.trans hget') ▸ hold]
            refine (level_of_untouched (hheld key bucket' hget).1 (hopts.capacity_le ?_)).symm
            exact hold.trans (sub_le_sub_right htime _)
      · rfl

/-- **The process limiter** gives the answers of the ideal one while not too many keys are in use.
-/
theorem localLimit_follows (hopts : opts.Valid) (maxKeys : ℕ) {calls : List (Request Key ℚ)}
    (hordered : Ordered calls) (hfew : Uncrowded opts maxKeys calls) :
    answers (localLimit opts maxKeys) Map.empty calls =
      answers (idealStep opts.capacity opts.rate) (fun _ => none) calls := by
  refine answers_eq_of_follows shownBuckets (Uncrowded opts maxKeys) Held ?_
    (fun key bucket hget => nomatch (Map.get?_empty key).symm.trans hget) (fun time key => rfl) hordered
    fun p hp past r hpre => hfew past r (hpre.trans hp)
  intro past args buckets hok hpast hheld
  obtain ⟨hheld', hnonneg, hlast, hlevel, hothers⟩ := pick_follows hopts hheld (hok past args (prefix_refl _))
  have htaken : taken opts maxKeys buckets args =
      take opts.capacity opts.rate (shownBuckets buckets args.time args.key) args.time := take_congr hlevel
  have hlast' : (pick opts maxKeys buckets args).2.lastMs ≤ args.time := by
    obtain heq | hmem := mem_cons.1 hlast
    · exact heq.le
    · obtain ⟨r, hr, heq⟩ := mem_map.1 hmem
      exact heq ▸ hpast.le_last r hr
  have hleft : 0 ≤ (taken opts maxKeys buckets args).2.level :=
    take_level_nonneg (refilled_nonneg hopts.capacity_nonneg hopts.rate_nonneg hnonneg hlast')
  rw [localLimit_eq]
  refine ⟨fun key bucket hget => ?_, congrArg Prod.fst htaken, fun key time htime => ?_⟩
  · rw [Map.get?_set] at hget
    split at hget
    · rename_i hkey
      cases hget
      exact ⟨hleft, args, mem_append_right _ mem_cons_self, hkey.symm, rfl⟩
    · obtain ⟨h, r, hr, hrkey, hrtime⟩ := hheld' key bucket hget
      exact ⟨h, r, mem_append_left _ hr, hrkey, hrtime⟩
  · by_cases hkey : key = args.key
    · rw [shownBuckets, Map.get?_set, if_pos hkey, if_pos hkey, ← htaken]
      change level _ _ (some ⟨(taken opts maxKeys buckets args).2.level, args.time⟩) time = _
      congr 2
      exact congrArg (Bucket.mk _) (take_time _ _).symm
    · rw [shownBuckets, Map.get?_set, if_neg hkey, if_neg hkey]
      exact hothers key time hkey htime

/-! ## Both limiters -/

/-- How many calls of a key were granted in the `w` milliseconds from a time on. -/
def grantedIn {State : Type*} (step : Limiter State Key ℚ) (start : State) (calls : List (Request Key ℚ)) (key : Key)
    (since w : ℚ) : ℕ :=
  (granted step start calls).countP fun r => InWindow key since (since + w) r

/-- **Both limiters are the ideal token bucket.** The limiter in Redis always, and the one in the
process while no more than `maxKeys` keys were used within a full refill. Its map never has more
than `maxKeys` entries, and in any window a key is granted at most the limit and what is refilled
meanwhile. -/
theorem limiters_ideal {opts : Opts} (hopts : opts.Valid) {maxKeys : ℕ} (hmax : 1 ≤ maxKeys)
    {calls : List (Request Key ℚ)} (hordered : Ordered calls) :
    answers (redisLimit opts) (fun _ => none) calls =
        answers (idealStep opts.capacity opts.rate) (fun _ => none) calls ∧
      (Uncrowded opts maxKeys calls → answers (localLimit opts maxKeys) Map.empty calls =
        answers (idealStep opts.capacity opts.rate) (fun _ => none) calls) ∧
      (∀ p, p <+: calls → (stateAfter (localLimit opts maxKeys) Map.empty p).entries.length ≤ maxKeys) ∧
      ∀ key since w, 0 ≤ w →
        (grantedIn (redisLimit opts) (fun _ => none) calls key since w : ℚ) ≤
            opts.limit + w * opts.limit / (opts.periodSeconds * 1000) ∧
          (Uncrowded opts maxKeys calls → (grantedIn (localLimit opts maxKeys) Map.empty calls key since w : ℚ) ≤
            opts.limit + w * opts.limit / (opts.periodSeconds * 1000)) := by
  have hredis := redisLimit_follows hopts hordered
  have hlocal := localLimit_follows hopts maxKeys hordered
  refine ⟨hredis, hlocal, fun p _ => length_localLimit_le hmax p, fun key since w hw => ?_⟩
  have hbound : (grantedIn (idealStep opts.capacity opts.rate) (fun _ => none) calls key since w : ℚ) ≤
      opts.limit + w * opts.limit / (opts.periodSeconds * 1000) := by
    calc (grantedIn (idealStep opts.capacity opts.rate) (fun _ => none) calls key since w : ℚ)
        ≤ opts.capacity + opts.rate * (since + w - since) :=
          granted_le hopts.capacity_nonneg hopts.rate_nonneg hordered key (le_add_of_nonneg_right hw)
      _ = opts.limit + w * opts.limit / (opts.periodSeconds * 1000) := by
          rw [add_sub_cancel_left, opts.rate_mul, Opts.capacity, Opts.msPerToken, div_div_eq_mul_div]
  refine ⟨?_, fun hfew => ?_⟩
  · rw [grantedIn, granted, hredis]
    exact hbound
  · rw [grantedIn, granted, hlocal hfew]
    exact hbound

/-! ## Runs -/

/-- Two calls in two seconds. -/
def twoInTwoSeconds : Opts := ⟨2, 2⟩

theorem valid_twoInTwoSeconds : twoInTwoSeconds.Valid := ⟨one_le_two, one_le_two⟩

/-- The first key is drained at once, and the second is full again when the third comes. -/
def threeKeys : List (Request String ℚ) :=
  [⟨"a", 0⟩, ⟨"a", 0⟩, ⟨"b", 0⟩, ⟨"c", 1000⟩, ⟨"a", 1000⟩, ⟨"a", 1000⟩]

/-- The keys of some calls whose ideal bucket is not full at a time. -/
def drainingKeys (opts : Opts) (calls : List (Request Key ℚ)) (time : ℚ) : List Key :=
  ((calls.map (·.key)).dedup).filter fun key => decide (level opts.capacity opts.rate
    (stateAfter (idealStep opts.capacity opts.rate) (fun _ => none) calls key) time < opts.capacity)

theorem length_drainingKeys_threeKeys {p : List (Request String ℚ)} (hp : p <+: threeKeys) {time : ℚ}
    (htime : ∀ r ∈ p, r.time ≤ time) : (drainingKeys twoInTwoSeconds p time).length ≤ 2 := by
  have hcases : (p.map (·.key)).dedup.length ≤ 2 ∨ (p.map (·.key)).dedup.length = 3 ∧
      "b" ∈ (p.map (·.key)).dedup ∧ (⟨"c", 1000⟩ : Request String ℚ) ∈ p ∧
      stateAfter (idealStep twoInTwoSeconds.capacity twoInTwoSeconds.rate) (fun _ => none) p "b" = some ⟨1, 0⟩ := by
    rw [← mem_inits] at hp
    simp only [threeKeys, List.inits, map_cons, map_nil, mem_cons, not_mem_nil, or_false] at hp
    obtain rfl | rfl | rfl | rfl | rfl | rfl | rfl := hp
    · exact .inl (by decide)
    · exact .inl (by decide)
    · exact .inl (by decide)
    · exact .inl (by decide)
    all_goals
      exact .inr ⟨by decide, by decide, by simp, by decide +kernel⟩
  obtain hfew | ⟨hthree, hmem, hlast, hbucket⟩ := hcases
  · exact (length_filter_le _ _).trans hfew
  · have hlate : 1000 ≤ time := htime _ hlast
    have hfull : ¬level twoInTwoSeconds.capacity twoInTwoSeconds.rate (some ⟨1, 0⟩) time <
        twoInTwoSeconds.capacity := by
      simp only [level, Bucket.refilled, Opts.rate, twoInTwoSeconds, Opts.msPerToken, Opts.capacity, not_lt, le_min_iff]
      refine ⟨le_rfl, ?_⟩
      linarith
    have hless : (drainingKeys twoInTwoSeconds p time).length < (p.map (·.key)).dedup.length := by
      refine length_filter_lt_length_iff_exists.2 ⟨"b", hmem, ?_⟩
      rw [hbucket]
      simpa using hfull
    omega

theorem used_bucket_stays_in_the_way :
    (Ordered threeKeys ∧
      (∀ p, p <+: threeKeys → ∀ time, (∀ r ∈ p, r.time ≤ time) →
        (drainingKeys twoInTwoSeconds p time).length ≤ 2) ∧
      answers (localLimit twoInTwoSeconds 2) Map.empty threeKeys ≠
        answers (idealStep twoInTwoSeconds.capacity twoInTwoSeconds.rate) (fun _ => none) threeKeys) ∧
      ¬(stateAfter (localLimit twoInTwoSeconds 0) Map.empty threeKeys).entries.length ≤ 0 := by
  refine ⟨⟨?_, fun p hp time htime => length_drainingKeys_threeKeys hp htime, ?_⟩, ?_⟩
  · norm_num [Ordered, threeKeys]
  · have hlocal : answers (localLimit twoInTwoSeconds 2) Map.empty threeKeys =
        [true, true, true, true, true, true] := by
      decide +kernel
    have hideal : answers (idealStep twoInTwoSeconds.capacity twoInTwoSeconds.rate) (fun _ => none) threeKeys =
        [true, true, true, true, true, false] := by
      decide +kernel
    rw [hlocal, hideal]
    decide
  · decide +kernel

theorem uncrowded_threeKeys : Uncrowded twoInTwoSeconds 3 threeKeys := by
  intro past r hpre
  have hsub : recentKeys twoInTwoSeconds.refillMs r.time (past ++ [r]) ⊆ ["a", "b", "c"] := by
    intro key hkey
    obtain ⟨r', hr', -, rfl⟩ := mem_recentKeys.1 hkey
    have hmem := hpre.subset hr'
    simp only [threeKeys, mem_cons, not_mem_nil, or_false] at hmem
    obtain rfl | rfl | rfl | rfl | rfl | rfl := hmem <;> simp
  exact ((nodup_dedup _).subperm hsub).length_le

theorem limiters_ideal_threeKeys :
    answers (redisLimit twoInTwoSeconds) (fun _ => none) threeKeys =
        answers (idealStep twoInTwoSeconds.capacity twoInTwoSeconds.rate) (fun _ => none) threeKeys ∧
      answers (localLimit twoInTwoSeconds 3) Map.empty threeKeys =
        answers (idealStep twoInTwoSeconds.capacity twoInTwoSeconds.rate) (fun _ => none) threeKeys ∧
      (stateAfter (localLimit twoInTwoSeconds 3) Map.empty threeKeys).entries.length ≤ 3 ∧
      (grantedIn (localLimit twoInTwoSeconds 3) Map.empty threeKeys "a" 0 1000 : ℚ) ≤ 3 := by
  have hordered : Ordered threeKeys := by norm_num [Ordered, threeKeys]
  obtain ⟨hredis, hlocal, hsize, hwindow⟩ :=
    limiters_ideal valid_twoInTwoSeconds (show 1 ≤ 3 by decide) hordered
  refine ⟨hredis, hlocal uncrowded_threeKeys, hsize _ (prefix_refl _), ?_⟩
  refine ((hwindow "a" 0 1000 (by norm_num)).2 uncrowded_threeKeys).trans ?_
  norm_num [twoInTwoSeconds]

end TurboPanel.RateLimit
