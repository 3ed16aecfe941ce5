import Mathlib.Data.String.Basic
import Mathlib.Order.RelClasses
import Mathlib.Order.WithBot
import TurboPanel.Js.Text

/-!
# The standby that takes over

The model of `parsePgLsn`, `pickMostAdvancedStandby` and `pickMysqlFamilyStandby` of
`src/features/managed/ha-fresh-standby.ts`. One pass keeps the best standby so far; where the ids
differ, one of two standbys always beats the other, so the pass ends with the one that beats every
other (`foldl_pickStep`), in whatever order they come.
-/

namespace TurboPanel.FreshStandby

open Js List

/-! ## Positions -/

/-- `[0-9A-F]\x7b1,8\x7d`, in any case. -/
def isLsnHalf (t : Text) : Bool := decide (0 < t.length) && decide (t.length ≤ 8) && t.all (isDigitOf 16)

/-- `X/Y` in hexadecimal digits, as a number; `none` when malformed or no text. -/
def parsePgLsn (value : Option Text) : Option ℕ :=
  match value.map fun value => (trim value).splitOn '/' with
  | some [high, low] =>
    if isLsnHalf high && isLsnHalf low then some ((ofDigits 16 high <<< 32) + ofDigits 16 low) else none
  | _ => none

/-! ## Choosing -/

/-- A standby; `rest` stands for its other fields. -/
structure Standby (ρ : Type) where
  id : String
  ordinal : ℚ
  receivedLsn : Option Text
  executedGtid : Option Text
  rest : ρ

section

variable {ρ : Type} (localeCompare : String → String → ℤ)

def precedes (a b : Standby ρ) : Bool :=
  decide (a.ordinal < b.ordinal) || decide (a.ordinal = b.ordinal) && decide (localeCompare a.id b.id < 0)

/-- `parsePgLsn(entry.receivedLsn) ?? -1n`. -/
def lsnOf (entry : Standby ρ) : ℤ := ((parsePgLsn entry.receivedLsn).map Int.ofNat).getD (-1)

/-- One turn of the loop, on the best standby so far and its position. -/
def pickStep (best : Option (Standby ρ) × ℤ) (entry : Standby ρ) : Option (Standby ρ) × ℤ :=
  let lsn := lsnOf entry
  match best with
  | (none, _) => (some entry, lsn)
  | (some best, bestLsn) =>
    if bestLsn < lsn || decide (lsn = bestLsn) && precedes localeCompare entry best then (some entry, lsn)
    else (some best, bestLsn)

/-- The standby that received the most. -/
def pickMostAdvancedStandby (accepted : List (Standby ρ)) : Option (Standby ρ) :=
  (accepted.foldl (pickStep localeCompare) (none, -1)).1

/-- The standby to take among those that cannot be ranked. -/
def pickMysqlFamilyStandby (accepted : List (Standby ρ)) : Option (Standby ρ) :=
  match accepted with
  | [] => none
  | head :: _ =>
    let first := head.executedGtid
    if 1 < accepted.length ∧ ((truthy first).isNone || accepted.any fun row => row.executedGtid ≠ first) then none
    else pickMostAdvancedStandby localeCompare (accepted.map fun row => { row with receivedLsn := none })

/-! ## The best one -/

/-- `a` is taken before `b`. -/
def Beats (a b : Standby ρ) : Prop :=
  lsnOf b < lsnOf a ∨ lsnOf a = lsnOf b ∧ precedes localeCompare a b = true

variable {localeCompare}

variable {a b : Standby ρ}

theorem precedes_iff : precedes localeCompare a b = true ↔
    a.ordinal < b.ordinal ∨ a.ordinal = b.ordinal ∧ localeCompare a.id b.id < 0 := by
  simp [precedes]

variable [IsStrictTotalOrder String fun a b => localeCompare a b < 0]

theorem Beats.trans {c : Standby ρ} (hab : Beats localeCompare a b) (hbc : Beats localeCompare b c) :
    Beats localeCompare a c := by
  unfold Beats at *
  rw [precedes_iff] at *
  rcases hab with hab | ⟨hab, hab'⟩
  · rcases hbc with hbc | ⟨hbc, -⟩ <;> exact .inl (by omega)
  rcases hbc with hbc | ⟨hbc, hbc'⟩
  · exact .inl (by omega)
  refine .inr ⟨hab.trans hbc, ?_⟩
  rcases hab' with hab' | ⟨hab', hid⟩
  · rcases hbc' with hbc' | ⟨hbc', -⟩
    · exact .inl (hab'.trans hbc')
    · exact .inl (hbc' ▸ hab')
  · rcases hbc' with hbc' | ⟨hbc', hid'⟩
    · exact .inl (hab' ▸ hbc')
    · have htrans : IsTrans String fun a b => localeCompare a b < 0 := inferInstance
      exact .inr ⟨hab'.trans hbc', htrans.trans _ _ _ hid hid'⟩

theorem Beats.irrefl (a : Standby ρ) : ¬Beats localeCompare a a := by
  have hirrefl : Std.Irrefl fun a b => localeCompare a b < 0 := inferInstance
  rintro (h | ⟨-, h⟩)
  · exact lt_irrefl _ h
  · rcases precedes_iff.1 h with h | ⟨-, h⟩
    · exact lt_irrefl _ h
    · exact hirrefl.irrefl a.id h

theorem beats_total (h : a.id ≠ b.id) : Beats localeCompare a b ∨ Beats localeCompare b a := by
  unfold Beats
  rw [precedes_iff, precedes_iff]
  rcases lt_trichotomy (lsnOf a) (lsnOf b) with hlsn | hlsn | hlsn
  · exact .inr (.inl hlsn)
  · rcases lt_trichotomy a.ordinal b.ordinal with hord | hord | hord
    · exact .inl (.inr ⟨hlsn, .inl hord⟩)
    · have htri : Std.Trichotomous fun a b => localeCompare a b < 0 := inferInstance
      by_contra hnot
      obtain ⟨hab, hba⟩ := not_or.1 hnot
      exact h (htri.trichotomous _ _ (fun hlt => hab (.inr ⟨hlsn, .inr ⟨hord, hlt⟩⟩))
        fun hlt => hba (.inr ⟨hlsn.symm, .inr ⟨hord.symm, hlt⟩⟩))
    · exact .inr (.inr ⟨hlsn.symm, .inl hord⟩)
  · exact .inl (.inl hlsn)

/-- A standby that beats all others of a list. -/
structure IsBest (localeCompare : String → String → ℤ) (l : List (Standby ρ)) (best : Standby ρ) : Prop where
  mem : best ∈ l
  beats : ∀ other ∈ l, other = best ∨ Beats localeCompare best other

omit [IsStrictTotalOrder String fun a b => localeCompare a b < 0] in
variable {best : Standby ρ}

omit [IsStrictTotalOrder String fun a b => localeCompare a b < 0] in
theorem pickStep_some {entry : Standby ρ} : (Beats localeCompare entry best →
      pickStep localeCompare (some best, lsnOf best) entry = (some entry, lsnOf entry)) ∧
    (¬Beats localeCompare entry best →
      pickStep localeCompare (some best, lsnOf best) entry = (some best, lsnOf best)) := by
  have hiff : (decide (lsnOf best < lsnOf entry) ||
      decide (lsnOf entry = lsnOf best) && precedes localeCompare entry best) = true ↔
        Beats localeCompare entry best := by
    simp [Beats]
  exact ⟨fun h => if_pos (hiff.2 h), fun h => if_neg (hiff.not.2 h)⟩

/-- **One pass finds the best standby.** -/
theorem foldl_pickStep {l : List (Standby ρ)} (hids : (l.map (·.id)).Nodup) (hne : l ≠ []) :
    ∃ best, IsBest localeCompare l best ∧
      l.foldl (pickStep localeCompare) (none, -1) = (some best, lsnOf best) := by
  induction l using List.reverseRecOn with
  | nil => exact absurd rfl hne
  | append_singleton l entry ih =>
    rw [foldl_append, foldl_cons, foldl_nil]
    by_cases hnil : l = []
    · subst hnil
      exact ⟨entry, ⟨by simp, by simp⟩, rfl⟩
    rw [map_append, nodup_append] at hids
    obtain ⟨best, hbest, hfold⟩ := ih hids.1 hnil
    have hid : entry.id ≠ best.id := fun h =>
      hids.2.2 best.id (mem_map_of_mem hbest.mem) entry.id (by simp) h.symm
    rw [hfold]
    by_cases hbeats : Beats localeCompare entry best
    · refine ⟨entry, ⟨by simp, fun other hother => ?_⟩, pickStep_some.1 hbeats⟩
      rcases mem_append.1 hother with hother | hother
      · rcases hbest.beats other hother with rfl | h
        · exact .inr hbeats
        · exact .inr (hbeats.trans h)
      · exact .inl (mem_singleton.1 hother)
    · refine ⟨best, ⟨mem_append_left _ hbest.mem, fun other hother => ?_⟩, pickStep_some.2 hbeats⟩
      rcases mem_append.1 hother with hother | hother
      · exact hbest.beats other hother
      · rw [mem_singleton.1 hother]
        exact .inr ((beats_total hid).resolve_left hbeats)

variable {l : List (Standby ρ)}

theorem IsBest.unique (ha : IsBest localeCompare l a) (hb : IsBest localeCompare l b) : a = b := by
  rcases ha.beats b hb.mem with h | hab
  · exact h.symm
  · rcases hb.beats a ha.mem with h | hba
    · exact h
    · exact absurd (hab.trans hba) (Beats.irrefl a)

theorem pickMostAdvancedStandby_eq_some (hids : (l.map (·.id)).Nodup) :
    pickMostAdvancedStandby localeCompare l = some best ↔ IsBest localeCompare l best := by
  by_cases hne : l = []
  · subst hne
    refine iff_of_false (fun h => by cases h) fun h => not_mem_nil h.mem
  · obtain ⟨best', hbest', hfold⟩ := @foldl_pickStep ρ localeCompare _ l hids hne
    rw [pickMostAdvancedStandby, hfold]
    constructor
    · intro h
      exact Option.some.inj h ▸ hbest'
    · intro h
      rw [hbest'.unique h]

/-- **The choice does not depend on the order.** -/
theorem pickMostAdvancedStandby_perm {l' : List (Standby ρ)} (hids : (l.map (·.id)).Nodup) (hperm : l'.Perm l) :
    pickMostAdvancedStandby localeCompare l' = pickMostAdvancedStandby localeCompare l := by
  refine Option.ext fun best => ?_
  rw [pickMostAdvancedStandby_eq_some hids,
    pickMostAdvancedStandby_eq_some ((hperm.map _).nodup_iff.2 hids)]
  exact ⟨fun h => ⟨hperm.mem_iff.1 h.mem, fun other ho => h.beats other (hperm.mem_iff.2 ho)⟩,
    fun h => ⟨hperm.mem_iff.2 h.mem, fun other ho => h.beats other (hperm.mem_iff.1 ho)⟩⟩

/-! ## What is chosen -/

/-- Every standby reports the same executed set. -/
def ReportOneSet (l : List (Standby ρ)) : Prop := ∃ gtid, gtid ≠ [] ∧ ∀ row ∈ l, row.executedGtid = some gtid

omit [IsStrictTotalOrder String fun a b => localeCompare a b < 0] in
theorem pickMysqlFamilyStandby_eq {l : List (Standby ρ)} (hne : l ≠ []) :
    (1 < l.length ∧ ¬ReportOneSet l → pickMysqlFamilyStandby localeCompare l = none) ∧
    (¬(1 < l.length ∧ ¬ReportOneSet l) → pickMysqlFamilyStandby localeCompare l =
      pickMostAdvancedStandby localeCompare (l.map fun row => { row with receivedLsn := none })) := by
  obtain ⟨head, rest, rfl⟩ := exists_cons_of_ne_nil hne
  have hrefused : ((truthy head.executedGtid).isNone ||
      (head :: rest).any fun row => row.executedGtid ≠ head.executedGtid) = true ↔ ¬ReportOneSet (head :: rest) := by
    rw [← Bool.not_eq_false, not_iff_not, Bool.or_eq_false_iff]
    constructor
    · rintro ⟨hfirst, hall⟩
      obtain ⟨gtid, hgtid⟩ := Option.isSome_iff_exists.1 (by simpa using hfirst)
      obtain ⟨hsome, hgtid⟩ := truthy_eq_some.1 hgtid
      refine ⟨gtid, hgtid, fun row hrow => ?_⟩
      rw [← hsome]
      simpa using any_eq_false.1 hall row hrow
    · rintro ⟨gtid, hgtid, hall⟩
      rw [hall head mem_cons_self, truthy_eq_some.2 ⟨rfl, hgtid⟩]
      exact ⟨rfl, any_eq_false.2 fun row hrow => by simpa using hall row hrow⟩
  rw [pickMysqlFamilyStandby, ← hrefused]
  exact ⟨fun h => if_pos h, fun h => if_neg h⟩

omit [IsStrictTotalOrder String fun a b => localeCompare a b < 0] in
theorem pickMysqlFamilyStandby_eq_some
    (h : pickMysqlFamilyStandby localeCompare l = some best) : l.length = 1 ∨ ReportOneSet l := by
  by_cases hne : l = []
  · subst hne
    cases h
  by_contra hnot
  obtain ⟨hlength, hset⟩ := not_or.1 hnot
  have hpos := length_pos_iff.2 hne
  rw [(pickMysqlFamilyStandby_eq hne).1 ⟨by omega, hset⟩] at h
  cases h

theorem pickMysqlFamilyStandby_perm {l' : List (Standby ρ)} (hids : (l.map (·.id)).Nodup) (hperm : l'.Perm l) :
    pickMysqlFamilyStandby localeCompare l' = pickMysqlFamilyStandby localeCompare l := by
  by_cases hne : l = []
  · subst hne
    rw [hperm.eq_nil]
  have hne' : l' ≠ [] := fun h => hne (hperm.symm.trans (h ▸ List.Perm.refl [])).eq_nil
  have hset : ReportOneSet l' ↔ ReportOneSet l := by
    simp only [ReportOneSet, hperm.mem_iff]
  obtain ⟨hnone, hpick⟩ := @pickMysqlFamilyStandby_eq ρ localeCompare l hne
  obtain ⟨hnone', hpick'⟩ := @pickMysqlFamilyStandby_eq ρ localeCompare l' hne'
  rw [hset, hperm.length_eq] at hnone' hpick'
  by_cases h : 1 < l.length ∧ ¬ReportOneSet l
  · rw [hnone h, hnone' h]
  · rw [hpick h, hpick' h]
    refine pickMostAdvancedStandby_perm ?_ (hperm.map _)
    rwa [map_map]

end

/-! ## What is parsed -/

/-- `X/Y`, in hexadecimal digits, of the upper and the lower half of a position. -/
def SpellsLsn (t : Text) (position : ℕ) : Prop :=
  ∃ high low, t = high ++ '/' :: low ∧ isLsnHalf high = true ∧ isLsnHalf low = true ∧
    ofDigits 16 high = position / 2 ^ 32 ∧ ofDigits 16 low = position % 2 ^ 32

variable {t : Text}

theorem lsnHalf_lt (h : isLsnHalf t = true) : ofDigits 16 t < 2 ^ 32 := by
  simp only [isLsnHalf, Bool.and_eq_true, decide_eq_true_eq, all_eq_true] at h
  calc ofDigits 16 t < 16 ^ t.length := ofDigits_lt h.2
    _ ≤ 16 ^ 8 := Nat.pow_le_pow_right (by norm_num) h.1.2
    _ = 2 ^ 32 := by norm_num

theorem slash_not_mem_lsnHalf (h : isLsnHalf t = true) : '/' ∉ t := by
  simp only [isLsnHalf, Bool.and_eq_true, all_eq_true] at h
  exact fun hmem => absurd (h.2 _ hmem) (by decide)

/-- **The text of a position is parsed as that position.** -/
theorem parsePgLsn_eq_some {position : ℕ} :
    parsePgLsn (some t) = some position ↔ SpellsLsn (trim t) position := by
  rw [parsePgLsn, Option.map_some]
  constructor
  · intro h
    split at h
    · rename_i high low hsplit
      split_ifs at h with hhalves
      obtain ⟨hhigh, hlow⟩ := Bool.and_eq_true_iff.1 hhalves
      have hparts : ['/'].intercalate ((trim t).splitOn '/') = trim t := intercalate_splitOn '/'
      rw [Option.some.inj hsplit] at hparts
      have hlt := lsnHalf_lt hlow
      rw [← Option.some.inj h, Nat.shiftLeft_eq]
      refine ⟨high, low, by rw [← hparts]; simp [List.intercalate], hhigh, hlow, ?_, ?_⟩ <;> omega
    · cases h
  · rintro ⟨high, low, htext, hhigh, hlow, hdiv, hmod⟩
    have hsplit : (trim t).splitOn '/' = [high, low] := by
      have hjoined : trim t = ['/'].intercalate [high, low] := by rw [htext]; simp [List.intercalate]
      rw [hjoined]
      refine splitOn_intercalate '/' (fun part hpart => ?_) (by simp)
      rcases mem_pair.1 hpart with rfl | rfl
      · exact slash_not_mem_lsnHalf hhigh
      · exact slash_not_mem_lsnHalf hlow
    rw [hsplit]
    dsimp only
    rw [hhigh, hlow, Bool.and_self, if_pos rfl, hdiv, hmod, Nat.shiftLeft_eq, Nat.div_add_mod']

/-- What a standby received, with nothing known below every position. -/
def receivedPosition {ρ : Type} (entry : Standby ρ) : WithBot ℕ := parsePgLsn entry.receivedLsn

theorem lsnOf_le_iff {ρ : Type} {a b : Standby ρ} : lsnOf a ≤ lsnOf b ↔ receivedPosition a ≤ receivedPosition b := by
  unfold lsnOf receivedPosition
  cases parsePgLsn a.receivedLsn with
  | none =>
    refine iff_of_true ?_ bot_le
    cases parsePgLsn b.receivedLsn <;> simp
  | some m =>
    cases parsePgLsn b.receivedLsn with
    | none =>
      refine iff_of_false ?_ (WithBot.not_coe_le_bot m)
      simp only [Option.map_some, Option.map_none, Option.getD_some, Option.getD_none, Int.ofNat_eq_natCast]
      omega
    | some n => exact Int.ofNat_le.trans WithBot.coe_le_coe.symm

/-- **The choice of a standby is maximal and does not depend on the order** in which the standbys
come. -/
theorem standby_choice {ρ : Type} (localeCompare : String → String → ℤ)
    (hlocale : IsStrictTotalOrder String fun a b => localeCompare a b < 0) :
    (∀ accepted : List (Standby ρ), (accepted.map (·.id)).Nodup →
      (∀ accepted', accepted'.Perm accepted →
        pickMostAdvancedStandby localeCompare accepted' = pickMostAdvancedStandby localeCompare accepted ∧
        pickMysqlFamilyStandby localeCompare accepted' = pickMysqlFamilyStandby localeCompare accepted) ∧
      (accepted ≠ [] → ∃ best, pickMostAdvancedStandby localeCompare accepted = some best ∧ best ∈ accepted ∧
        ∀ other ∈ accepted, receivedPosition other ≤ receivedPosition best ∧
          (receivedPosition other = receivedPosition best → best.ordinal ≤ other.ordinal ∧
            (best.ordinal = other.ordinal → other = best ∨ localeCompare best.id other.id < 0)))) ∧
    (∀ (accepted : List (Standby ρ)) (best : Standby ρ), pickMysqlFamilyStandby localeCompare accepted = some best →
      accepted.length = 1 ∨ ∃ gtid, gtid ≠ [] ∧ ∀ row ∈ accepted, row.executedGtid = some gtid) ∧
    (∀ t position, parsePgLsn (some t) = some position ↔ SpellsLsn (trim t) position) ∧
    ∀ s t p q, SpellsLsn (trim s) p → SpellsLsn (trim t) q → p < 2 ^ 64 ∧
      ∃ m n, parsePgLsn (some s) = some m ∧ parsePgLsn (some t) = some n ∧ (m ≤ n ↔ p ≤ q) := by
  refine ⟨fun accepted hids => ⟨fun accepted' hperm => ?_, fun hne => ?_⟩,
    fun accepted best h => pickMysqlFamilyStandby_eq_some h, fun t position => parsePgLsn_eq_some, ?_⟩
  · exact ⟨pickMostAdvancedStandby_perm hids hperm, pickMysqlFamilyStandby_perm hids hperm⟩
  · obtain ⟨best, hbest, hfold⟩ := @foldl_pickStep ρ localeCompare _ accepted hids hne
    refine ⟨best, by rw [pickMostAdvancedStandby, hfold], hbest.mem, fun other hother => ?_⟩
    rcases hbest.beats other hother with rfl | hlsn | ⟨hlsn, hbeats⟩
    · exact ⟨le_rfl, fun _ => ⟨le_rfl, fun _ => .inl rfl⟩⟩
    · refine ⟨lsnOf_le_iff.1 hlsn.le, fun heq => absurd (lsnOf_le_iff.2 heq.ge) (not_le.2 hlsn)⟩
    · refine ⟨lsnOf_le_iff.1 hlsn.ge, fun _ => ?_⟩
      rcases precedes_iff.1 hbeats with hord | ⟨hord, hid⟩
      · exact ⟨hord.le, fun heq => absurd heq hord.ne⟩
      · exact ⟨hord.le, fun _ => .inr hid⟩
  · rintro s t p q hs ht
    refine ⟨?_, p, q, parsePgLsn_eq_some.2 hs, parsePgLsn_eq_some.2 ht, Iff.rfl⟩
    obtain ⟨high, low, -, hhigh, -, hdiv, -⟩ := hs
    have hlt := lsnHalf_lt hhigh
    rw [hdiv] at hlt
    omega

theorem received_standby_chosen : pickMostAdvancedStandby (fun a b => if a < b then -1 else if b < a then 1 else 0)
    [⟨"b", 1, none, none, ()⟩, ⟨"a", 2, some "0/3000060".toList, none, ()⟩] =
  pickMostAdvancedStandby (fun a b => if a < b then -1 else if b < a then 1 else 0)
    [⟨"a", 2, some "0/3000060".toList, none, ()⟩, ⟨"b", 1, none, none, ()⟩] := by
  have hlt : (fun a b : String => (if a < b then (-1 : ℤ) else if b < a then 1 else 0) < 0) = (· < ·) := by
    funext a b
    split_ifs with hab hba <;> simp [hab]
  have hlocale : IsStrictTotalOrder String
      fun a b => (if a < b then (-1 : ℤ) else if b < a then 1 else 0) < 0 := by
    rw [hlt]
    infer_instance
  exact (((standby_choice _ hlocale).1 _ (by decide)).1 _ (List.Perm.swap _ _ [])).1

end TurboPanel.FreshStandby
