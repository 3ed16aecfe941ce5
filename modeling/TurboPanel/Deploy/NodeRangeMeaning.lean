import TurboPanel.Data.Slices
import TurboPanel.Data.Traversal
import TurboPanel.Deploy.NodeRange

/-!
# What a version range means

A release satisfies a comparator as npm has it (`Operator.Holds`): a version written in part is
filled with zeros where it bounds from below, and stands for every version that begins with it
elsewhere; `~` and `^` keep the first parts (`satisfies_spelled`). An alternative is satisfied when
its comparators all are, and a range when one of its alternatives is. The intervals of the code
contain exactly the releases that do (`mem_alternativeInterval`), so a series is allowed when it has
such a release (`nodeVersionRange_reads`).
-/

namespace TurboPanel.Deploy.NodeRange

open Js List

/-! ## Satisfaction -/

/-- The three parts of a release. -/
def Version.parts (v : Version) : List ℕ := [v.major, v.minor, v.patch]

/-- A version written in part, with zeros for the rest. -/
def filled (p : List ℕ) : List ℕ := p ++ List.replicate (3 - p.length) 0

/-- How many parts `^` keeps: up to the first that is not zero, or all of them. -/
def caretWidth (p : List ℕ) : ℕ := min p.length ((p.takeWhile (· = 0)).length + 1)

/-- The release with parts `v` satisfies the comparator of this operator and the version `p`, as far
as it is written. Lists are compared part by part. -/
def Operator.Holds (operator : Operator) (p v : List ℕ) : Prop :=
  match operator with
  | .atLeast => filled p ≤ v
  | .less => v < filled p
  | .greater => p < v.take p.length
  | .atMost => v.take p.length ≤ p
  | .equal | .bare => v.take p.length = p
  | .tilde | .tildeGreater => filled p ≤ v ∧ v.take (min p.length 2) = p.take (min p.length 2)
  | .caret => filled p ≤ v ∧ v.take (caretWidth p) = p.take (caretWidth p)

/-- The release satisfies `low - high`: from the first, filled with zeros, through all of the
second. -/
def HyphenHolds (low high v : List ℕ) : Prop := filled low ≤ v ∧ v.take high.length ≤ high

/-- The release satisfies what the token writes. -/
def Version.Satisfies (v : Version) (token : Text) : Prop :=
  ∃ operator version written, splitOperator token = (operator, version) ∧
    parseWrittenVersion version = some written ∧ operator.Holds written.parts v.parts

/-- The release satisfies an alternative: a hyphen range, or all its comparators. -/
def Version.SatisfiesAll (v : Version) (alternative : Text) : Prop :=
  (∃ low high lowest highest, comparatorTokens alternative = [low, ['-'], high] ∧
      parseWrittenVersion low = some lowest ∧ parseWrittenVersion high = some highest ∧
        HyphenHolds lowest.parts highest.parts v.parts) ∨
    (∀ low high, comparatorTokens alternative ≠ [low, ['-'], high]) ∧
      ∀ token ∈ comparatorTokens alternative, v.Satisfies token

/-- Some release of the series satisfies an alternative of the range. -/
def AllowsSeries (range : Text) (major : ℕ) : Prop :=
  ∃ minor patch, ∃ alternative ∈ alternatives range,
    Version.SatisfiesAll ⟨major, minor, patch⟩ alternative

/-! ## Comparators as they are written -/

/-- The numbers of a version, with points between. -/
def spelled (p : List ℕ) : Text := ['.'].intercalate (p.map (Nat.toDigits 10))

section

variable {p : List ℕ}

theorem mem_spelled {c : Char} (hc : c ∈ spelled p) : c = '.' ∨ isDigitOf 10 c = true := by
  induction p with
  | nil => cases hc
  | cons n p ih =>
    cases p with
    | nil => exact .inr (isDigitOf_of_mem_decimal (by simpa [spelled] using hc))
    | cons m p =>
      rw [spelled, map_cons, map_cons, intercalate_cons_cons, mem_append, mem_append, mem_singleton] at hc
      obtain (hc | hc) | hc := hc
      · exact .inr (isDigitOf_of_mem_decimal hc)
      · exact .inl hc
      · exact ih hc

theorem exists_head_spelled (hne : p ≠ []) : ∃ c rest, spelled p = c :: rest ∧ isDigitOf 10 c = true := by
  obtain ⟨n, q, rfl⟩ := exists_cons_of_ne_nil hne
  obtain ⟨c, digits, hdigits⟩ := exists_cons_of_ne_nil (Nat.toDigits_ne_nil (n := n) (b := 10))
  have hc : isDigitOf 10 c = true := isDigitOf_of_mem_decimal (n := n) (hdigits ▸ mem_cons_self)
  cases q with
  | nil => exact ⟨c, digits, by simpa [spelled] using hdigits, hc⟩
  | cons m q =>
    refine ⟨c, digits ++ ['.'] ++ spelled (m :: q), ?_, hc⟩
    rw [spelled, map_cons, map_cons, intercalate_cons_cons, hdigits]
    rfl

theorem readPieces_digits (hlt : ∀ n ∈ p, n < 10 ^ maxComponentDigits) :
    readPieces false (p.map (Nat.toDigits 10)) = some p := by
  induction p with
  | nil => rfl
  | cons n p ih =>
    have hdigit : ∀ c ∈ Nat.toDigits 10 n, isDigitOf 10 c = true := fun c => isDigitOf_of_mem_decimal
    have hwild : isWildcard (Nat.toDigits 10 n) = false := by
      by_contra h
      simp only [isWildcard, Bool.not_eq_false, Bool.or_eq_true, decide_eq_true_eq] at h
      obtain (h | h) | h := h <;> exact absurd (hdigit _ (h ▸ mem_singleton_self _)) (by decide)
    have hdigits : isDigits (Nat.toDigits 10 n) = true := by
      have hle := (Nat.length_toDigits_le_iff (b := 10) (by decide) (by decide)).2 (hlt n mem_cons_self)
      have hpos := Nat.length_toDigits_pos (b := 10) (n := n)
      have hrange : ∀ d < 10, ('0' ≤ Nat.digitChar d && Nat.digitChar d ≤ '9') = true := by decide
      rw [isDigits, if_neg (by omega), all_eq_true]
      intro c hc
      obtain ⟨hchar, hlt⟩ := eq_digitChar_of_isDigit (hdigit c hc)
      rw [hchar]
      exact hrange _ hlt
    rw [map_cons, readPieces, if_neg (by simp [hwild]), if_neg (by simp [hdigits]),
      ih fun m hm => hlt m (mem_cons_of_mem n hm), ofDigits_toDigits (by decide) (by decide)]
    rfl

theorem parseWrittenVersion_spelled (hne : p ≠ []) (hlength : p.length ≤ 3)
    (hlt : ∀ n ∈ p, n < 10 ^ maxComponentDigits) : parseWrittenVersion (spelled p) = some ⟨p⟩ := by
  obtain ⟨c, rest, hhead, hc⟩ := exists_head_spelled hne
  have hcut : ∀ marker, marker ≠ '.' → isDigitOf 10 marker = false → cutAt (spelled p) marker = (spelled p, false) := by
    intro marker hpoint hdigit
    have hnot : marker ∉ spelled p := fun hmem => by
      obtain rfl | h := mem_spelled hmem
      · exact hpoint rfl
      · rw [h] at hdigit
        cases hdigit
    rw [cutAt, takeWhile_eq_self_iff.2 fun c hc => decide_eq_true (ne_of_mem_of_not_mem hc hnot),
      show (spelled p).elem marker = false by simpa using hnot]
  have hprefix : withoutPrefix (spelled p) = spelled p := by
    have hkeep : ¬(c = 'v' ∨ c = 'V' ∨ c = '=') := by
      rintro (rfl | rfl | rfl) <;> exact absurd hc (by decide)
    rw [hhead, withoutPrefix, dropPrefix, if_neg hkeep, dropPrefix, if_neg hkeep]
  have hsplit : (spelled p).splitOn '.' = p.map (Nat.toDigits 10) :=
    Data.splitOn_joined (by simpa using hne) fun field hfield => by
      obtain ⟨n, -, rfl⟩ := mem_map.1 hfield
      exact not_mem_decimal (by decide)
  rw [parseWrittenVersion, hprefix, hcut '+' (by decide) (by decide)]
  dsimp only
  rw [hcut '-' (by decide) (by decide), hhead]
  dsimp only
  rw [← hhead, hsplit, readPieces_digits hlt]
  simp [hhead, hlength]

/-- **A comparator says what it is written as**: its operator and the numbers of its version. -/
theorem satisfies_spelled (operator : Operator) (v : Version) (hne : p ≠ []) (hlength : p.length ≤ 3)
    (hlt : ∀ n ∈ p, n < 10 ^ maxComponentDigits) :
    v.Satisfies (operator.text ++ spelled p) ↔ operator.Holds p v.parts := by
  obtain ⟨c, rest, hhead, hc⟩ := exists_head_spelled hne
  have hsplit : splitOperator (operator.text ++ spelled p) = (operator, spelled p) := by
    have hother : '=' ≠ c ∧ '>' ≠ c ∧ '<' ≠ c ∧ '~' ≠ c ∧ '^' ≠ c := by
      refine ⟨?_, ?_, ?_, ?_, ?_⟩ <;> (rintro rfl; cases hc)
    rw [hhead]
    cases operator <;> simp [splitOperator, operators, Operator.text, isPrefixOf, hother]
  rw [Version.Satisfies, hsplit]
  constructor
  · rintro ⟨_, _, written, ⟨⟩, hparse, hholds⟩
    cases (parseWrittenVersion_spelled hne hlength hlt).symm.trans hparse
    exact hholds
  · exact fun hholds => ⟨_, _, _, rfl, parseWrittenVersion_spelled hne hlength hlt, hholds⟩

end

/-! ## Intervals -/

/-- The order of `compareVersions`. -/
def Version.Before (a b : Version) : Prop :=
  a.major < b.major ∨ a.major = b.major ∧
    (a.minor < b.minor ∨ a.minor = b.minor ∧ a.patch < b.patch)

instance : Membership Version Interval where
  mem i v := ¬v.Before i.lo ∧ ∀ hi ∈ i.hi, v.Before hi

variable {i : Interval}

theorem mem_interval {v : Version} : v ∈ i ↔ ¬v.Before i.lo ∧ ∀ hi ∈ i.hi, v.Before hi := Iff.rfl

theorem compareVersions_neg {a b : Version} : compareVersions a b < 0 ↔ a.Before b := by
  unfold compareVersions Version.Before
  split_ifs <;> omega

theorem compareVersions_pos {a b : Version} : compareVersions a b > 0 ↔ b.Before a := by
  unfold compareVersions Version.Before
  split_ifs <;> omega

theorem mem_everything (v : Version) : v ∈ everything := by
  rw [mem_interval]
  simp [everything, zero, Version.Before]

theorem mem_intersect {v : Version} {a b : Interval} : v ∈ intersect a b ↔ v ∈ a ∧ v ∈ b := by
  have hlo : ¬v.Before (if compareVersions a.lo b.lo ≥ 0 then a.lo else b.lo) ↔
      ¬v.Before a.lo ∧ ¬v.Before b.lo := by
    split_ifs with h
    · rw [ge_iff_le, ← not_lt, compareVersions_neg] at h
      unfold Version.Before at *
      omega
    · rw [ge_iff_le, not_le, compareVersions_neg] at h
      unfold Version.Before at *
      omega
  have hhi : ∀ hi hi' : Version, v.Before (if compareVersions hi hi' ≤ 0 then hi else hi') ↔
      v.Before hi ∧ v.Before hi' := by
    intro hi hi'
    split_ifs with h
    · rw [← not_lt, ← gt_iff_lt, compareVersions_pos] at h
      unfold Version.Before at *
      omega
    · rw [not_le, ← gt_iff_lt, compareVersions_pos] at h
      unfold Version.Before at *
      omega
  simp only [mem_interval, intersect]
  cases a.hi with
  | none =>
    simp only [hlo, Option.mem_def, reduceCtorEq, false_implies, implies_true, and_true]
    tauto
  | some hi =>
    cases b.hi with
    | none =>
      simp only [hlo, Option.mem_def, reduceCtorEq, false_implies, implies_true, and_true]
      tauto
    | some hi' =>
      simp only [hlo, Option.mem_def, Option.some.injEq, forall_eq', hhi]
      tauto

theorem cons_le_cons_iff {a b : ℕ} {p q : List ℕ} : a :: p ≤ b :: q ↔ a < b ∨ a = b ∧ p ≤ q := by
  rw [← not_lt, ← not_lt, cons_lt_cons_iff]
  rcases Nat.lt_trichotomy a b with h | rfl | h
  · simp [h, h.ne', h.not_gt]
  · simp
  · simp [h, h.ne', h.not_gt]

theorem parts_cases {p : List ℕ} (h : p.length ≤ 3) : p = [] ∨ (∃ a, p = [a]) ∨
    (∃ a b, p = [a, b]) ∨ ∃ a b c, p = [a, b, c] := by
  match p, h with
  | [], _ => exact .inl rfl
  | [a], _ => exact .inr (.inl ⟨a, rfl⟩)
  | [a, b], _ => exact .inr (.inr (.inl ⟨a, b, rfl⟩))
  | [a, b, c], _ => exact .inr (.inr (.inr ⟨a, b, c, rfl⟩))

section

variable {p : List ℕ} (hp : p.length ≤ 3) (v : Version)

include hp

theorem filled_le_parts : filled p ≤ v.parts ↔ ¬v.Before (floorOf ⟨p⟩) := by
  obtain rfl | ⟨a, rfl⟩ | ⟨a, b, rfl⟩ | ⟨a, b, c, rfl⟩ := parts_cases hp <;>
    simp [filled, Version.parts, Version.Before, floorOf, cons_le_cons_iff] <;> omega

theorem take_parts_le : v.parts.take p.length ≤ p ↔
    p.length = 0 ∨ v.Before (nextAfter ⟨p⟩ p.length) := by
  obtain rfl | ⟨a, rfl⟩ | ⟨a, b, rfl⟩ | ⟨a, b, c, rfl⟩ := parts_cases hp <;>
    simp [Version.parts, Version.Before, nextAfter, floorOf, cons_le_cons_iff] <;> omega

theorem take_parts_eq {count : ℕ} (hpos : 0 < count) (hcount : count ≤ p.length)
    (hfloor : ¬v.Before (floorOf ⟨p⟩)) :
    v.parts.take count = p.take count ↔ v.Before (nextAfter ⟨p⟩ count) := by
  unfold Version.Before at hfloor ⊢
  obtain rfl | ⟨a, rfl⟩ | ⟨a, b, rfl⟩ | ⟨a, b, c, rfl⟩ := parts_cases hp
  · simp at hcount
    omega
  · obtain rfl : count = 1 := by simp at hcount; omega
    simp [Version.parts, nextAfter, floorOf] at hfloor ⊢
    omega
  · obtain rfl | rfl : count = 1 ∨ count = 2 := by simp at hcount; omega
    all_goals
      simp [Version.parts, nextAfter, floorOf] at hfloor ⊢
      omega
  · obtain rfl | rfl | rfl : count = 1 ∨ count = 2 ∨ count = 3 := by simp at hcount; omega
    all_goals
      simp [Version.parts, nextAfter, floorOf] at hfloor ⊢
      omega

theorem lt_filled : v.parts < filled p ↔ v.Before (floorOf ⟨p⟩) := by
  rw [← not_le, filled_le_parts hp, not_not]

theorem lt_take_parts : p < v.parts.take p.length ↔
    p.length ≠ 0 ∧ ¬v.Before (nextAfter ⟨p⟩ p.length) := by
  rw [← not_le, take_parts_le hp, not_or]

theorem mem_upTo {count : ℕ} (hpos : 0 < count) (hcount : count ≤ p.length) :
    v ∈ (⟨floorOf ⟨p⟩, some (nextAfter ⟨p⟩ count)⟩ : Interval) ↔
      filled p ≤ v.parts ∧ v.parts.take count = p.take count := by
  rw [mem_interval, filled_le_parts hp]
  simp only [Option.mem_def, Option.some.injEq, forall_eq']
  exact and_congr_right fun hfloor => (take_parts_eq hp v hpos hcount hfloor).symm

theorem filled_le_of_take_eq (h : v.parts.take p.length = p) : filled p ≤ v.parts := by
  obtain rfl | ⟨a, rfl⟩ | ⟨a, b, rfl⟩ | ⟨a, b, c, rfl⟩ := parts_cases hp <;>
    simp [Version.parts] at h <;> simp [filled, Version.parts, cons_le_cons_iff] <;> omega

theorem mem_exactInterval : v ∈ exactInterval ⟨p⟩ ↔ v.parts.take p.length = p := by
  rw [exactInterval]
  dsimp only
  split_ifs with hzero
  · rw [length_eq_zero_iff.1 hzero]
    simp [mem_everything]
  · rw [mem_upTo hp v (Nat.pos_of_ne_zero hzero) le_rfl, take_length]
    exact ⟨And.right, fun h => ⟨filled_le_of_take_eq hp v h, h⟩⟩

theorem mem_tildeInterval : v ∈ tildeInterval ⟨p⟩ ↔
    filled p ≤ v.parts ∧ v.parts.take (min p.length 2) = p.take (min p.length 2) := by
  rw [tildeInterval]
  dsimp only
  split_ifs with hzero
  · rw [hzero, Nat.zero_min, take_zero, take_zero, filled_le_parts hp,
      length_eq_zero_iff.1 hzero]
    simp [mem_everything, floorOf, Version.Before]
  · exact mem_upTo hp v (by omega) (Nat.min_le_left _ _)

theorem caretInterval_eq (hne : p ≠ []) :
    caretInterval ⟨p⟩ = ⟨floorOf ⟨p⟩, some (nextAfter ⟨p⟩ (caretWidth p))⟩ := by
  rw [caretInterval]
  obtain rfl | ⟨a, rfl⟩ | ⟨a, b, rfl⟩ | ⟨a, b, c, rfl⟩ := parts_cases hp
  · exact absurd rfl hne
  · simp [caretWidth]
  · by_cases ha : a = 0
    · simp [caretWidth, ha]
    · simp [caretWidth, ha, Nat.pos_of_ne_zero ha]
  · by_cases ha : a = 0
    · by_cases hb : b = 0
      · simp [caretWidth, ha, hb]
      · simp [caretWidth, ha, hb, Nat.pos_of_ne_zero hb]
    · simp [caretWidth, ha, Nat.pos_of_ne_zero ha]

theorem mem_caretInterval : v ∈ caretInterval ⟨p⟩ ↔
    filled p ≤ v.parts ∧ v.parts.take (caretWidth p) = p.take (caretWidth p) := by
  by_cases hne : p = []
  · subst hne
    simp [caretInterval, mem_everything, filled_le_parts, floorOf, Version.Before, caretWidth]
  · have hpos := length_pos_of_ne_nil hne
    rw [caretInterval_eq hp hne]
    exact mem_upTo hp v (by unfold caretWidth; omega) (Nat.min_le_left _ _)

theorem mem_intervalOf (operator : Operator) :
    v ∈ intervalOf operator ⟨p⟩ ↔ operator.Holds p v.parts := by
  have hnothing : v ∉ nothing := by simp [mem_interval, nothing, zero, Version.Before]
  cases operator with
  | atLeast =>
    rw [Operator.Holds, filled_le_parts hp]
    change v ∈ (if p.length = 0 then everything else ⟨floorOf ⟨p⟩, none⟩) ↔ _
    split_ifs with hzero
    · rw [length_eq_zero_iff.1 hzero]
      simp [mem_everything, floorOf, Version.Before]
    · simp [mem_interval]
  | greater =>
    rw [Operator.Holds, lt_take_parts hp]
    change v ∈ (if p.length = 0 then nothing else ⟨nextAfter ⟨p⟩ p.length, none⟩) ↔ _
    split_ifs with hzero
    · simp [hnothing, hzero]
    · simp [mem_interval, hzero]
  | atMost =>
    rw [Operator.Holds, take_parts_le hp]
    change v ∈ (if p.length = 0 then everything else ⟨zero, some (nextAfter ⟨p⟩ p.length)⟩) ↔ _
    split_ifs with hzero
    · simp [mem_everything, hzero]
    · simp [mem_interval, hzero, zero, Version.Before]
  | less =>
    rw [Operator.Holds, lt_filled hp]
    change v ∈ (if p.length = 0 then nothing else ⟨zero, some (floorOf ⟨p⟩)⟩) ↔ _
    split_ifs with hzero
    · rw [length_eq_zero_iff.1 hzero]
      simp [hnothing, floorOf, Version.Before]
    · simp [mem_interval, zero, Version.Before]
  | equal => exact mem_exactInterval hp v
  | bare => exact mem_exactInterval hp v
  | tilde => exact mem_tildeInterval hp v
  | tildeGreater => exact mem_tildeInterval hp v
  | caret => exact mem_caretInterval hp v

end

/-! ## Alternatives -/

variable {pieces : List Text} {parts : List ℕ}

theorem readPieces_true :
    readPieces true pieces = some parts ↔ (∀ w ∈ pieces, isWildcard w = true) ∧ parts = [] := by
  induction pieces with
  | nil =>
    rw [readPieces, Option.some.injEq]
    exact ⟨fun h => ⟨by simp, h.symm⟩, fun h => h.2.symm⟩
  | cons piece pieces ih =>
    rw [readPieces]
    split_ifs with hwildcard
    · simp [ih, hwildcard]
    · simp_all
    · simp_all

theorem readPieces_eq_some_iff : readPieces false pieces = some parts ↔ ∃ ds ws, pieces = ds ++ ws ∧
      (∀ d ∈ ds, isWildcard d = false ∧ isDigits d = true) ∧ (∀ w ∈ ws, isWildcard w = true) ∧
        parts = ds.map (ofDigits 10) := by
  induction pieces generalizing parts with
  | nil =>
    rw [readPieces, Option.some.injEq]
    constructor
    · rintro rfl
      exact ⟨[], [], rfl, by simp, by simp, rfl⟩
    · rintro ⟨ds, ws, hpieces, -, -, rfl⟩
      rw [(append_eq_nil_iff.1 hpieces.symm).1, map_nil]
  | cons piece pieces ih =>
    rw [readPieces]
    split_ifs with hwildcard hdigits
    · rw [readPieces_true]
      constructor
      · rintro ⟨hall, rfl⟩
        exact ⟨[], piece :: pieces, rfl, by simp, forall_mem_cons.2 ⟨hwildcard, hall⟩, rfl⟩
      · rintro ⟨ds, ws, hpieces, hds, hws, rfl⟩
        cases ds with
        | nil =>
          obtain rfl : piece :: pieces = ws := hpieces
          exact ⟨fun w hw => hws w (mem_cons_of_mem _ hw), rfl⟩
        | cons d ds =>
          cases hpieces
          simp [(hds piece mem_cons_self).1] at hwildcard
    · refine ⟨nofun, ?_⟩
      rintro ⟨ds, ws, hpieces, hds, hws, rfl⟩
      cases ds with
      | nil =>
        obtain rfl : piece :: pieces = ws := hpieces
        exact absurd (hws piece mem_cons_self) hwildcard
      | cons d ds =>
        cases hpieces
        simp [(hds piece mem_cons_self).2] at hdigits
    · rw [Option.map_eq_some_iff]
      constructor
      · rintro ⟨rest, hrest, rfl⟩
        obtain ⟨ds, ws, rfl, hds, hws, rfl⟩ := ih.1 hrest
        exact ⟨piece :: ds, ws, rfl, forall_mem_cons.2 ⟨by simp_all, hds⟩, hws, rfl⟩
      · rintro ⟨ds, ws, hpieces, hds, hws, rfl⟩
        cases ds with
        | nil =>
          obtain rfl : piece :: pieces = ws := hpieces
          exact absurd (hws piece mem_cons_self) hwildcard
        | cons d ds =>
          cases hpieces
          exact ⟨ds.map (ofDigits 10), ih.2 ⟨ds, ws, rfl,
            fun d hd => hds d (mem_cons_of_mem _ hd), hws, rfl⟩, rfl⟩

theorem length_readPieces (h : readPieces false pieces = some parts) : parts.length ≤ pieces.length := by
  obtain ⟨ds, ws, rfl, -, -, rfl⟩ := readPieces_eq_some_iff.1 h
  simp

theorem length_parts_le {raw : Text} {written : WrittenVersion}
    (h : parseWrittenVersion raw = some written) : written.parts.length ≤ 3 := by
  unfold parseWrittenVersion at h
  dsimp only at h
  split_ifs at h with hempty hlong hprerelease
  obtain ⟨parts, hparts, rfl⟩ := Option.map_eq_some_iff.1 h
  exact (length_readPieces hparts).trans (not_lt.1 hlong)

theorem mem_comparatorInterval {token : Text} (h : comparatorInterval token = some i)
    (v : Version) : v ∈ i ↔ v.Satisfies token := by
  have hmap : (parseWrittenVersion (splitOperator token).2).map (intervalOf (splitOperator token).1) =
      some i := h
  obtain ⟨written, hwritten, rfl⟩ := Option.map_eq_some_iff.1 hmap
  rw [mem_intervalOf (length_parts_le hwritten)]
  constructor
  · exact fun hholds => ⟨_, _, written, rfl, hwritten, hholds⟩
  · rintro ⟨operator, version, written', hsplit, hwritten', hholds⟩
    rw [hsplit] at hwritten ⊢
    cases hwritten.symm.trans hwritten'
    exact hholds

theorem mem_intersectTokens {tokens : List Text} (v : Version) : ∀ {i i' : Interval},
    intersectTokens i tokens = some i' → (v ∈ i' ↔ v ∈ i ∧ ∀ token ∈ tokens, v.Satisfies token) := by
  induction tokens with
  | nil =>
    intro i i' h
    cases h
    simp
  | cons token tokens ih =>
    intro i i' h
    rw [intersectTokens] at h
    cases hnext : comparatorInterval token with
    | none => simp [hnext] at h
    | some next =>
      simp only [hnext] at h
      rw [ih h, mem_intersect, mem_comparatorInterval hnext, forall_mem_cons, and_assoc]

theorem mem_hyphenInterval {low high : Text} (h : hyphenInterval low high = some i)
    (v : Version) : v ∈ i ↔ ∃ lowest highest, parseWrittenVersion low = some lowest ∧
      parseWrittenVersion high = some highest ∧ HyphenHolds lowest.parts highest.parts v.parts := by
  unfold hyphenInterval at h
  cases hlow : parseWrittenVersion low with
  | none => simp [hlow] at h
  | some lowest =>
    cases hhigh : parseWrittenVersion high with
    | none => simp [hlow, hhigh] at h
    | some highest =>
      simp only [hlow, hhigh, Option.some.injEq] at h
      have hholds : v ∈ i ↔ HyphenHolds lowest.parts highest.parts v.parts := by
        rw [← h, HyphenHolds, filled_le_parts (length_parts_le hlow),
          take_parts_le (length_parts_le hhigh), mem_interval]
        split_ifs with hzero
        · simp [hzero]
        · simp [hzero]
      rw [hholds]
      simp

theorem mem_alternativeInterval {alternative : Text}
    (h : alternativeInterval alternative = some i) (v : Version) :
    v ∈ i ↔ v.SatisfiesAll alternative := by
  unfold alternativeInterval at h
  unfold Version.SatisfiesAll
  split at h
  · rename_i htokens
    cases h
    simp [htokens, mem_everything]
  · rename_i low high htokens
    rw [mem_hyphenInterval h]
    constructor
    · rintro ⟨lowest, highest, hlow, hhigh, hholds⟩
      exact .inl ⟨low, high, lowest, highest, htokens, hlow, hhigh, hholds⟩
    · rintro (⟨low', high', lowest, highest, htokens', hlow, hhigh, hholds⟩ | ⟨hne, -⟩)
      · rw [htokens] at htokens'
        obtain ⟨rfl, htail⟩ := List.cons.inj htokens'
        obtain ⟨-, htail⟩ := List.cons.inj htail
        cases htail
        exact ⟨lowest, highest, hlow, hhigh, hholds⟩
      · exact absurd htokens (hne low high)
  · rename_i tokens hempty hhyphen
    rw [mem_intersectTokens v h]
    constructor
    · exact fun hall => .inr ⟨hhyphen, hall.2⟩
    · rintro (⟨low, high, _, _, htokens, -⟩ | ⟨-, hall⟩)
      · exact absurd htokens (hhyphen low high)
      · exact ⟨mem_everything v, hall⟩

/-! ## Series -/

theorem overlaps_iff {major : ℕ} : ((if i.hi.any fun hi => compareVersions i.lo hi ≥ 0 then false
      else compareVersions i.lo ⟨major + 1, 0, 0⟩ < 0 &&
        i.hi.all fun hi => compareVersions hi ⟨major, 0, 0⟩ > 0) = true) ↔
      ∃ minor patch, (⟨major, minor, patch⟩ : Version) ∈ i := by
  obtain ⟨lo, hi⟩ := i
  cases hi with
  | none =>
    simp only [Option.any_none, Bool.false_eq_true, if_false, Option.all_none, Bool.and_true,
      decide_eq_true_eq, compareVersions_neg, mem_interval, Option.mem_def, reduceCtorEq,
      false_implies, implies_true, and_true]
    unfold Version.Before
    constructor
    · intro hlo
      by_cases hmajor : lo.major = major
      · exact ⟨lo.minor, lo.patch, by dsimp only; omega⟩
      · exact ⟨0, 0, by dsimp only at hlo ⊢; omega⟩
    · rintro ⟨minor, patch, hlo⟩
      dsimp only at hlo ⊢
      omega
  | some hi =>
    have hge : compareVersions lo hi ≥ 0 ↔ ¬lo.Before hi := by
      rw [ge_iff_le, ← not_lt, compareVersions_neg]
    simp only [Option.any_some, Option.all_some, mem_interval, Option.mem_def, Option.some.injEq,
      forall_eq']
    by_cases hlohi : lo.Before hi
    · rw [if_neg (by simpa [hge] using hlohi), Bool.and_eq_true, decide_eq_true_eq,
        decide_eq_true_eq, compareVersions_neg, compareVersions_pos]
      unfold Version.Before at hlohi ⊢
      constructor
      · rintro ⟨hlo, hhi⟩
        by_cases hmajor : lo.major = major
        · exact ⟨lo.minor, lo.patch, by dsimp only; omega⟩
        · exact ⟨0, 0, by dsimp only at hlo hhi ⊢; omega⟩
      · rintro ⟨minor, patch, hlo, hhi⟩
        dsimp only at hlo hhi ⊢
        omega
    · rw [if_pos (by simpa [hge] using hlohi)]
      unfold Version.Before at hlohi ⊢
      constructor
      · exact fun h => absurd h Bool.false_ne_true
      · rintro ⟨minor, patch, hlo, hhi⟩
        dsimp only at hlo hhi
        omega

theorem rangeAllowsMajor_iff {r : Text} {range : NodeVersionRange}
    (h : parseNodeVersionRange r = some range) (major : ℕ) :
    rangeAllowsMajor range major = true ↔ AllowsSeries r major := by
  unfold parseNodeVersionRange at h
  split_ifs at h
  obtain ⟨intervals, hintervals, rfl⟩ := Option.map_eq_some_iff.1 h
  have hcongr := exists_mem_congr (forall₂_of_mapM_some hintervals)
    (p := fun alternative => ∃ minor patch, Version.SatisfiesAll ⟨major, minor, patch⟩ alternative)
    (q := fun i => ∃ minor patch, (⟨major, minor, patch⟩ : Version) ∈ i)
    fun alternative i heq => by simp only [mem_alternativeInterval heq]
  rw [rangeAllowsMajor, any_eq_true]
  simp only [overlaps_iff, hcongr]
  constructor
  · rintro ⟨alternative, halternative, minor, patch, hv⟩
    exact ⟨minor, patch, alternative, halternative, hv⟩
  · rintro ⟨minor, patch, alternative, halternative, hv⟩
    exact ⟨alternative, halternative, minor, patch, hv⟩

/-- The number is one of the offered series. -/
def Offers (offered : List Text) (major : ℕ) : Prop :=
  ∃ series ∈ offered, isDigits series = true ∧ ofDigits 10 series = major

theorem find_eq_some_iff_isGreatest {p : ℕ → Bool} {l : List ℕ} (hl : l.Pairwise (· ≥ ·)) {n : ℕ} :
    l.find? p = some n ↔ IsGreatest {m | m ∈ l ∧ p m = true} n := by
  constructor
  · intro h
    obtain ⟨hn, before, after, rfl, hbefore⟩ := find?_eq_some_iff_append.1 h
    refine ⟨⟨by simp, hn⟩, fun m hm => ?_⟩
    obtain ⟨hmem, hm⟩ := hm
    rcases mem_append.1 hmem with hmem | hmem
    · exact absurd (hbefore m hmem) (by simp [hm])
    · rcases mem_cons.1 hmem with rfl | hmem
      · exact le_rfl
      · exact rel_of_pairwise_cons (pairwise_append.1 hl).2.1 hmem
  · rintro ⟨⟨hmem, hn⟩, hgreatest⟩
    cases hfind : l.find? p with
    | none => exact absurd hn (find?_eq_none.1 hfind n hmem)
    | some m =>
      obtain ⟨hm, before, after, rfl, hbefore⟩ := find?_eq_some_iff_append.1 hfind
      have hle : m ≤ n := hgreatest ⟨by simp, hm⟩
      rcases mem_append.1 hmem with hmem | hmem
      · exact absurd (hbefore n hmem) (by simp [hn])
      · rcases mem_cons.1 hmem with rfl | hmem
        · rfl
        · rw [le_antisymm hle (rel_of_pairwise_cons (pairwise_append.1 hl).2.1 hmem)]

/-- The offered majors in the order they are tried. -/
def majorsOf (offered : List Text) : List ℕ :=
  ((offered.filter isDigits).map (ofDigits 10)).mergeSort fun a b => b ≤ a

theorem pairwise_majorsOf (offered : List Text) : (majorsOf offered).Pairwise (· ≥ ·) := by
  have h := @List.pairwise_mergeSort ℕ (fun a b => decide (b ≤ a)) ?_ ?_
    ((offered.filter isDigits).map (ofDigits 10))
  · exact h.imp fun hle => of_decide_eq_true hle
  · intro a b c hab hbc
    simp only [decide_eq_true_eq] at hab hbc ⊢
    omega
  · intro a b
    simp only [Bool.or_eq_true, decide_eq_true_eq]
    omega

theorem mem_majorsOf {offered : List Text} {n : ℕ} : n ∈ majorsOf offered ↔ Offers offered n := by
  rw [majorsOf, mem_mergeSort, mem_map]
  simp only [mem_filter, and_assoc]
  rfl

/-- **What a range reads as**: it allows the series with a release that satisfies all comparators of
one of its alternatives, and the newest of the offered ones is the greatest of these. -/
theorem nodeVersionRange_reads {r : Text} {range : NodeVersionRange}
    (h : parseNodeVersionRange r = some range) :
    (∀ major, rangeAllowsMajor range major = true ↔ AllowsSeries r major) ∧
      ∀ offered : List Text,
        (∀ series, newestAllowedSeries range offered = some series ↔
          ∃ major, IsGreatest {n | Offers offered n ∧ AllowsSeries r n} major ∧
            series = Nat.toDigits 10 major) ∧
        (newestAllowedSeries range offered = none ↔
          ∀ n, Offers offered n → ¬AllowsSeries r n) := by
  refine ⟨rangeAllowsMajor_iff h, fun offered => ?_⟩
  have hset : {n | Offers offered n ∧ AllowsSeries r n} =
      {n | n ∈ majorsOf offered ∧ rangeAllowsMajor range n = true} := by
    ext n
    rw [Set.mem_ofPred_eq, Set.mem_ofPred_eq, mem_majorsOf, rangeAllowsMajor_iff h]
  have hnewest : newestAllowedSeries range offered =
      ((majorsOf offered).find? (rangeAllowsMajor range)).map (Nat.toDigits 10) := rfl
  constructor
  · intro series
    rw [hnewest, Option.map_eq_some_iff, hset]
    simp only [find_eq_some_iff_isGreatest (pairwise_majorsOf offered), eq_comm]
  · rw [hnewest, Option.map_eq_none_iff, find?_eq_none]
    simp only [mem_majorsOf, rangeAllowsMajor_iff h]

theorem twoAlternatives_read :
    parseNodeVersionRange ">=20.5 <21 || ^22.1".toList =
        some ⟨[⟨⟨20, 5, 0⟩, some ⟨21, 0, 0⟩⟩, ⟨⟨22, 1, 0⟩, some ⟨23, 0, 0⟩⟩]⟩ ∧
      ∀ major, rangeAllowsMajor
          ⟨[⟨⟨20, 5, 0⟩, some ⟨21, 0, 0⟩⟩, ⟨⟨22, 1, 0⟩, some ⟨23, 0, 0⟩⟩]⟩ major = true ↔
        AllowsSeries ">=20.5 <21 || ^22.1".toList major := by
  have h : parseNodeVersionRange ">=20.5 <21 || ^22.1".toList =
      some ⟨[⟨⟨20, 5, 0⟩, some ⟨21, 0, 0⟩⟩, ⟨⟨22, 1, 0⟩, some ⟨23, 0, 0⟩⟩]⟩ := rfl
  exact ⟨h, (nodeVersionRange_reads h).1⟩

end TurboPanel.Deploy.NodeRange
