import Mathlib.Data.Char
import Mathlib.Data.List.Lex
import Mathlib.Data.Prod.Lex
import Mathlib.Data.Sum.Order
import Mathlib.Order.Compare
import TurboPanel.Js.Number
import TurboPanel.Js.Text

/-!
# Versions and downgrades

The model of `parseSemver` and `compareSemver` of `src/lib/version-wire.ts` and of `isDowngrade` of
`src/features/upgrades/target.ts`. The precedence of versions is a linear order of keys: numbers,
then release before label, then the labels identifier by identifier. `compareSemver` compares the
keys (`compares_compareSemver`), and a downgrade goes to a smaller key of another kind, base version
first and build time second (`isDowngrade_iff`).
-/

namespace TurboPanel.Upgrades

open Js List

/-! ## Parsing -/

/-- The groups of `SEMVER_RE`. -/
structure SemverGroups where
  major : Text
  minor : Text
  patch : Text
  prerelease : List Text
  deriving DecidableEq

/-- `(\d+)\.`, and what is left. -/
def digitsDot (t : Text) : Option (Text × Text) :=
  let digits := t.takeWhile (isDigitOf 10)
  match t.dropWhile (isDigitOf 10) with
  | '.' :: rest => if digits = [] then none else some (digits, rest)
  | _ => none

/-- `[0-9A-Za-z.-]`. -/
def isLabelChar (c : Char) : Bool := isDigitOf 10 c || c.isAlpha || c == '.' || c == '-'

/-- `(?:\+[0-9A-Za-z.-]+)?$`. -/
def isBuildEnd : Text → Bool
  | [] => true
  | c :: build => c == '+' && !build.isEmpty && build.all isLabelChar

/-- `SEMVER_RE.exec`. No other way to match is left where this one fails. -/
def execSemver (t : Text) : Option SemverGroups := do
  let (major, t) ← digitsDot t
  let (minor, t) ← digitsDot t
  let patch := t.takeWhile (isDigitOf 10)
  if patch = [] then none
  match t.dropWhile (isDigitOf 10) with
  | '-' :: t =>
    let label := t.takeWhile isLabelChar
    if label ≠ [] ∧ isBuildEnd (t.dropWhile isLabelChar) then some ⟨major, minor, patch, label.splitOn '.'⟩
    else none
  | t => if isBuildEnd t then some ⟨major, minor, patch, []⟩ else none

/-- The groups that `parseSemver` reads. -/
def semverGroups (value : Option Text) : Option SemverGroups := do
  let trimmed := trim (← value)
  if trimmed = [] then none
  else execSemver (if trimmed.head? = some 'v' then trimmed.tail else trimmed)

structure ParsedSemver where
  major : Number
  minor : Number
  patch : Number
  prerelease : List Text

/-- `Number(digits)`. -/
def numberOf (digits : Text) : Number := .ofNat (ofDigits 10 digits)

def SemverGroups.parsed (g : SemverGroups) : ParsedSemver :=
  ⟨numberOf g.major, numberOf g.minor, numberOf g.patch, g.prerelease⟩

def parseSemver (value : Option Text) : Option ParsedSemver := (semverGroups value).map SemverGroups.parsed

/-! ## Comparing -/

def compareIdentifiers (a b : Text) : Number :=
  let na := isDecimal a
  let nb := isDecimal b
  if na && nb then .sub (numberOf a) (numberOf b)
  else if na then .finite (-1)
  else if nb then .finite 1
  else if a < b then .finite (-1)
  else if b < a then .finite 1
  else .finite 0

/-- The first difference of two labels, or that of their lengths. -/
def comparePrerelease (a b : List Text) : Number :=
  (((a.zip b).map fun p => compareIdentifiers p.1 p.2).find? (· ≠ .finite 0)).getD
    (.finite (a.length - b.length))

def compareSemver (a b : ParsedSemver) : Number :=
  if a.major ≠ b.major then .sub a.major b.major
  else if a.minor ≠ b.minor then .sub a.minor b.minor
  else if a.patch ≠ b.patch then .sub a.patch b.patch
  else if a.prerelease.length = 0 ∧ b.prerelease.length = 0 then .finite 0
  else if a.prerelease.length = 0 then .finite 1
  else if b.prerelease.length = 0 then .finite (-1)
  else comparePrerelease a.prerelease b.prerelease

/-- A version and a build time, as a host or a target reports them. -/
structure Build where
  version : Option Text
  builtAt : Option Text

section

variable (dateParse : Text → Number)

/-- Installing the target over what is installed goes back to an older build; `dateParse` is
`Date.parse`. -/
def isDowngrade (installed target : Build) : Bool :=
  match parseSemver installed.version, parseSemver target.version with
  | some have', some want =>
    let base := compareSemver { want with prerelease := [] } { have' with prerelease := [] }
    if base ≠ .finite 0 then Number.above 0 base
    else
      match dateParse (installed.builtAt.getD []), dateParse (target.builtAt.getD []) with
      | .finite installedAt, .finite targetAt => decide (targetAt < installedAt)
      | _, _ => false
  | _, _ => false

end

example : (parseSemver (some " v1.2.3-rc.1+7 ".toList)).map (·.prerelease) =
    some ["rc".toList, "1".toList] := by decide

/-! ## Precedence -/

/-- A comparison came out as the order of two keys. -/
def Compares {α : Type*} [LT α] (c : Number) (x y : α) : Prop := ∃ o, c.ordering? = some o ∧ o.Compares x y

theorem ordering?_finite (q : ℚ) : ∃ o, (Number.finite q).ordering? = some o ∧ o.Compares q 0 := by
  rw [Number.ordering?]
  rcases lt_trichotomy q 0 with h | h | h
  · exact ⟨.lt, by rw [if_pos h], h⟩
  · exact ⟨.eq, by rw [if_neg h.not_lt, if_pos h], h⟩
  · exact ⟨.gt, by rw [if_neg h.not_gt, if_neg h.ne'], h⟩

theorem compares_lt {α : Type*} [LT α] {x y : α} (h : x < y) : Compares (.finite (-1)) x y := ⟨.lt, rfl, h⟩

theorem compares_gt {α : Type*} [LT α] {x y : α} (h : y < x) : Compares (.finite 1) x y := ⟨.gt, rfl, h⟩

theorem compares_eq {α : Type*} [LT α] (x : α) : Compares (.finite 0) x x := ⟨.eq, rfl, rfl⟩

theorem compares_sub (x y : ℕ) : Compares (.finite ((x : ℚ) - y)) x y := by
  obtain ⟨o, ho, hcompares⟩ := ordering?_finite ((x : ℚ) - y)
  refine ⟨o, ho, ?_⟩
  cases o with
  | lt => exact Nat.cast_lt.1 (sub_neg.1 hcompares)
  | eq => exact Nat.cast_injective (sub_eq_zero.1 hcompares)
  | gt => exact Nat.cast_lt.1 (sub_pos.1 hcompares)

variable {c : Number}

theorem Compares.map {α β : Type*} [Preorder α] [Preorder β] {f : α → β} (hf : StrictMono f) {x y : α}
    (h : Compares c x y) : Compares c (f x) (f y) := by
  obtain ⟨o, ho, hcompares⟩ := h
  refine ⟨o, ho, ?_⟩
  cases o with
  | lt => exact hf hcompares
  | eq => exact congrArg f hcompares
  | gt => exact hf hcompares

theorem Compares.eq_iff {α : Type*} [Preorder α] {x y : α} (h : Compares c x y) :
    c = .finite 0 ↔ x = y := by
  obtain ⟨o, ho, hcompares⟩ := h
  constructor
  · rintro rfl
    obtain rfl : Ordering.eq = o := Option.some.inj ho
    exact hcompares
  · intro hxy
    obtain rfl := hcompares.eq_eq.2 hxy
    cases c with
    | finite q =>
      rw [Number.ordering?] at ho
      split_ifs at ho with hneg hzero
      · cases ho
      · rw [hzero]
      · cases ho
    | posInf => cases ho
    | negInf => cases ho
    | nan => cases ho

theorem Compares.above_iff {α : Type*} [Preorder α] {x y : α} (h : Compares c x y) :
    Number.above 0 c = true ↔ x < y := by
  obtain ⟨o, ho, hcompares⟩ := h
  rw [← hcompares.eq_lt]
  cases c with
  | finite q =>
    rw [Number.ordering?] at ho
    rw [Number.above, decide_eq_true_eq, Int.cast_zero]
    split_ifs at ho with hneg hzero
    · exact iff_of_true hneg (Option.some.inj ho).symm
    · cases ho
      exact iff_of_false hneg (by decide)
    · cases ho
      exact iff_of_false hneg (by decide)
  | posInf =>
    obtain rfl : Ordering.gt = o := Option.some.inj ho
    exact iff_of_false Bool.false_ne_true (by decide)
  | negInf =>
    obtain rfl : Ordering.lt = o := Option.some.inj ho
    exact iff_of_true rfl rfl
  | nan => cases ho

theorem compares_toLex {α β : Type*} [LinearOrder α] [Preorder β] {x y : α} {k l : β} {p : Number} {P : Prop}
    [Decidable P] (hP : P ↔ x ≠ y) (hp : x ≠ y → Compares p x y) (hc : x = y → Compares c k l) :
    Compares (if P then p else c) (toLex (x, k)) (toLex (y, l)) := by
  by_cases hxy : x = y
  · rw [if_neg (not_not.2 hxy ∘ hP.1)]
    subst hxy
    refine (hc rfl).map (f := fun k => toLex (x, k)) fun k l hkl => ?_
    show toLex (x, k) < toLex (x, l)
    exact Prod.Lex.toLex_lt_toLex.2 (.inr ⟨rfl, hkl⟩)
  · rw [if_pos (hP.2 hxy)]
    obtain ⟨o, ho, hcompares⟩ := hp hxy
    refine ⟨o, ho, ?_⟩
    cases o with
    | lt => exact Prod.Lex.toLex_lt_toLex.2 (.inl hcompares)
    | eq => exact absurd hcompares hxy
    | gt => exact Prod.Lex.toLex_lt_toLex.2 (.inl hcompares)

theorem strictMono_cons {α : Type*} [LinearOrder α] :
    StrictMono fun p : α ×ₗ List α => (ofLex p).1 :: (ofLex p).2 := by
  intro p q hpq
  rcases Prod.Lex.lt_iff.1 hpq with h | ⟨h, htail⟩
  · exact .rel h
  · dsimp only
    rw [h]
    exact .cons htail

/-- The keys of two numbers tell them apart and order them. -/
structure KeyedBy {α : Type*} [LT α] (x y : Number) (i j : α) : Prop where
  eq_iff : x = y ↔ i = j
  sub : i ≠ j → Compares (.sub x y) i j

theorem compares_compareSemver {α β : Type*} [LinearOrder α] [Preorder β] {a b : ParsedSemver}
    {i₁ i₂ i₃ j₁ j₂ j₃ : α} {k l : β} (h₁ : KeyedBy a.major b.major i₁ j₁) (h₂ : KeyedBy a.minor b.minor i₂ j₂)
    (h₃ : KeyedBy a.patch b.patch i₃ j₃)
    (hlabel : Compares (if a.prerelease.length = 0 ∧ b.prerelease.length = 0 then .finite 0
      else if a.prerelease.length = 0 then .finite 1
      else if b.prerelease.length = 0 then .finite (-1)
      else comparePrerelease a.prerelease b.prerelease) k l) :
    Compares (compareSemver a b) (toLex (i₁, toLex (i₂, toLex (i₃, k)))) (toLex (j₁, toLex (j₂, toLex (j₃, l)))) := by
  rw [compareSemver]
  refine compares_toLex h₁.eq_iff.not h₁.sub fun _ => ?_
  refine compares_toLex h₂.eq_iff.not h₂.sub fun _ => ?_
  exact compares_toLex h₃.eq_iff.not h₃.sub fun _ => hlabel

/-! ## Labels -/

/-- What semver compares of an identifier: a number, or a text, which is above every number. -/
abbrev Identifier := ℕ ⊕ₗ Text

def identifier (t : Text) : Identifier := if isDecimal t then toLex (.inl (ofDigits 10 t)) else toLex (.inr t)

/-- `Number` reads the digits without rounding. -/
def IsExact (digits : Text) : Prop := numberOf digits = .finite (ofDigits 10 digits)

instance (digits : Text) : Decidable (IsExact digits) := inferInstanceAs (Decidable (_ = _))

theorem compares_compareIdentifiers {a b : Text} (ha : isDecimal a = true → IsExact a)
    (hb : isDecimal b = true → IsExact b) : Compares (compareIdentifiers a b) (identifier a) (identifier b) := by
  rw [compareIdentifiers, identifier, identifier]
  cases hna : isDecimal a <;> cases hnb : isDecimal b
  · simp only [Bool.and_self, Bool.false_eq_true, if_false]
    rcases lt_trichotomy a b with h | rfl | h
    · rw [if_pos h]
      exact compares_lt (Sum.Lex.inr_lt_inr_iff.2 h)
    · rw [if_neg (lt_irrefl a), if_neg (lt_irrefl a)]
      exact compares_eq _
    · rw [if_neg h.not_gt, if_pos h]
      exact compares_gt (Sum.Lex.inr_lt_inr_iff.2 h)
  · exact compares_gt (Sum.Lex.inl_lt_inr _ _)
  · exact compares_lt (Sum.Lex.inl_lt_inr _ _)
  · simp only [Bool.and_self, if_true]
    rw [ha hna, hb hnb]
    exact (compares_sub _ _).map Sum.Lex.inl_strictMono

theorem comparePrerelease_cons (s t : Text) (a b : List Text) :
    comparePrerelease (s :: a) (t :: b) =
      if compareIdentifiers s t ≠ .finite 0 then compareIdentifiers s t else comparePrerelease a b := by
  rw [comparePrerelease, zip_cons_cons, map_cons]
  by_cases h : compareIdentifiers s t = .finite 0
  · rw [find?_cons_of_neg (by simpa using h), if_neg (not_not.2 h), comparePrerelease, length_cons,
      length_cons, Nat.cast_succ, Nat.cast_succ, add_sub_add_right_eq_sub]
  · rw [find?_cons_of_pos (by simpa using h), if_pos h, Option.getD_some]

theorem compares_comparePrerelease {a b : List Text} (ha : ∀ t ∈ a, isDecimal t = true → IsExact t)
    (hb : ∀ t ∈ b, isDecimal t = true → IsExact t) :
    Compares (comparePrerelease a b) (a.map identifier) (b.map identifier) := by
  induction a generalizing b with
  | nil =>
    obtain ⟨o, ho, hcompares⟩ := compares_sub 0 b.length
    refine ⟨o, ho, ?_⟩
    cases b with
    | nil =>
      obtain rfl := hcompares.eq_eq.2 rfl
      rfl
    | cons t b =>
      obtain rfl := hcompares.eq_lt.2 (Nat.succ_pos b.length)
      exact List.Lex.nil
  | cons s a ih =>
    cases b with
    | nil =>
      obtain ⟨o, ho, hcompares⟩ := compares_sub (s :: a).length 0
      obtain rfl := hcompares.eq_gt.2 (Nat.succ_pos a.length)
      exact ⟨.gt, ho, List.Lex.nil⟩
    | cons t b =>
      have hhead := compares_compareIdentifiers (ha s mem_cons_self) (hb t mem_cons_self)
      rw [comparePrerelease_cons, map_cons, map_cons]
      exact (compares_toLex hhead.eq_iff.not (fun _ => hhead) fun _ =>
        ih (fun t ht => ha t (mem_cons_of_mem _ ht)) fun t ht => hb t (mem_cons_of_mem _ ht)).map
          strictMono_cons

/-! ## The order of versions -/

/-- The precedence of a version: its numbers, then a release above every label of it. -/
def SemverGroups.precedence (g : SemverGroups) : ℕ ×ₗ ℕ ×ₗ ℕ ×ₗ WithTop (List Identifier) :=
  toLex (ofDigits 10 g.major, toLex (ofDigits 10 g.minor, toLex (ofDigits 10 g.patch,
    if g.prerelease = [] then ⊤ else ↑(g.prerelease.map identifier))))

/-- Every number in a version is read without rounding. -/
structure SemverGroups.IsExact (g : SemverGroups) : Prop where
  major : Upgrades.IsExact g.major
  minor : Upgrades.IsExact g.minor
  patch : Upgrades.IsExact g.patch
  prerelease : ∀ t ∈ g.prerelease, isDecimal t = true → Upgrades.IsExact t

theorem keyedBy_of_isExact {x y : Text} (hx : IsExact x) (hy : IsExact y) :
    KeyedBy (numberOf x) (numberOf y) (ofDigits 10 x) (ofDigits 10 y) := by
  have hx' : numberOf x = .finite (ofDigits 10 x) := hx
  have hy' : numberOf y = .finite (ofDigits 10 y) := hy
  rw [hx', hy']
  refine ⟨⟨fun h => ?_, fun h => by rw [h]⟩, fun _ => compares_sub _ _⟩
  exact Nat.cast_injective (Number.finite.inj h)

/-- **`compareSemver` compares by precedence.** -/
theorem compares_parsed {g h : SemverGroups} (hg : g.IsExact) (hh : h.IsExact) :
    Compares (compareSemver g.parsed h.parsed) g.precedence h.precedence := by
  refine compares_compareSemver (keyedBy_of_isExact (x := g.major) (y := h.major) hg.major hh.major)
    (keyedBy_of_isExact (x := g.minor) (y := h.minor) hg.minor hh.minor)
    (keyedBy_of_isExact (x := g.patch) (y := h.patch) hg.patch hh.patch) ?_
  simp only [SemverGroups.parsed, length_eq_zero_iff]
  by_cases hgp : g.prerelease = [] <;> by_cases hhp : h.prerelease = []
  · rw [if_pos ⟨hgp, hhp⟩, if_pos hgp, if_pos hhp]
    exact compares_eq _
  · rw [if_neg fun h => hhp h.2, if_pos hgp, if_pos hgp, if_neg hhp]
    exact compares_gt (WithTop.coe_lt_top _)
  · rw [if_neg fun h => hgp h.1, if_neg hgp, if_pos hhp, if_neg hgp, if_pos hhp]
    exact compares_lt (WithTop.coe_lt_top _)
  · rw [if_neg fun h => hgp h.1, if_neg hgp, if_neg hhp, if_neg hgp, if_neg hhp]
    exact (compares_comparePrerelease hg.prerelease hh.prerelease).map WithTop.coe_strictMono

/-! ## Downgrades -/

/-- A number that digits are read as, on a line with `Infinity` at its end. -/
def amount : Number → WithTop ℚ
  | .finite q => q
  | _ => ⊤

theorem ofNat_cases (n : ℕ) : (∃ q, Number.ofNat n = .finite q) ∨ Number.ofNat n = .posInf := by
  unfold Number.ofNat
  extract_lets _ _ _ _ rounded
  by_cases h : rounded < 2 ^ 1024
  · exact .inl ⟨rounded, if_pos h⟩
  · exact .inr (if_neg h)

theorem keyedBy_amount (x y : Text) :
    KeyedBy (numberOf x) (numberOf y) (amount (numberOf x)) (amount (numberOf y)) := by
  rcases ofNat_cases (ofDigits 10 x) with ⟨p, hp⟩ | hp <;> rcases ofNat_cases (ofDigits 10 y) with ⟨q, hq⟩ | hq <;>
    rw [numberOf, numberOf, hp, hq]
  · refine ⟨⟨congrArg amount, fun h => congrArg Number.finite (WithTop.coe_injective h)⟩, fun _ => ?_⟩
    obtain ⟨o, ho, hcompares⟩ := ordering?_finite (p - q)
    refine ⟨o, ho, ?_⟩
    cases o with
    | lt => exact WithTop.coe_lt_coe.2 (sub_neg.1 hcompares)
    | eq => exact congrArg amount (congrArg Number.finite (sub_eq_zero.1 hcompares))
    | gt => exact WithTop.coe_lt_coe.2 (sub_pos.1 hcompares)
  · exact ⟨⟨congrArg amount, fun h => absurd h (WithTop.coe_ne_top)⟩, fun _ => ⟨.lt, rfl, WithTop.coe_lt_top p⟩⟩
  · exact ⟨⟨congrArg amount, fun h => absurd h.symm (WithTop.coe_ne_top)⟩, fun _ => ⟨.gt, rfl, WithTop.coe_lt_top q⟩⟩
  · exact ⟨iff_of_true rfl rfl, fun h => absurd rfl h⟩

/-- How new a build is: its base version, and then when it was built. -/
def buildAge (g : SemverGroups) (builtAt : ℚ) : WithTop ℚ ×ₗ WithTop ℚ ×ₗ WithTop ℚ ×ₗ ℚ :=
  toLex (amount (numberOf g.major), toLex (amount (numberOf g.minor), toLex (amount (numberOf g.patch), builtAt)))

section

variable (dateParse : Text → Number)

/-- A build whose version parses and whose build time is known. -/
structure IsKnown (b : Build) (g : SemverGroups) (builtAt : ℚ) : Prop where
  version : semverGroups b.version = some g
  builtAt : dateParse (b.builtAt.getD []) = .finite builtAt

variable {x : Build}

/-- **A downgrade is to an older build.** -/
theorem isDowngrade_iff {y : Build} {g h : SemverGroups} {s t : ℚ} (hx : IsKnown dateParse x g s)
    (hy : IsKnown dateParse y h t) : isDowngrade dateParse x y = true ↔ buildAge h t < buildAge g s := by
  have hbase : Compares (compareSemver { h.parsed with prerelease := [] } { g.parsed with prerelease := [] }) _ _ :=
    compares_compareSemver (keyedBy_amount h.major g.major) (keyedBy_amount h.minor g.minor)
      (keyedBy_amount h.patch g.patch) (compares_eq ())
  have hage : buildAge h t < buildAge g s ↔
      toLex (amount (numberOf h.major), toLex (amount (numberOf h.minor), toLex (amount (numberOf h.patch), ()))) <
        toLex (amount (numberOf g.major), toLex (amount (numberOf g.minor), toLex (amount (numberOf g.patch), ()))) ∨
      toLex (amount (numberOf h.major), toLex (amount (numberOf h.minor), toLex (amount (numberOf h.patch), ()))) =
        toLex (amount (numberOf g.major), toLex (amount (numberOf g.minor), toLex (amount (numberOf g.patch), ()))) ∧
        t < s := by
    simp only [buildAge, Prod.Lex.toLex_lt_toLex, toLex_inj, Prod.mk.injEq, lt_self_iff_false]
    tauto
  have hparse : ∀ {b : Build} {g : SemverGroups} {s : ℚ}, IsKnown dateParse b g s →
      parseSemver b.version = some g.parsed := fun hb => by rw [parseSemver, hb.version, Option.map_some]
  rw [isDowngrade, hparse hx, hparse hy, hage]
  dsimp only
  by_cases hzero : compareSemver { h.parsed with prerelease := [] } { g.parsed with prerelease := [] } = .finite 0
  · rw [if_neg (not_not.2 hzero), hx.builtAt, hy.builtAt, ← hbase.eq_iff.1 hzero]
    simp only [decide_eq_true_eq, lt_self_iff_false, false_or, true_and]
  · rw [if_pos hzero, hbase.above_iff]
    exact ⟨.inl, fun h => h.resolve_right fun h => hzero (hbase.eq_iff.2 h.1)⟩

theorem isDowngrade_eq_false_iff {y : Build} {g h : SemverGroups} {s t : ℚ} (hx : IsKnown dateParse x g s)
    (hy : IsKnown dateParse y h t) : isDowngrade dateParse x y = false ↔ buildAge g s ≤ buildAge h t := by
  rw [← Bool.not_eq_true, isDowngrade_iff dateParse hx hy, not_lt]

/-- A build that is known. -/
def Known (b : Build) : Prop := ∃ g builtAt, IsKnown dateParse b g builtAt

theorem isStrictWeakOrder_isDowngrade :
    IsStrictWeakOrder {b // Known dateParse b} fun x y => isDowngrade dateParse x y = true := by
  refine { irrefl := ?_, trans := ?_, incomp_trans := ?_ }
  · rintro ⟨x, g, s, hx⟩ h
    exact lt_irrefl _ ((isDowngrade_iff dateParse hx hx).1 h)
  · rintro ⟨x, g, s, hx⟩ ⟨y, h, t, hy⟩ ⟨z, i, u, hz⟩ hxy hyz
    exact (isDowngrade_iff dateParse hx hz).2
      (((isDowngrade_iff dateParse hy hz).1 hyz).trans ((isDowngrade_iff dateParse hx hy).1 hxy))
  · rintro ⟨x, g, s, hx⟩ ⟨y, h, t, hy⟩ ⟨z, i, u, hz⟩
    simp only [isDowngrade_iff dateParse hx hy, isDowngrade_iff dateParse hy hx, isDowngrade_iff dateParse hy hz,
      isDowngrade_iff dateParse hz hy, isDowngrade_iff dateParse hx hz, isDowngrade_iff dateParse hz hx, not_lt]
    rintro ⟨hxy, hyx⟩ ⟨hyz, hzy⟩
    exact ⟨hxy.trans hyz, hzy.trans hyx⟩

theorem isDowngrade_last_of_chain {l : List Build} (hknown : ∀ b ∈ x :: l, Known dateParse b)
    (hchain : (x :: l).IsChain fun x y => isDowngrade dateParse x y = false) :
    isDowngrade dateParse x ((x :: l).getLast (cons_ne_nil x l)) = false := by
  induction l generalizing x with
  | nil =>
    obtain ⟨g, s, hx⟩ := hknown x mem_cons_self
    exact (isDowngrade_eq_false_iff dateParse hx hx).2 le_rfl
  | cons y l ih =>
    obtain ⟨hxy, hchain⟩ := isChain_cons_cons.1 hchain
    have hrest := ih (fun b hb => hknown b (mem_cons_of_mem _ hb)) hchain
    rw [getLast_cons (cons_ne_nil y l)]
    obtain ⟨g, s, hx⟩ := hknown x mem_cons_self
    obtain ⟨h, t, hy⟩ := hknown y (mem_cons_of_mem _ mem_cons_self)
    obtain ⟨i, u, hz⟩ := hknown ((y :: l).getLast (cons_ne_nil y l))
      (mem_cons_of_mem _ (getLast_mem _))
    exact (isDowngrade_eq_false_iff dateParse hx hz).2
      (((isDowngrade_eq_false_iff dateParse hx hy).1 hxy).trans
        ((isDowngrade_eq_false_iff dateParse hy hz).1 hrest))

end

/-- A version text whose numbers are read without rounding, and the parts it is read as. -/
def Reads (value : Option Text) (g : SemverGroups) : Prop := semverGroups value = some g ∧ g.IsExact

/-- `c <= 0`. -/
def AtMostZero (c : Number) : Prop := ∃ o, c.ordering? = some o ∧ o ≠ .gt

theorem Compares.atMostZero_iff {α : Type*} [LinearOrder α] {x y : α} (h : Compares c x y) :
    AtMostZero c ↔ x ≤ y := by
  obtain ⟨o, ho, hcompares⟩ := h
  rw [← hcompares.ne_gt]
  constructor
  · rintro ⟨o', ho', hle⟩
    cases ho.symm.trans ho'
    exact hle
  · exact fun hle => ⟨o, ho, hle⟩

theorem Compares.swap {α : Type*} [LinearOrder α] {d : Number} {x y : α} (h : Compares c x y) (h' : Compares d y x) :
    d.ordering? = c.ordering?.map Ordering.swap := by
  obtain ⟨o, ho, hcompares⟩ := h
  obtain ⟨o', ho', hcompares'⟩ := h'
  rw [ho, ho', Option.map_some, hcompares'.inj (Ordering.compares_swap.2 hcompares)]

/-- **Versions and the downgrade guard have one order**: `compareSemver` is the precedence of
semver, a total preorder, and a downgrade is a strict weak order in which no accepted installs go
back. -/
theorem versions_ordered (dateParse : Text → Number) :
    (∀ v w g h, Reads v g → Reads w h →
      parseSemver v = some g.parsed ∧
      Compares (compareSemver g.parsed h.parsed) g.precedence h.precedence ∧
      (compareSemver h.parsed g.parsed).ordering? =
        (compareSemver g.parsed h.parsed).ordering?.map Ordering.swap ∧
      (AtMostZero (compareSemver g.parsed h.parsed) ∨ AtMostZero (compareSemver h.parsed g.parsed)) ∧
      ∀ u i, Reads u i → AtMostZero (compareSemver g.parsed h.parsed) →
        AtMostZero (compareSemver h.parsed i.parsed) → AtMostZero (compareSemver g.parsed i.parsed)) ∧
    IsStrictWeakOrder {b // Known dateParse b} (fun x y => isDowngrade dateParse x y = true) ∧
    (∀ x y, Known dateParse x → Known dateParse y → isDowngrade dateParse x y = true →
      isDowngrade dateParse y x = false) ∧
    ∀ x l, (∀ b ∈ x :: l, Known dateParse b) →
      (x :: l).IsChain (fun x y => isDowngrade dateParse x y = false) →
        isDowngrade dateParse x ((x :: l).getLast (cons_ne_nil x l)) = false := by
  refine ⟨?_, isStrictWeakOrder_isDowngrade dateParse, ?_, fun x l => isDowngrade_last_of_chain dateParse⟩
  · rintro v w g h ⟨hv, hg⟩ ⟨hw, hh⟩
    have hgh := compares_parsed hg hh
    have hhg := compares_parsed hh hg
    refine ⟨by rw [parseSemver, hv, Option.map_some], hgh, hgh.swap hhg, ?_, ?_⟩
    · rw [hgh.atMostZero_iff, hhg.atMostZero_iff]
      exact le_total _ _
    · rintro u i ⟨-, hi⟩
      rw [hgh.atMostZero_iff, (compares_parsed hh hi).atMostZero_iff, (compares_parsed hg hi).atMostZero_iff]
      exact le_trans
  · rintro x y ⟨g, s, hx⟩ ⟨h, t, hy⟩ hxy
    rw [isDowngrade_eq_false_iff dateParse hy hx]
    exact ((isDowngrade_iff dateParse hx hy).1 hxy).le

/-- `Date.parse`, of two dates. -/
def parseTwoDates (text : Text) : Number :=
  if text = "2026-01-01T00:00:00Z".toList then .finite 1767225600000
  else if text = "2026-02-01T00:00:00Z".toList then .finite 1769904000000
  else .nan

theorem candidate_and_release :
    Compares (compareSemver (SemverGroups.mk "1".toList "2".toList "3".toList ["rc".toList, "2".toList]).parsed
      (SemverGroups.mk "1".toList "2".toList "3".toList []).parsed)
      (SemverGroups.mk "1".toList "2".toList "3".toList ["rc".toList, "2".toList]).precedence
      (SemverGroups.mk "1".toList "2".toList "3".toList []).precedence ∧
    isDowngrade parseTwoDates ⟨some "1.2.3-rc.2".toList, some "2026-01-01T00:00:00Z".toList⟩
      ⟨some "1.2.3".toList, some "2026-02-01T00:00:00Z".toList⟩ = false := by
  have hcandidate : Reads (some "1.2.3-rc.2".toList) ⟨"1".toList, "2".toList, "3".toList, ["rc".toList, "2".toList]⟩ :=
    ⟨by decide, ⟨by decide +kernel, by decide +kernel, by decide +kernel, by decide +kernel⟩⟩
  have hrelease : Reads (some "v1.2.3".toList) ⟨"1".toList, "2".toList, "3".toList, []⟩ :=
    ⟨by decide, ⟨by decide +kernel, by decide +kernel, by decide +kernel, by decide +kernel⟩⟩
  refine ⟨((versions_ordered parseTwoDates).1 _ _ _ _ hcandidate hrelease).2.1, ?_⟩
  exact (versions_ordered parseTwoDates).2.2.1 ⟨some "1.2.3".toList, some "2026-02-01T00:00:00Z".toList⟩ _
    ⟨⟨"1".toList, "2".toList, "3".toList, []⟩, 1769904000000, by decide, by decide +kernel⟩
    ⟨⟨"1".toList, "2".toList, "3".toList, ["rc".toList, "2".toList]⟩, 1767225600000, by decide, by decide +kernel⟩
    (by decide +kernel)

end TurboPanel.Upgrades
