import TurboPanel.Js.Map
import TurboPanel.Data.Traversal
import TurboPanel.Deploy.Cron
import TurboPanel.Deploy.CronMeaning

/-!
# The translation of cron preserves its meaning

`cronToOnCalendar` goes through a parser and a renderer. On the texts that spell a cron expression
the parser finds the items that are spelled, with values in the bounds of their field
(`parseField_of_spells`), and the renderer writes components that match the same values
(`componentMatches_render`, `daysMatch_render`). `cron_translation` puts the two together.
-/

namespace TurboPanel.Deploy

open Js List

/-! ## The two descriptions of a field -/

/-- The specification that the parser has for a field. -/
def CronField.spec : CronField → FieldSpec
  | .minute => minuteSpec
  | .hour => hourSpec
  | .dayOfMonth => dayOfMonthSpec
  | .month => monthSpec
  | .dayOfWeek => dayOfWeekSpec

variable {items : List CronItem} {t : Text} {item : CronItem} {p : FieldItem} {c : Char} {v : ℕ} (f : CronField)

theorem spec_max : f.spec.max = f.last := by cases f <;> rfl

theorem spec_min : f.spec.min = f.first := by cases f <;> rfl

theorem spec_aliases : f.spec.aliases = f.names := by cases f <;> rfl

/-- What the parser makes of an item. -/
def CronItem.toFieldItem (f : CronField) : CronItem → FieldItem
  | .all => .all
  | .every n => .step (.number f.first) (.number f.last) n true
  | .value v => .single (.number v)
  | .upward v n => .step (.number v) (.number f.last) n false
  | .range v w => .range (.number v) (.number w)
  | .stepped v w n => .step (.number v) (.number w) n false

theorem toFieldItem_eq_all {f : CronField} :
    item.toFieldItem f = .all ↔ item = .all := by
  cases item <;> simp [CronItem.toFieldItem]

theorem isRestricted_iff {f : CronField} :
    isRestricted (items.map (CronItem.toFieldItem f)) = true ↔ CronRestricted items := by
  simp only [isRestricted, any_map, Bool.not_eq_true', any_eq_false, Function.comp_apply,
    beq_iff_eq, toFieldItem_eq_all, CronRestricted]
  exact ⟨fun h hm => h _ hm rfl, fun h item hm he => h (he ▸ hm)⟩

/-! ## Rendered items -/

theorem readNumber_toDigits (n : ℕ) : readNumber (Nat.toDigits 10 n) = some n := by
  have hdec : isDecimal (Nat.toDigits 10 n) = true := by
    simp only [isDecimal, Bool.and_eq_true, Bool.not_eq_true', isEmpty_eq_false_iff,
      all_eq_true]
    exact ⟨Nat.toDigits_ne_nil, isDigitOf_of_mem_toDigits (by decide) (by decide)⟩
  rw [readNumber, if_pos hdec, ofDigits_toDigits (by decide) (by decide)]

theorem readBounds_single (a : ℕ) : readBounds (Nat.toDigits 10 a) = some (a, none) := by
  rw [readBounds, splitPair_of_noPair (noPair_of_not_mem (not_mem_decimal (by decide)))]
  simp [readNumber_toDigits]

theorem readBounds_pair (a b : ℕ) :
    readBounds (Nat.toDigits 10 a ++ '.' :: '.' :: Nat.toDigits 10 b) = some (a, some b) := by
  have hdot : ∀ n, '.' ∉ Nat.toDigits 10 n := fun n => not_mem_decimal (by decide)
  have hsplit : splitPair '.' '.' (Nat.toDigits 10 a ++ '.' :: '.' :: Nat.toDigits 10 b) =
      [Nat.toDigits 10 a, Nat.toDigits 10 b] := by
    rw [splitPair_append, splitPair_of_noPair (noPair_of_not_mem (hdot b))]
    refine List.IsChain.append (noPair_of_not_mem (hdot a)) (isChain_singleton _) ?_
    rintro c hc d - ⟨rfl, -⟩
    exact hdot a (mem_of_getLast? hc)
  rw [readBounds, hsplit]
  simp [readNumber_toDigits]

theorem calendarItemMatches_body {last x : ℕ} (hslash : '/' ∉ t) (hstar : t ≠ ['*']) {a : ℕ} {b : Option ℕ}
    (h : readBounds t = some (a, b)) :
    calendarItemMatches last t x = true ↔ a ≤ x ∧ x ≤ b.getD a := by
  rw [calendarItemMatches, splitOn_eq_singleton hslash]
  simp only [hstar, if_false, h]
  cases b with
  | none =>
    simp only [beq_iff_eq, Option.getD_none]
    omega
  | some b => simp

variable {n : ℕ}

theorem calendarItemMatches_step {last x : ℕ} (hslash : '/' ∉ t) {a : ℕ} {b : Option ℕ}
    (h : readBounds t = some (a, b)) :
    calendarItemMatches last (t ++ '/' :: Nat.toDigits 10 n) x = true ↔
      a ≤ x ∧ x ≤ b.getD last ∧ n ∣ x - a := by
  have hsplit : (t ++ '/' :: Nat.toDigits 10 n).splitOn '/' = [t, Nat.toDigits 10 n] := by
    rw [splitOn_append_cons_self, splitOn_eq_singleton hslash,
      splitOn_eq_singleton (not_mem_decimal (by decide))]
    rfl
  rw [calendarItemMatches, hsplit]
  simp [h, readNumber_toDigits]

/-- **A rendered item matches what the item selects.** -/
theorem calendarItemMatches_render (item : CronItem) (x : ℕ) :
    calendarItemMatches f.last (renderNumericItem (item.toFieldItem f)) x = true ↔
      item.Matches f x := by
  have hd : ∀ n, '/' ∉ Nat.toDigits 10 n := fun n => not_mem_decimal (by decide)
  have hstar : ∀ n, '*' ∉ Nat.toDigits 10 n := fun n => not_mem_decimal (by decide)
  have hpair : ∀ a b, '/' ∉ Nat.toDigits 10 a ++ '.' :: '.' :: Nat.toDigits 10 b := by
    intro a b
    simp [hd]
  cases item with
  | all => exact iff_of_true rfl trivial
  | every n => exact calendarItemMatches_step (hd _) (readBounds_single _)
  | value v =>
    have hne : Nat.toDigits 10 v ≠ ['*'] := fun h => hstar v (by rw [h]; simp)
    refine (calendarItemMatches_body (hd v) hne (readBounds_single v)).trans ?_
    simp only [Option.getD_none, CronItem.Matches]
    omega
  | upward v n => exact calendarItemMatches_step (hpair _ _) (readBounds_pair _ _)
  | range v w =>
    have hne : Nat.toDigits 10 v ++ '.' :: '.' :: Nat.toDigits 10 w ≠ ['*'] := by
      intro h
      have : '.' ∈ ['*'] := by rw [← h]; simp
      exact absurd this (by decide)
    exact calendarItemMatches_body (hpair v w) hne (readBounds_pair v w)
  | stepped v w n => exact calendarItemMatches_step (hpair _ _) (readBounds_pair _ _)

/-- The characters of a rendered component. -/
def isComponentChar (c : Char) : Bool :=
  isDigitOf 10 c || c == '.' || c == '/' || c == '*'

theorem renderNumericItem_chars (item : CronItem) :
    (renderNumericItem (item.toFieldItem f)).all isComponentChar = true := by
  have hd : ∀ n, (Nat.toDigits 10 n).all isComponentChar = true := by
    intro n
    refine all_eq_true.2 fun c hc => ?_
    rw [isComponentChar, isDigitOf_of_mem_toDigits (by decide) (by decide) c hc]
    rfl
  have hdot : isComponentChar '.' = true := rfl
  have hslash : isComponentChar '/' = true := rfl
  have hstar : isComponentChar '*' = true := rfl
  cases item <;> simp only [CronItem.toFieldItem, renderNumericItem, FieldValue.text, if_true,
    Bool.false_eq_true, if_false, all_append, all_cons, all_nil, hd, hdot, hslash,
    hstar, Bool.and_self]

theorem not_mem_renderNumericItem {f : CronField} (h : isComponentChar c = false) :
    c ∉ renderNumericItem (item.toFieldItem f) := by
  intro hm
  rw [all_eq_true.1 (renderNumericItem_chars f item) c hm] at h
  exact Bool.noConfusion h

/-- **A rendered component matches what the field selects.** -/
theorem componentMatches_render (hne : items ≠ []) (x : ℕ) :
    componentMatches f.last (renderNumericField (items.map (CronItem.toFieldItem f))) x = true ↔
      FieldMatches f items x := by
  rw [renderNumericField]
  by_cases hr : isRestricted (items.map (CronItem.toFieldItem f)) = true
  · have hsplit : ([','].intercalate ((items.map (CronItem.toFieldItem f)).map
        renderNumericItem)).splitOn ',' =
          (items.map (CronItem.toFieldItem f)).map renderNumericItem := by
      refine splitOn_intercalate ',' ?_ (by simpa using hne)
      intro t ht
      obtain ⟨i, hi, rfl⟩ := mem_map.1 ht
      obtain ⟨item, -, rfl⟩ := mem_map.1 hi
      exact not_mem_renderNumericItem (by decide)
    rw [if_neg (by simp [hr]), componentMatches, hsplit, any_map, any_map,
      any_eq_true]
    exact exists_congr fun item => and_congr_right fun _ => calendarItemMatches_render f item x
  · have hall : CronItem.all ∈ items := by
      by_contra hnot
      exact hr (isRestricted_iff.2 hnot)
    rw [if_pos (by simpa using hr)]
    exact iff_of_true rfl ⟨.all, hall, trivial⟩

theorem not_mem_renderNumericField {f : CronField} (h : isComponentChar c = false) (hcomma : c ≠ ',') :
    c ∉ renderNumericField (items.map (CronItem.toFieldItem f)) := by
  rw [renderNumericField]
  split
  · rw [mem_singleton]
    rintro rfl
    cases h
  · intro hm
    rcases mem_intercalate_singleton hm with rfl | ⟨t, ht, hc⟩
    · exact hcomma rfl
    · obtain ⟨i, hi, rfl⟩ := mem_map.1 ht
      obtain ⟨item, -, rfl⟩ := mem_map.1 hi
      exact not_mem_renderNumericItem h hc

/-! ## Rendered weekdays -/

/-- The values of an item are in the bounds of the field, and a range does not run backwards. -/
def CronItem.Valid (f : CronField) : CronItem → Prop
  | .value v => v ≤ f.last
  | .range v w => v ≤ w ∧ w ≤ f.last
  | _ => True

theorem mem_rangeNames {w : ℕ} {n : Option String} : ∀ {fuel v : ℕ},
    n ∈ rangeNames (.number w) fuel (.number v) ↔
      ∃ u, v ≤ u ∧ u ≤ w ∧ u < v + fuel ∧ nameOf (.number u) = n
  | 0, v => by
    simp only [rangeNames, not_mem_nil, false_iff]
    rintro ⟨u, h₁, -, h₂, -⟩
    omega
  | fuel + 1, v => by
    rw [rangeNames]
    by_cases hle : v ≤ w
    · have ih := @mem_rangeNames w n fuel (v + 1)
      simp only [FieldValue.le, hle, decide_true, if_true, mem_cons, FieldValue.succ, ih]
      constructor
      · rintro (rfl | ⟨u, h₁, h₂, h₃, h₄⟩)
        · exact ⟨v, le_rfl, hle, by omega, rfl⟩
        · exact ⟨u, by omega, h₂, by omega, h₄⟩
      · rintro ⟨u, h₁, h₂, h₃, rfl⟩
        rcases Nat.eq_or_lt_of_le h₁ with rfl | h
        · exact .inl rfl
        · exact .inr ⟨u, h, h₂, by omega, rfl⟩
    · simp only [FieldValue.le, hle, decide_false, Bool.false_eq_true, if_false, not_mem_nil,
        false_iff]
      rintro ⟨u, h₁, h₂, -, -⟩
      omega

theorem mem_itemNames (hvalid : item.Valid .dayOfWeek) (hall : item ≠ .all) {names : List (Option String)}
    (h : itemNames (item.toFieldItem .dayOfWeek) = .ok names) :
    names ≠ [] ∧ ∀ n, n ∈ names ↔
      ∃ u ≤ 7, item.Matches .dayOfWeek u ∧ nameOf (.number u) = n := by
  cases item with
  | all => exact absurd rfl hall
  | every | upward | stepped => cases h
  | value v =>
    obtain rfl : [nameOf (.number v)] = names := Except.ok.inj h
    refine ⟨by simp, fun n => ?_⟩
    rw [mem_singleton]
    constructor
    · rintro rfl
      exact ⟨v, hvalid, rfl, rfl⟩
    · rintro ⟨u, -, rfl, rfl⟩
      rfl
  | range v w =>
    obtain rfl : rangeNames (.number w) 8 (.number v) = names := Except.ok.inj h
    obtain ⟨hvw, hw⟩ := hvalid
    have hw : w ≤ 7 := hw
    constructor
    · exact ne_nil_of_mem (mem_rangeNames.2 ⟨v, le_rfl, hvw, by omega, rfl⟩)
    · intro n
      rw [mem_rangeNames]
      constructor
      · rintro ⟨u, h₁, h₂, -, rfl⟩
        exact ⟨u, by omega, ⟨h₁, h₂⟩, rfl⟩
      · rintro ⟨u, h₀, ⟨h₁, h₂⟩, rfl⟩
        exact ⟨u, h₁, h₂, by omega, rfl⟩

theorem nameOf_eq_iff : ∀ u < 8, ∀ d < 7,
    nameOf (.number u) = weekdayNames[d]? ↔ u = d ∨ d = 0 ∧ u = 7 := by
  decide

theorem nameOf_text : ∀ u < 8, ((nameOf (.number u)).getD "").toList.length = 3 ∧
    ((nameOf (.number u)).getD "").toList.all Char.isAlpha = true ∧
    ∀ d < 7, dayNames[d]? = some ((nameOf (.number u)).getD "").toList ↔
      nameOf (.number u) = weekdayNames[d]? := by
  decide

theorem mem_flatten_names (hvalid : ∀ i ∈ items, i.Valid .dayOfWeek) (hall : CronRestricted items)
    {names : List (List (Option String))}
    (h : List.Forall₂ (fun i n => itemNames (CronItem.toFieldItem .dayOfWeek i) = .ok n) items names)
    (n : Option String) : n ∈ names.flatten ↔
      ∃ u ≤ 7, FieldMatches .dayOfWeek items u ∧ nameOf (.number u) = n := by
  induction h with
  | nil => simp [FieldMatches]
  | @cons item l items names hitem _ ih =>
    have hrest := ih (fun i hi => hvalid i (by simp [hi])) fun hm => hall (by simp [hm])
    have hhead := (mem_itemNames (hvalid item (by simp)) (fun he => hall (by simp [he])) hitem).2 n
    rw [flatten_cons, mem_append, hhead, hrest]
    constructor
    · rintro (⟨u, hu, hm, he⟩ | ⟨u, hu, ⟨i, hi, hm⟩, he⟩)
      · exact ⟨u, hu, ⟨item, by simp, hm⟩, he⟩
      · exact ⟨u, hu, ⟨i, by simp [hi], hm⟩, he⟩
    · rintro ⟨u, hu, ⟨i, hi, hm⟩, he⟩
      rcases mem_cons.1 hi with rfl | hi
      · exact .inl ⟨u, hu, hm, he⟩
      · exact .inr ⟨u, hu, ⟨i, hi, hm⟩, he⟩

theorem daysMatch_join {unique : List (Option String)}
    (hmem : ∀ n, n ∈ unique ↔ ∃ u ≤ 7, FieldMatches .dayOfWeek items u ∧ nameOf (.number u) = n) (hne : unique ≠ []) :
    let t := [','].intercalate (unique.map fun name => (name.getD "").toList)
    t.head?.any Char.isAlpha = true ∧ ' ' ∉ t ∧
      ∀ d < 7, daysMatch t d = true ↔ WeekdayMatches items d := by
  intro t
  have htext : ∀ n ∈ unique, ∃ u ≤ 7, FieldMatches .dayOfWeek items u ∧ nameOf (.number u) = n :=
    fun n hn => (hmem n).1 hn
  have halpha : ∀ n ∈ unique, ∀ c ∈ (n.getD "").toList, c.isAlpha = true := by
    intro n hn
    obtain ⟨u, hu, -, rfl⟩ := htext n hn
    exact all_eq_true.1 (nameOf_text u (by omega)).2.1
  refine ⟨?_, ?_, fun d hd => ?_⟩
  · obtain ⟨n, rest, rfl⟩ := exists_cons_of_ne_nil hne
    obtain ⟨u, hu, -, he⟩ := htext n (by simp)
    have hlen := (nameOf_text u (by omega)).1
    rw [he] at hlen
    obtain ⟨c, cs, hc⟩ := exists_cons_of_ne_nil
      (ne_nil_of_length_pos (l := (n.getD "").toList) (by omega))
    have hhead : t.head? = some c := by
      cases rest <;> simp [t, hc, intercalate_cons_cons]
    simp [hhead, halpha n (by simp) c (by simp [hc])]
  · intro hsp
    rcases mem_intercalate_singleton hsp with h | ⟨l, hl, hc⟩
    · cases h
    · obtain ⟨n, hn, rfl⟩ := mem_map.1 hl
      exact absurd (halpha n hn ' ' hc) (by decide)
  · have hsplit : t.splitOn ',' = unique.map fun name => (name.getD "").toList := by
      refine splitOn_intercalate ',' (fun l hl => ?_) (by simpa using hne)
      obtain ⟨n, hn, rfl⟩ := mem_map.1 hl
      exact fun hc => absurd (halpha n hn ',' hc) (by decide)
    rw [daysMatch, hsplit, any_map, any_eq_true]
    simp only [Function.comp_apply, beq_iff_eq]
    constructor
    · rintro ⟨n, hn, he⟩
      obtain ⟨u, hu, hm, rfl⟩ := htext n hn
      have := (nameOf_eq_iff u (by omega) d hd).1 (((nameOf_text u (by omega)).2.2 d hd).1 he)
      rcases this with rfl | ⟨rfl, rfl⟩
      · exact .inl hm
      · exact .inr ⟨rfl, hm⟩
    · have key : ∀ u ≤ 7, FieldMatches .dayOfWeek items u → (u = d ∨ d = 0 ∧ u = 7) →
          ∃ n ∈ unique, dayNames[d]? = some (n.getD "").toList := by
        intro u hu hm he
        refine ⟨_, (hmem _).2 ⟨u, hu, hm, rfl⟩, ?_⟩
        exact ((nameOf_text u (by omega)).2.2 d hd).2 ((nameOf_eq_iff u (by omega) d hd).2 he)
      rintro (hm | ⟨rfl, hm⟩)
      · exact key d (by omega) hm (.inl rfl)
      · exact key 7 le_rfl hm (.inr ⟨rfl, rfl⟩)

/-- **Rendered weekdays match what the field selects.** -/
theorem daysMatch_render (hne : items ≠ []) (hvalid : ∀ i ∈ items, i.Valid .dayOfWeek) (hall : CronRestricted items)
    (h : renderWeekdayField (items.map (CronItem.toFieldItem .dayOfWeek)) = .ok t) :
    t.head?.any Char.isAlpha = true ∧ ' ' ∉ t ∧
      ∀ d < 7, daysMatch t d = true ↔ WeekdayMatches items d := by
  rw [renderWeekdayField, if_neg (by simp [isRestricted_iff.2 hall])] at h
  cases hmap : (items.map (CronItem.toFieldItem .dayOfWeek)).mapM itemNames with
  | error e =>
    rw [hmap] at h
    cases h
  | ok names =>
    rw [hmap] at h
    have hmem := mem_flatten_names hvalid hall (forall₂_map_left_iff.1 (forall₂_of_mapM hmap))
    obtain ⟨n₀, hn₀⟩ : ∃ n, n ∈ names.flatten := by
      obtain ⟨item, items, rfl⟩ := exists_cons_of_ne_nil hne
      cases forall₂_of_mapM hmap with
      | @cons _ l _ names hitem _ =>
        have hl := (mem_itemNames (hvalid item (by simp)) (fun he => hall (by simp [he])) hitem).1
        obtain ⟨n, l', rfl⟩ := exists_cons_of_ne_nil hl
        exact ⟨n, by simp⟩
    have hsorted : ∀ n, n ∈ names.flatten.dedup.insertionSort
        (fun a b => weekdayRank a ≤ weekdayRank b) ↔ n ∈ names.flatten := by
      intro n
      rw [mem_insertionSort, mem_dedup]
    obtain rfl : [','].intercalate ((names.flatten.dedup.insertionSort
      fun a b => weekdayRank a ≤ weekdayRank b).map fun name => (name.getD "").toList) = t :=
        Except.ok.inj h
    exact daysMatch_join (fun n => (hsorted n).trans (hmem n))
      (ne_nil_of_mem ((hsorted n₀).2 hn₀))

/-! ## Parsed values -/

theorem names_lower : ∀ e ∈ f.names, e.1.toList.all Char.isLower = true ∧
    e.1.toList ≠ [] ∧ e.1.toList.all (fun c => decide (c.toNat < 128)) = true ∧ e.2 ≤ f.last := by
  cases f <;> decide

theorem names_nodup : (f.names.map Prod.fst).Nodup := by cases f <;> decide

/-- The characters of a value. -/
def isValueChar (c : Char) : Bool := isDigitOf 10 c || c.isAlpha

theorem not_isSpace_of_isValueChar (h : isValueChar c = true) : isSpace c = false := by
  rcases Bool.or_eq_true_iff.1 h with h | h
  · exact not_isSpace_of_isDigitOf (by decide) h
  · exact not_isSpace_of_isAlpha h

theorem SpellsValue.chars {f : CronField} (h : SpellsValue f t v) :
    t ≠ [] ∧ ∀ c ∈ t, isValueChar c = true := by
  cases h with
  | number h =>
    refine ⟨h.ne_nil, fun c hc => ?_⟩
    rw [isValueChar, h.digits c hc, Bool.true_or]
  | @name name n hmem hlower =>
    obtain ⟨hl, hne, -, -⟩ := names_lower f _ hmem
    constructor
    · rintro rfl
      exact hne hlower.symm
    · intro c hc
      have hlow : c.toLower.isLower = true :=
        all_eq_true.1 hl _ (hlower ▸ mem_map_of_mem hc)
      rw [isValueChar, isAlpha_of_isLower_toLower hlow, Bool.or_true]

theorem SpellsValue.not_mem {f : CronField} (h : SpellsValue f t v) (hc : isValueChar c = false) : c ∉ t := by
  intro hm
  rw [h.chars.2 c hm] at hc
  exact Bool.noConfusion hc

theorem alias_of_digits (hne : t ≠ []) (hd : ∀ c ∈ t, isDigitOf 10 c = true) : f.spec.alias t = none := by
  obtain ⟨c, t', rfl⟩ := exists_cons_of_ne_nil hne
  have hc := hd c (by simp)
  have hlookup : f.spec.aliases.lookup (String.ofList (c :: t')) = none := by
    rw [Js.lookup_eq_none_iff, spec_aliases]
    intro hm
    obtain ⟨e, he, hkey⟩ := mem_map.1 hm
    have hlow := (names_lower f e he).1
    rw [hkey, String.toList_ofList, all_cons, Bool.and_eq_true] at hlow
    obtain ⟨hch, hlt⟩ := eq_digitChar_of_isDigit hc
    have key : ∀ d < 10, (Nat.digitChar d).isLower = false := by decide
    rw [hch, key _ hlt] at hlow
    exact Bool.noConfusion hlow.1
  have hcon : c :: t' ≠ "constructor".toList := by
    intro he
    rw [(List.cons.inj (show c :: t' = 'c' :: "onstructor".toList from he)).1] at hc
    cases hc
  have hproto : c :: t' ≠ "__proto__".toList := by
    intro he
    rw [(List.cons.inj (show c :: t' = '_' :: "_proto__".toList from he)).1] at hc
    cases hc
  rw [FieldSpec.alias, hlookup, if_neg hcon, if_neg hproto, ite_self]

/-- **A value is read as it is spelled**, and it is in the bounds of the field. -/
theorem readFieldValue_of_spells {f : CronField} (h : SpellsValue f t v) {value : FieldValue}
    (hr : readFieldValue t f.spec = some value) :
    value = .number v ∧ v ≤ f.last := by
  have htrim : trim t = t :=
    trim_eq_self_of_forall fun c hc => not_isSpace_of_isValueChar (h.chars.2 c hc)
  cases h with
  | number h =>
    have hemp : t.isEmpty = false := by simpa using h.ne_nil
    simp only [readFieldValue, htrim, toLowerCase_of_digits h.digits, hemp, Bool.false_eq_true,
      if_false, alias_of_digits f h.ne_nil h.digits, h.value, spec_max] at hr
    split_ifs at hr with h₁ h₂
    cases hr
    exact ⟨rfl, by omega⟩
  | @name name n hmem hlower =>
    obtain ⟨-, hne, hascii, hle⟩ := names_lower f _ hmem
    have hlow : toLowerCase t = name.toList := by
      rw [toLowerCase_eq_map, hlower]
      rw [hlower]
      simpa using hascii
    have hemp : name.toList.isEmpty = false := by simpa using hne
    have halias : f.spec.alias name.toList = some (.number v) := by
      have hlookup : f.spec.aliases.lookup name = some v := by
        rw [spec_aliases]
        exact (lookup_eq_some_iff (names_nodup f)).2 hmem
      have hsome : f.spec.aliases.isEmpty = false := by
        rw [spec_aliases]
        simpa using ne_nil_of_mem hmem
      rw [FieldSpec.alias, hsome, String.ofList_toList, hlookup]
      rfl
    simp only [readFieldValue, htrim, hlow, hemp, Bool.false_eq_true, if_false, halias] at hr
    cases hr
    exact ⟨rfl, hle⟩

/-! ## Parsed items -/

variable {raw : Text}

theorem parseStepSuffix_of_spells {spec : FieldSpec} {s : Text} {k : ℕ} (h : SpellsNumber s n)
    (hk : parseStepSuffix raw s spec = .ok k) : k = n := by
  simp only [parseStepSuffix, h.value] at hk
  split_ifs at hk
  exact (Except.ok.inj hk).symm

theorem trim_ne_star (h : '*' ∉ t) : trim t ≠ ['*'] := by
  intro he
  exact h (mem_of_mem_trim (he ▸ mem_singleton_self '*'))

theorem parseFieldBody_value {f : CronField} {t : Text} (h : SpellsValue f t v) {step : Option ℕ}
    (hp : parseFieldBody raw t f.spec step = .ok p) :
    v ≤ f.last ∧ p = step.elim (.single (.number v)) fun n =>
      .step (.number v) (.number f.last) n false := by
  rw [parseFieldBody, if_neg (trim_ne_star (h.not_mem (by decide))), parseAnchoredItem,
    splitOn_eq_singleton (h.not_mem (by decide))] at hp
  cases hr : readFieldValue t f.spec with
  | none =>
    simp only [hr] at hp
    cases hp
  | some value =>
    obtain ⟨rfl, hle⟩ := readFieldValue_of_spells h hr
    refine ⟨hle, ?_⟩
    cases step with
    | none =>
      simp only [hr] at hp
      exact (Except.ok.inj hp).symm
    | some n =>
      simp only [hr, spec_max] at hp
      exact (Except.ok.inj hp).symm

theorem parseFieldBody_range {f : CronField} {t u : Text} {v w : ℕ} (h : SpellsValue f t v)
    (h' : SpellsValue f u w) {step : Option ℕ} (hp : parseFieldBody raw (t ++ '-' :: u) f.spec step = .ok p) :
    (v ≤ w ∧ w ≤ f.last) ∧ p = step.elim (.range (.number v) (.number w)) fun n =>
      .step (.number v) (.number w) n false := by
  have hstar : '*' ∉ t ++ '-' :: u := by
    simp only [mem_append, mem_cons, not_or]
    exact ⟨h.not_mem (by decide), by decide, h'.not_mem (by decide)⟩
  have hsplit : (t ++ '-' :: u).splitOn '-' = [t, u] := by
    rw [splitOn_append_cons_self, splitOn_eq_singleton (h.not_mem (by decide)),
      splitOn_eq_singleton (h'.not_mem (by decide))]
    rfl
  rw [parseFieldBody, if_neg (trim_ne_star hstar), parseAnchoredItem, hsplit] at hp
  cases hr : readFieldValue t f.spec with
  | none =>
    simp only [hr] at hp
    cases hp
  | some value =>
    cases hr' : readFieldValue u f.spec with
    | none =>
      simp only [hr, hr'] at hp
      cases hp
    | some value' =>
      obtain ⟨rfl, -⟩ := readFieldValue_of_spells h hr
      obtain ⟨rfl, hle⟩ := readFieldValue_of_spells h' hr'
      simp only [hr, hr', FieldValue.lt, decide_eq_true_eq] at hp
      split_ifs at hp with hlt
      refine ⟨⟨by omega, hle⟩, ?_⟩
      cases step with
      | none => exact (Except.ok.inj hp).symm
      | some n => exact (Except.ok.inj hp).symm

theorem parseFieldItem_body {f : CronField} (h : '/' ∉ t) :
    parseFieldItem t f.spec = parseFieldBody t t f.spec none := by
  rw [parseFieldItem, splitOn_eq_singleton h]

theorem parseFieldItem_step {f : CronField} {t s : Text} (h : '/' ∉ t) (hs : SpellsNumber s n)
    (hp : parseFieldItem (t ++ '/' :: s) f.spec = .ok p) :
    ∃ raw, parseFieldBody raw t f.spec (some n) = .ok p := by
  have hslash : '/' ∉ s := fun hm => absurd (hs.digits '/' hm) (by decide)
  have hsplit : (t ++ '/' :: s).splitOn '/' = [t, s] := by
    rw [splitOn_append_cons_self, splitOn_eq_singleton h,
      splitOn_eq_singleton hslash]
    rfl
  rw [parseFieldItem, hsplit] at hp
  cases hstep : parseStepSuffix (t ++ '/' :: s) s f.spec with
  | error e =>
    simp only [hstep] at hp
    cases hp
  | ok k =>
    obtain rfl := parseStepSuffix_of_spells hs hstep
    simp only [hstep] at hp
    exact ⟨_, hp⟩

/-- **An item is parsed as it is spelled.** -/
theorem parseFieldItem_of_spells {f : CronField} (h : SpellsItem f t item) (hp : parseFieldItem t f.spec = .ok p) :
    p = item.toFieldItem f ∧ item.Valid f := by
  have hstar : ∀ {raw : Text} {step : Option ℕ}, parseFieldBody raw ['*'] f.spec step =
      .ok (wholeFieldItem f.spec step) := fun {raw step} => by
    rw [parseFieldBody, if_pos (by decide)]
  have hslash : ∀ {t u : Text}, '/' ∉ t → '/' ∉ u → '/' ∉ t ++ '-' :: u := by
    intro t u ht hu
    simp [ht, hu]
  cases h with
  | all =>
    rw [parseFieldItem_body (by decide), hstar] at hp
    exact ⟨(Except.ok.inj hp).symm, trivial⟩
  | every hs =>
    obtain ⟨raw, hp⟩ := parseFieldItem_step (t := ['*']) (by decide) hs hp
    rw [hstar, wholeFieldItem, spec_min, spec_max] at hp
    exact ⟨(Except.ok.inj hp).symm, trivial⟩
  | value hv =>
    rw [parseFieldItem_body (hv.not_mem (by decide))] at hp
    obtain ⟨hle, rfl⟩ := parseFieldBody_value hv hp
    exact ⟨rfl, hle⟩
  | upward hv hs =>
    obtain ⟨raw, hp⟩ := parseFieldItem_step (hv.not_mem (by decide)) hs hp
    exact ⟨(parseFieldBody_value hv hp).2, trivial⟩
  | range hv hw =>
    rw [parseFieldItem_body (hslash (hv.not_mem (by decide)) (hw.not_mem (by decide)))] at hp
    obtain ⟨hle, rfl⟩ := parseFieldBody_range hv hw hp
    exact ⟨rfl, hle⟩
  | stepped hv hw hs =>
    obtain ⟨raw, hp⟩ := parseFieldItem_step
      (hslash (hv.not_mem (by decide)) (hw.not_mem (by decide))) hs hp
    exact ⟨(parseFieldBody_range hv hw hp).2, trivial⟩

/-! ## Parsed fields -/

/-- The characters of an item. -/
def isItemChar (c : Char) : Bool := isValueChar c || c == '*' || c == '/' || c == '-'

theorem SpellsItem.chars {f : CronField} (h : SpellsItem f t item) :
    t ≠ [] ∧ t.all isItemChar = true := by
  have hval : ∀ {t : Text} {v : ℕ}, SpellsValue f t v → t.all isItemChar = true := by
    intro t v hv
    refine all_eq_true.2 fun c hc => ?_
    rw [isItemChar, hv.chars.2 c hc]
    rfl
  have hnum : ∀ {s : Text} {n : ℕ}, SpellsNumber s n → s.all isItemChar = true :=
    fun hs => hval (SpellsValue.number hs)
  have hstar : isItemChar '*' = true := by decide
  have hslash : isItemChar '/' = true := by decide
  have hdash : isItemChar '-' = true := by decide
  cases h with
  | all => exact ⟨by simp, by decide⟩
  | every hs => exact ⟨by simp, by simp only [all_cons, hstar, hslash, hnum hs, Bool.and_self]⟩
  | value hv => exact ⟨hv.chars.1, hval hv⟩
  | upward hv hs =>
    exact ⟨by simp, by simp only [all_append, all_cons, hval hv, hslash, hnum hs,
      Bool.and_self]⟩
  | range hv hw =>
    exact ⟨by simp, by simp only [all_append, all_cons, hval hv, hdash, hval hw,
      Bool.and_self]⟩
  | stepped hv hw hs =>
    exact ⟨by simp, by simp only [all_append, all_cons, hval hv, hdash, hval hw, hslash,
      hnum hs, Bool.and_self]⟩

theorem not_isSpace_of_isItemChar (h : isItemChar c = true) : isSpace c = false := by
  simp only [isItemChar, Bool.or_eq_true, beq_iff_eq] at h
  rcases h with ((h | rfl) | rfl) | rfl
  · exact not_isSpace_of_isValueChar h
  · decide
  · decide
  · decide

theorem spellsItem_of_mem {f : CronField} {parts : List Text} (h : List.Forall₂ (SpellsItem f) parts items) :
    ∀ t ∈ parts, ∃ item, SpellsItem f t item := by
  induction h with
  | nil => simp
  | cons hp _ ih =>
    intro t ht
    rcases mem_cons.1 ht with rfl | ht
    · exact ⟨_, hp⟩
    · exact ih t ht

theorem SpellsField.chars {f : CronField} (h : SpellsField f t items) :
    t ≠ [] ∧ (∀ c ∈ t, isSpace c = false) ∧ t.head? ≠ some '@' ∧ items ≠ [] := by
  cases h with
  | @mk parts _ hne hs =>
    have hmem : ∀ c ∈ [','].intercalate parts, c = ',' ∨ isItemChar c = true := by
      intro c hc
      rcases mem_intercalate_singleton hc with h | ⟨p, hp, hcp⟩
      · exact .inl h
      · obtain ⟨item, hitem⟩ := spellsItem_of_mem hs p hp
        exact .inr (all_eq_true.1 hitem.chars.2 c hcp)
    refine ⟨?_, fun c hc => ?_, fun hhead => ?_, ?_⟩
    · obtain ⟨p, ps, rfl⟩ := exists_cons_of_ne_nil hne
      obtain ⟨item, hitem⟩ := spellsItem_of_mem hs p (by simp)
      obtain ⟨c, cs, rfl⟩ := exists_cons_of_ne_nil hitem.chars.1
      cases ps <;> simp [intercalate_cons_cons]
    · rcases hmem c hc with rfl | hc
      · decide
      · exact not_isSpace_of_isItemChar hc
    · rcases hmem '@' (mem_of_mem_head? hhead) with h | h
      · cases h
      · cases h
    · rintro rfl
      cases hs
      exact hne rfl

/-- **A field is parsed as it is spelled.** -/
theorem parseField_of_spells {f : CronField} (h : SpellsField f t items) {parsed : List FieldItem}
    (hp : parseField t f.spec = .ok parsed) :
    parsed = items.map (CronItem.toFieldItem f) ∧ ∀ i ∈ items, i.Valid f := by
  cases h with
  | @mk parts _ hne hs =>
    have hsplit : ([','].intercalate parts).splitOn ',' = parts := by
      refine splitOn_intercalate ',' (fun p hp hm => ?_) hne
      obtain ⟨item, hitem⟩ := spellsItem_of_mem hs p hp
      exact absurd (all_eq_true.1 hitem.chars.2 ',' hm) (by decide)
    rw [parseField, hsplit] at hp
    have hall := forall₂_of_mapM hp
    clear hp hsplit hne
    induction hs generalizing parsed with
    | nil =>
      cases hall
      exact ⟨rfl, by simp⟩
    | cons hitem _ ih =>
      cases hall with
      | cons hhead hrest =>
        obtain ⟨rfl, hvalid⟩ := parseFieldItem_of_spells hitem hhead
        obtain ⟨rfl, hvalids⟩ := ih hrest
        refine ⟨rfl, fun i hi => ?_⟩
        rcases mem_cons.1 hi with rfl | hi
        · exact hvalid
        · exact hvalids i hi

/-! ## The calendar value -/

/-- What the parser makes of an expression. -/
def CronExpr.toFields (e : CronExpr) : CronFields where
  minute := e.minute.map (CronItem.toFieldItem .minute)
  hour := e.hour.map (CronItem.toFieldItem .hour)
  dom := e.dayOfMonth.map (CronItem.toFieldItem .dayOfMonth)
  month := e.month.map (CronItem.toFieldItem .month)
  dow := e.dayOfWeek.map (CronItem.toFieldItem .dayOfWeek)

/-- Every field has an item, and the values of the weekdays are in their bounds. -/
structure CronExpr.WellFormed (e : CronExpr) : Prop where
  minute_ne : e.minute ≠ []
  hour_ne : e.hour ≠ []
  dayOfMonth_ne : e.dayOfMonth ≠ []
  month_ne : e.month ≠ []
  dayOfWeek_ne : e.dayOfWeek ≠ []
  dayOfWeek_valid : ∀ i ∈ e.dayOfWeek, i.Valid .dayOfWeek

section Render

variable {e : CronExpr} (he : e.WellFormed) (m : CalendarMinute)

/-- The date that is rendered for an expression. -/
def dateText (e : CronExpr) : Text :=
  '*' :: '-' :: renderNumericField e.toFields.month ++ '-' :: renderNumericField e.toFields.dom

/-- The time that is rendered for an expression. -/
def timeText (e : CronExpr) : Text :=
  renderNumericField e.toFields.hour ++ ':' :: renderNumericField e.toFields.minute ++
    [':', '0', '0']

theorem splitOn_dateText (e : CronExpr) : (dateText e).splitOn '-' =
    [['*'], renderNumericField e.toFields.month, renderNumericField e.toFields.dom] := by
  have hd : dateText e = ['-'].intercalate
      [['*'], renderNumericField e.toFields.month, renderNumericField e.toFields.dom] := by
    simp [dateText, intercalate_cons_cons]
  have h₁ : '-' ∉ renderNumericField e.toFields.month :=
    not_mem_renderNumericField (by decide) (by decide)
  have h₂ : '-' ∉ renderNumericField e.toFields.dom :=
    not_mem_renderNumericField (by decide) (by decide)
  rw [hd]
  refine splitOn_intercalate '-' ?_ (by simp)
  simp [h₁, h₂]

theorem splitOn_timeText (e : CronExpr) : (timeText e).splitOn ':' =
    [renderNumericField e.toFields.hour, renderNumericField e.toFields.minute, ['0', '0']] := by
  have ht : timeText e = [':'].intercalate
      [renderNumericField e.toFields.hour, renderNumericField e.toFields.minute, ['0', '0']] := by
    simp [timeText, intercalate_cons_cons]
  have h₁ : ':' ∉ renderNumericField e.toFields.hour :=
    not_mem_renderNumericField (by decide) (by decide)
  have h₂ : ':' ∉ renderNumericField e.toFields.minute :=
    not_mem_renderNumericField (by decide) (by decide)
  rw [ht]
  refine splitOn_intercalate ':' ?_ (by simp)
  simp [h₁, h₂]

include he in
theorem dateTimeMatches_render {zone : List Text} (hzone : zone.length ≤ 1) :
    dateTimeMatches (dateText e :: timeText e :: zone) m = true ↔
      FieldMatches .month e.month m.month ∧ FieldMatches .dayOfMonth e.dayOfMonth m.day ∧
        FieldMatches .hour e.hour m.hour ∧ FieldMatches .minute e.minute m.minute := by
  have hyear : componentMatches m.year ['*'] m.year = true := rfl
  have hsecond : componentMatches 59 ['0', '0'] 0 = true := by decide
  have h₁ := componentMatches_render .month he.month_ne m.month
  have h₂ := componentMatches_render .dayOfMonth he.dayOfMonth_ne m.day
  have h₃ := componentMatches_render .hour he.hour_ne m.hour
  have h₄ := componentMatches_render .minute he.minute_ne m.minute
  rw [dateTimeMatches, splitOn_dateText, splitOn_timeText]
  simp only [hzone, decide_true, Bool.true_and, hyear, hsecond, Bool.and_true, Bool.and_eq_true]
  rw [← h₁, ← h₂, ← h₃, ← h₄]
  simp only [CronExpr.toFields, CronField.last, and_assoc]

theorem space_not_mem_dateText (e : CronExpr) : ' ' ∉ dateText e := by
  have h₁ : ' ' ∉ renderNumericField e.toFields.month :=
    not_mem_renderNumericField (by decide) (by decide)
  have h₂ : ' ' ∉ renderNumericField e.toFields.dom :=
    not_mem_renderNumericField (by decide) (by decide)
  simp [dateText, h₁, h₂]

theorem space_not_mem_timeText (e : CronExpr) : ' ' ∉ timeText e := by
  have h₁ : ' ' ∉ renderNumericField e.toFields.hour :=
    not_mem_renderNumericField (by decide) (by decide)
  have h₂ : ' ' ∉ renderNumericField e.toFields.minute :=
    not_mem_renderNumericField (by decide) (by decide)
  simp [timeText, h₁, h₂]

theorem splitOn_zone {timezone : Option Text}
    (hzone : timezone.any (fun name => !isValidTimezone name) = false) (e : CronExpr) :
    ∃ zone : List Text, zone.length ≤ 1 ∧
      (timeText e ++ zoneText timezone).splitOn ' ' = timeText e :: zone := by
  have ht := space_not_mem_timeText e
  rw [zoneText]
  cases htz : truthy timezone with
  | none => exact ⟨[], by simp, by simp [splitOn_eq_singleton ht]⟩
  | some name =>
    obtain ⟨rfl, -⟩ := truthy_eq_some.1 htz
    have hvalid : isValidTimezone name = true := by simpa using hzone
    have hspace : ' ' ∉ name := by
      intro hm
      have hany : name.any isSpace = true := any_eq_true.2 ⟨' ', hm, by decide⟩
      simp [isValidTimezone, hany] at hvalid
    refine ⟨[name], by simp, ?_⟩
    simp only [splitOn_append_cons_self, splitOn_eq_singleton ht,
      splitOn_eq_singleton hspace, singleton_append]

theorem restricted_pair_iff : (isRestricted e.toFields.dom && isRestricted e.toFields.dow) = true ↔
    CronRestricted e.dayOfMonth ∧ CronRestricted e.dayOfWeek := by
  rw [Bool.and_eq_true]
  exact and_congr isRestricted_iff isRestricted_iff

theorem renderWeekdayField_of_all (hall : ¬CronRestricted e.dayOfWeek) :
    renderWeekdayField e.toFields.dow = .ok [] := by
  rw [renderWeekdayField, if_pos]
  rw [← Bool.not_eq_true]
  exact fun h => hall (isRestricted_iff.1 h)

include he in
/-- **The rendered value elapses when the expression fires.** -/
theorem renderCronFields_matches {timezone : Option Text} {out : Text}
    (hzone : timezone.any (fun name => !isValidTimezone name) = false)
    (h : renderCronFields e.toFields timezone = .ok out) :
    onCalendarMatches out m = true ↔ e.Matches m := by
  rw [renderCronFields] at h
  split at h
  · cases h
  rename_i hpair
  rw [restricted_pair_iff] at hpair
  have hmatches : e.Matches m ↔ (FieldMatches .month e.month m.month ∧
      FieldMatches .dayOfMonth e.dayOfMonth m.day ∧ FieldMatches .hour e.hour m.hour ∧
      FieldMatches .minute e.minute m.minute) ∧ WeekdayMatches e.dayOfWeek m.weekday := by
    rw [CronExpr.Matches]
    tauto
  obtain ⟨zone, hlen, hsplit⟩ := splitOn_zone hzone e
  have hdate := space_not_mem_dateText e
  rw [hmatches]
  by_cases hall : CronRestricted e.dayOfWeek
  · cases hday : renderWeekdayField e.toFields.dow with
    | error msg =>
      rw [hday] at h
      cases h
    | ok days =>
      obtain ⟨halpha, hspace, hdays⟩ :=
        daysMatch_render he.dayOfWeek_ne he.dayOfWeek_valid hall hday
      have hne : days.isEmpty = false := by
        cases days with
        | nil => simp at halpha
        | cons => rfl
      rw [hday] at h
      have hout : out = days ++ ' ' :: (dateText e ++ ' ' :: (timeText e ++ zoneText timezone)) := by
        rw [← Except.ok.inj h]
        simp [hne, dateText, timeText]
      have htokens : out.splitOn ' ' = days :: dateText e :: timeText e :: zone := by
        rw [hout, splitOn_append_cons_self, splitOn_eq_singleton hspace,
          splitOn_append_cons_self, splitOn_eq_singleton hdate, hsplit]
        rfl
      rw [onCalendarMatches, htokens]
      simp only [halpha, if_true, Bool.and_eq_true]
      rw [dateTimeMatches_render he m hlen, hdays m.weekday m.weekday_lt]
      exact and_comm
  · have hweek : WeekdayMatches e.dayOfWeek m.weekday := by
      refine .inl ⟨.all, ?_, trivial⟩
      by_contra hnot
      exact hall hnot
    rw [renderWeekdayField_of_all hall] at h
    have hout : out = dateText e ++ ' ' :: (timeText e ++ zoneText timezone) := by
      rw [← Except.ok.inj h]
      simp [dateText, timeText]
    have htokens : out.splitOn ' ' = dateText e :: timeText e :: zone := by
      rw [hout, splitOn_append_cons_self, splitOn_eq_singleton hdate, hsplit]
      rfl
    have halpha : (dateText e).head?.any Char.isAlpha = false := rfl
    rw [onCalendarMatches, htokens]
    simp only [halpha, Bool.false_eq_true, if_false]
    rw [dateTimeMatches_render he m hlen]
    exact ⟨fun h => ⟨h, hweek⟩, fun h => h.1⟩

end Render

/-! ## Whole expressions -/

variable {e : CronExpr}

theorem spellsFields_chars (h : SpellsFields t e) : t ≠ [] ∧
    (∀ c ∈ t.head?, isSpace c = false) ∧ (∀ c ∈ t.getLast?, isSpace c = false) ∧ t.head? ≠ some '@' := by
  cases h with
  | @mk t₁ t₂ t₃ t₄ t₅ w₁ w₂ w₃ w₄ _ h₁ h₂ h₃ h₄ h₅ s₁ s₂ s₃ s₄ =>
    obtain ⟨hne, hsp, hat, -⟩ := h₁.chars
    obtain ⟨hne', hsp', -, -⟩ := h₅.chars
    have hhead : (t₁ ++ w₁ ++ (t₂ ++ w₂ ++ (t₃ ++ w₃ ++ (t₄ ++ w₄ ++ t₅)))).head? = t₁.head? := by
      rw [append_assoc, head?_append_of_ne_nil _ hne]
    have hlast : (t₁ ++ w₁ ++ (t₂ ++ w₂ ++ (t₃ ++ w₃ ++ (t₄ ++ w₄ ++ t₅)))).getLast? =
        t₅.getLast? := by
      simp only [← append_assoc]
      rw [getLast?_append_of_ne_nil _ hne']
    rw [hhead, hlast]
    refine ⟨by simp [hne], fun c hc => hsp c (mem_of_mem_head? hc),
      fun c hc => hsp' c (mem_of_getLast? hc), hat⟩

theorem splitSpaces_of_spells (h : SpellsFields t e) :
    ∃ t₁ t₂ t₃ t₄ t₅, splitSpaces t = [t₁, t₂, t₃, t₄, t₅] ∧ SpellsField .minute t₁ e.minute ∧
      SpellsField .hour t₂ e.hour ∧ SpellsField .dayOfMonth t₃ e.dayOfMonth ∧
      SpellsField .month t₄ e.month ∧ SpellsField .dayOfWeek t₅ e.dayOfWeek := by
  cases h with
  | @mk t₁ t₂ t₃ t₄ t₅ w₁ w₂ w₃ w₄ _ h₁ h₂ h₃ h₄ h₅ s₁ s₂ s₃ s₄ =>
    refine ⟨t₁, t₂, t₃, t₄, t₅, ?_, h₁, h₂, h₃, h₄, h₅⟩
    have hstart : ∀ {f : CronField} {t r : Text} {items : List CronItem}, SpellsField f t items →
        t ++ r ≠ [] ∧ ∀ c ∈ (t ++ r).head?, isSpace c = false := by
      intro f t r items h
      obtain ⟨hne, hsp, -, -⟩ := h.chars
      rw [head?_append_of_ne_nil _ hne]
      exact ⟨by simp [hne], fun c hc => hsp c (mem_of_mem_head? hc)⟩
    have step : ∀ {f g : CronField} {t w u r : Text} {items items' : List CronItem},
        SpellsField f t items → Separator w → SpellsField g u items' →
        splitSpaces (t ++ w ++ (u ++ r)) = t :: splitSpaces (u ++ r) := fun h s h' =>
      splitSpaces_append s.space s.ne_nil (hstart h').2 (hstart h').1 h.chars.2.1
    have hlast := step (r := []) h₄ s₄ h₅
    rw [append_nil] at hlast
    simp only [append_assoc] at step hlast ⊢
    rw [step h₁ s₁ h₂, step h₂ s₂ h₃, step h₃ s₃ h₄, hlast, splitSpaces_eq_singleton h₅.chars.2.1]

theorem parseCronFields_of_spells (h : SpellsFields t e) {fields : CronFields}
    (hp : parseCronFields t = .ok fields) : fields = e.toFields ∧ e.WellFormed := by
  obtain ⟨t₁, t₂, t₃, t₄, t₅, hsplit, h₁, h₂, h₃, h₄, h₅⟩ := splitSpaces_of_spells h
  simp only [parseCronFields, hsplit, bind_eq_ok] at hp
  obtain ⟨minute, hminute, hour, hhour, dom, hdom, month, hmonth, dow, hdow, hp⟩ := hp
  obtain ⟨rfl, -⟩ := parseField_of_spells (f := .minute) h₁ hminute
  obtain ⟨rfl, -⟩ := parseField_of_spells (f := .hour) h₂ hhour
  obtain ⟨rfl, -⟩ := parseField_of_spells (f := .dayOfMonth) h₃ hdom
  obtain ⟨rfl, -⟩ := parseField_of_spells (f := .month) h₄ hmonth
  obtain ⟨rfl, hvalid⟩ := parseField_of_spells (f := .dayOfWeek) h₅ hdow
  exact ⟨(Except.ok.inj hp).symm, h₁.chars.2.2.2, h₂.chars.2.2.2, h₃.chars.2.2.2, h₄.chars.2.2.2,
    h₅.chars.2.2.2, hvalid⟩

theorem cronStep_of_spells {self : Text → Except String Text} {timezone : Option Text}
    {w t w' out : Text} (hw : ∀ c ∈ w, isSpace c = true) (hw' : ∀ c ∈ w', isSpace c = true)
    (h : SpellsFields t e)
    (hout : cronStep self timezone (w ++ t ++ w') = .ok out) (m : CalendarMinute) :
    onCalendarMatches out m = true ↔ e.Matches m := by
  obtain ⟨hne, hhead, hlast, hat⟩ := spellsFields_chars h
  rw [cronStep, trim_padded hw hw' hhead hlast hne, bind_eq_ok] at hout
  obtain ⟨-, -, hout⟩ := hout
  by_cases hzone : timezone.any (fun name => !isValidTimezone name) = true
  · rw [if_pos hzone] at hout
    cases hout
  · rw [if_neg hzone, if_neg hat, bind_eq_ok] at hout
    obtain ⟨fields, hfields, hout⟩ := hout
    obtain ⟨rfl, he⟩ := parseCronFields_of_spells h hfields
    exact renderCronFields_matches he m (by simpa using hzone) hout

/-! ## Shorthands -/

theorem spellsNumber_digit {d : Char} (h : isDigitOf 10 d = true) :
    SpellsNumber [d] (digitValue d) :=
  ⟨by simp, by simpa using h, by simp [ofDigits]⟩

theorem spellsField_single {f : CronField} (h : SpellsItem f t item) :
    SpellsField f t [item] := by
  simpa using @SpellsField.mk f [t] [item] (by simp) (.cons h .nil)

theorem spellsField_digit {d : Char} (h : isDigitOf 10 d = true) :
    SpellsField f [d] [.value (digitValue d)] :=
  spellsField_single (.value (.number (spellsNumber_digit h)))

theorem spellsField_star : SpellsField f ['*'] [.all] := spellsField_single .all

theorem separator_space : Separator [' '] := ⟨by simp, by simp; decide⟩

theorem spellsFields_join {t t₁ t₂ t₃ t₄ t₅ : Text} {e : CronExpr}
    (ht : [' '].intercalate [t₁, t₂, t₃, t₄, t₅] = t) (h₁ : SpellsField .minute t₁ e.minute)
    (h₂ : SpellsField .hour t₂ e.hour) (h₃ : SpellsField .dayOfMonth t₃ e.dayOfMonth)
    (h₄ : SpellsField .month t₄ e.month) (h₅ : SpellsField .dayOfWeek t₅ e.dayOfWeek) :
    SpellsFields t e := by
  have h := SpellsFields.mk h₁ h₂ h₃ h₄ h₅ separator_space separator_space separator_space
    separator_space
  rw [← ht]
  simpa [intercalate_cons_cons] using h

theorem exists_expansion {name : String} (h : (name, e) ∈ shorthands) :
    ∃ expansion : String, cronAliases.lookup name = some expansion ∧
      SpellsFields expansion.toList e ∧ name.toList.head? = some '@' ∧
      name.toList.all (fun c => decide (c.toNat < 128) && !isSpace c) = true := by
  have zero : ∀ f : CronField, SpellsField f ['0'] [.value 0] := fun f =>
    spellsField_digit f (d := '0') (by decide)
  have one : ∀ f : CronField, SpellsField f ['1'] [.value 1] := fun f =>
    spellsField_digit f (d := '1') (by decide)
  have star := spellsField_star
  simp only [shorthands, mem_cons, Prod.mk.injEq, not_mem_nil, or_false] at h
  rcases h with ⟨rfl, rfl⟩ | ⟨rfl, rfl⟩ | ⟨rfl, rfl⟩ | ⟨rfl, rfl⟩ | ⟨rfl, rfl⟩ | ⟨rfl, rfl⟩ |
    ⟨rfl, rfl⟩
  · exact ⟨"0 0 1 1 *", by decide, spellsFields_join (by decide) (zero _) (zero _) (one _) (one _)
      (star _), by decide, by decide⟩
  · exact ⟨"0 0 1 1 *", by decide, spellsFields_join (by decide) (zero _) (zero _) (one _) (one _)
      (star _), by decide, by decide⟩
  · exact ⟨"0 0 1 * *", by decide, spellsFields_join (by decide) (zero _) (zero _) (one _) (star _)
      (star _), by decide, by decide⟩
  · exact ⟨"0 0 * * 0", by decide, spellsFields_join (by decide) (zero _) (zero _) (star _) (star _)
      (zero _), by decide, by decide⟩
  · exact ⟨"0 0 * * *", by decide, spellsFields_join (by decide) (zero _) (zero _) (star _) (star _)
      (star _), by decide, by decide⟩
  · exact ⟨"0 0 * * *", by decide, spellsFields_join (by decide) (zero _) (zero _) (star _) (star _)
      (star _), by decide, by decide⟩
  · exact ⟨"0 * * * *", by decide, spellsFields_join (by decide) (zero _) (star _) (star _) (star _)
      (star _), by decide, by decide⟩

/-- **Cron translation preserves meaning.** For every text that spells a cron expression or a
supported shorthand, every time zone and every minute of the calendar: when the text is translated,
the calendar value elapses at the minute exactly if the expression fires at it. -/
theorem cron_translation {input : Text} {e : CronExpr} (h : SpellsCron input e)
    {timezone : Option Text} {out : Text} (hout : cronToOnCalendar input timezone = .ok out)
    (m : CalendarMinute) : onCalendarMatches out m = true ↔ e.Matches m := by
  cases h with
  | fields hw hw' h => exact cronStep_of_spells hw hw' h hout m
  | @shorthand w t w' name e hw hw' hmem hlower =>
    obtain ⟨expansion, hlookup, hspells, hat, hascii⟩ := exists_expansion hmem
    have hchars : ∀ c ∈ t.map Char.toLower, c.toNat < 128 ∧ isSpace c = false := by
      intro c hc
      rw [hlower] at hc
      simpa using all_eq_true.1 hascii c hc
    have hlow : toLowerCase t = name.toList := by
      rw [toLowerCase_eq_map fun c hc => (hchars c hc).1, hlower]
    have hspace : ∀ c ∈ t, isSpace c = false := fun c hc =>
      not_isSpace_of_toLower (hchars _ (mem_map_of_mem hc)).2
    have hhead : t.head? = some '@' := by
      rw [← hlower, head?_map, Option.map_eq_some_iff] at hat
      obtain ⟨c, hc, hcat⟩ := hat
      rw [toLower_eq_self (by rw [hcat]; decide)] at hcat
      rw [hc, hcat]
    have hne : t ≠ [] := by
      rintro rfl
      cases hhead
    have htrim := trim_padded hw hw' (fun c hc => hspace c (mem_of_mem_head? hc))
      (fun c hc => hspace c (mem_of_getLast? hc)) hne
    have hexpand : expandCronAlias t = .ok expansion.toList := by
      simp only [expandCronAlias, hlow, String.ofList_toList, hlookup]
    rw [cronToOnCalendar, cronStep, htrim, bind_eq_ok] at hout
    obtain ⟨-, -, hout⟩ := hout
    by_cases hzone : timezone.any (fun name => !isValidTimezone name) = true
    · rw [if_pos hzone] at hout
      cases hout
    · rw [if_neg hzone, if_pos hhead, hexpand] at hout
      have hinner : cronStep (fun _ => .error "") timezone ([] ++ expansion.toList ++ []) =
          .ok out := by
        rw [nil_append, append_nil]
        exact hout
      exact cronStep_of_spells (by simp) (by simp) hspells hinner m

/-- Every quarter of an hour from nine to five, on workdays. -/
def workdayExpr : CronExpr :=
  ⟨[.every 15], [.range 9 17], [.all], [.all], [.range 1 5]⟩

theorem spells_workdayExpr : SpellsFields "*/15 9-17 * * Mon-5".toList workdayExpr := by
  have hnum : ∀ {t : Text} {n : ℕ}, isDecimal t = true → ofDigits 10 t = n → SpellsNumber t n := by
    intro t n h₁ h₂
    simp only [isDecimal, Bool.and_eq_true, Bool.not_eq_true', isEmpty_eq_false_iff,
      all_eq_true] at h₁
    exact ⟨h₁.1, h₁.2, h₂⟩
  refine @spellsFields_join _ ['*', '/', '1', '5'] ['9', '-', '1', '7'] ['*'] ['*']
    ['M', 'o', 'n', '-', '5'] _ (by decide) (spellsField_single ?_) (spellsField_single ?_)
    (spellsField_star _) (spellsField_star _) (spellsField_single ?_)
  · exact .every (hnum (by decide) (by decide))
  · exact .range (t := ['9']) (.number (hnum (by decide) (by decide)))
      (.number (hnum (by decide) (by decide)))
  · exact .range (@SpellsValue.name .dayOfWeek ['M', 'o', 'n'] "mon" 1 (by decide) (by decide))
      (.number (hnum (by decide) (by decide)))

theorem cron_translation_workdays : SpellsCron "*/15 9-17 * * Mon-5".toList workdayExpr ∧
    cronToOnCalendar "*/15 9-17 * * Mon-5".toList (some "Europe/Berlin".toList) =
      .ok "Mon,Tue,Wed,Thu,Fri *-*-* 9..17:0/15:00 Europe/Berlin".toList ∧
    ∀ m, onCalendarMatches "Mon,Tue,Wed,Thu,Fri *-*-* 9..17:0/15:00 Europe/Berlin".toList m = true ↔
      workdayExpr.Matches m := by
  have hspells : SpellsCron "*/15 9-17 * * Mon-5".toList workdayExpr := by
    have h := @SpellsCron.fields [] _ [] _ (by simp) (by simp) spells_workdayExpr
    rwa [nil_append, append_nil] at h
  have hout : cronToOnCalendar "*/15 9-17 * * Mon-5".toList (some "Europe/Berlin".toList) =
      .ok "Mon,Tue,Wed,Thu,Fri *-*-* 9..17:0/15:00 Europe/Berlin".toList := by decide
  exact ⟨hspells, hout, cron_translation hspells hout⟩

end TurboPanel.Deploy
