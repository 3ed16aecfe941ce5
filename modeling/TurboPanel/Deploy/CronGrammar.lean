import TurboPanel.Deploy.CronTranslation

/-!
# The grammar that the cron parser accepts

`InGrammar` is the grammar of five-field schedules, stated on the text. The parser accepts one that
is larger (`parseCronSchedule_iff`): the names of months and weekdays are looked up in an object,
which also answers for the members that every object inherits, so `constructor` and `__proto__` are
values of these two fields. `acceptsOnlyGrammar_iff` is the exact condition.
-/

namespace TurboPanel.Deploy

open Js List

/-! ## The grammar -/

/-- A one- or two-digit number in the bounds of the field, or one of the field's names in any case.
-/
inductive GrammarValue (f : CronField) (t : Text) : ℕ → Prop
  | number {n : ℕ} (spells : SpellsNumber t n) (short : t.length ≤ 2) (lower : f.first ≤ n)
      (upper : n ≤ f.last) : GrammarValue f t n
  | name {name : String} {n : ℕ} (mem : (name, n) ∈ f.names)
      (lower : t.map Char.toLower = name.toList) : GrammarValue f t n

/-- A step: a number of at most three digits, from 1 to the size of the field. -/
def GrammarStep (f : CronField) (s : Text) : Prop :=
  ∃ n, SpellsNumber s n ∧ s.length ≤ 3 ∧ 1 ≤ n ∧ n ≤ f.last - f.first + 1

section

variable {α : Type} (f : CronField) (value : Text → α → Prop) (ordered : α → α → Prop)

/-- `v` or `v-w`. -/
inductive GrammarBody : Text → Prop
  | value {t : Text} {v : α} (spells : value t v) : GrammarBody t
  | range {t u : Text} {v w : α} (spells : value t v) (spells' : value u w) (le : ordered v w) :
      GrammarBody (t ++ '-' :: u)

/-- `*`, `*/n`, `v`, `v/n`, `v-w` or `v-w/n`. -/
inductive GrammarItem : Text → Prop
  | all : GrammarItem ['*']
  | every {s : Text} (step : GrammarStep f s) : GrammarItem (['*'] ++ '/' :: s)
  | body {t : Text} (body : GrammarBody value ordered t) : GrammarItem t
  | stepped {t s : Text} (body : GrammarBody value ordered t) (step : GrammarStep f s) :
      GrammarItem (t ++ '/' :: s)

end

/-- Five fields with white space between them, each with items between commas. -/
def FiveFields (item : CronField → Text → Prop) (schedule : Text) : Prop :=
  List.Forall₂ (fun f field => ∀ part ∈ field.splitOn ',', item f part)
    [.minute, .hour, .dayOfMonth, .month, .dayOfWeek] (splitSpaces schedule)

/-- The grammar of five-field schedules. -/
def InGrammar (schedule : Text) : Prop :=
  FiveFields (fun f => GrammarItem f (GrammarValue f) (· ≤ ·)) schedule

/-! ## Inherited names -/

/-- The members of every object whose names have no capital, as they are printed. -/
def inheritedMembers : List (String × Text) :=
  [("constructor", "function Object() \x7b [native code] \x7d".toList),
    ("__proto__", "[object Object]".toList)]

/-- A value as the parser knows it: one of the grammar, or an inherited name, in any case, in a
field that has names. -/
inductive AdmittedValue (f : CronField) (t : Text) : FieldValue → Prop
  | plain {n : ℕ} (spells : GrammarValue f t n) : AdmittedValue f t (.number n)
  | inherited {member : String × Text} (names : f.names ≠ []) (mem : member ∈ inheritedMembers)
      (lower : t.map Char.toLower = member.1.toList) : AdmittedValue f t (.inherited member.2)

/-- A range that does not run backwards, as far as `<` can tell: between a number and an inherited
member it answers no, so `constructor-__proto__` is the only such range that does. -/
def Forwards (v w : FieldValue) : Prop := w.lt v = false

/-- The larger grammar. -/
def InAdmittedGrammar (schedule : Text) : Prop :=
  FiveFields (fun f => GrammarItem f (AdmittedValue f) Forwards) schedule

/-- The values of an item: what stands before a step, split at the dash. -/
def valueTokens (item : Text) : List Text := ((item.splitOn '/').headD []).splitOn '-'

/-- `constructor` or `__proto__`, in any case. -/
def IsInheritedName (token : Text) : Prop :=
  ∃ member ∈ inheritedMembers, token.map Char.toLower = member.1.toList

/-- Some value of the schedule is an inherited name. -/
def NamesInherited (schedule : Text) : Prop :=
  ∃ field ∈ splitSpaces schedule, ∃ part ∈ field.splitOn ',', ∃ token ∈ valueTokens part,
    IsInheritedName token

/-- A schedule that is no shorthand and is accepted is in the grammar. -/
def AcceptsOnlyGrammar (input : Text) : Prop :=
  (trim input).head? ≠ some '@' → ∀ r, parseCronSchedule input = .ok r → InGrammar (trim input)

/-! ## Values -/

theorem isLower_names (f : CronField) : ∀ e ∈ f.names, ∀ c ∈ e.1.toList, c.toNat < 128 ∧ c ≠ 'k' := by
  cases f <;> simp [CronField.names]

theorem length_names (f : CronField) : ∀ e ∈ f.names, e.1.toList.length = 3 := by
  cases f <;> simp [CronField.names]

theorem ascii_inheritedMembers : ∀ m ∈ inheritedMembers, ∀ c ∈ m.1.toList, c.toNat < 128 ∧ c ≠ 'k' := by
  simp [inheritedMembers]

theorem length_inheritedMembers : ∀ m ∈ inheritedMembers, 9 ≤ m.1.toList.length := by
  simp [inheritedMembers]

variable {t : Text} {c : Char} {v : FieldValue}

theorem eq_of_toLower_digits (h : ∀ c ∈ toLowerCase t, isDigitOf 10 c = true) :
    toLowerCase t = t := by
  have hdigit : ∀ d < 10, (Nat.digitChar d).toNat < 128 ∧ Nat.digitChar d ≠ 'k' ∧
      (Nat.digitChar d).isLower = false := by decide
  have hchar : ∀ c ∈ toLowerCase t, (c.toNat < 128 ∧ c ≠ 'k') ∧ c.isLower = false := by
    intro c hc
    obtain ⟨he, hlt⟩ := eq_digitChar_of_isDigit (h c hc)
    rw [he]
    exact ⟨⟨(hdigit _ hlt).1, (hdigit _ hlt).2.1⟩, (hdigit _ hlt).2.2⟩
  have hmap := map_toLower_of_toLowerCase rfl fun c hc => (hchar c hc).1
  rw [← hmap]
  conv_rhs => rw [← map_id t]
  refine map_congr_left fun c hc => toLower_eq_self (hchar c.toLower ?_).2
  exact hmap ▸ mem_map_of_mem hc

theorem toLowerCase_eq_name {name : String} (hname : ∀ c ∈ name.toList, c.toNat < 128 ∧ c ≠ 'k') :
    toLowerCase t = name.toList ↔ t.map Char.toLower = name.toList := by
  refine ⟨fun h => map_toLower_of_toLowerCase h hname, fun h => ?_⟩
  rw [toLowerCase_eq_map, h]
  intro c hc
  rw [h] at hc
  exact (hname c hc).1

variable {f : CronField}

theorem names_eq_nil_iff : f.spec.aliases.isEmpty = true ↔ f.names = [] := by
  rw [spec_aliases, List.isEmpty_iff]

theorem alias_eq_some {token : Text} {value : FieldValue} : f.spec.alias token = some value ↔
      (∃ e ∈ f.names, token = e.1.toList ∧ value = .number e.2) ∨
        f.names ≠ [] ∧ ∃ m ∈ inheritedMembers, token = m.1.toList ∧ value = .inherited m.2 := by
  have hdisj : ∀ e ∈ f.names, ∀ m ∈ inheritedMembers, e.1.toList ≠ m.1.toList := by
    intro e he m hm heq
    have h₁ := length_names f e he
    have h₂ := length_inheritedMembers m hm
    rw [heq] at h₁
    omega
  rw [FieldSpec.alias]
  by_cases hnil : f.names = []
  · rw [if_pos (names_eq_nil_iff.2 hnil), hnil]
    simp
  · rw [if_neg (fun h => hnil (names_eq_nil_iff.1 h)), spec_aliases]
    cases hlookup : f.names.lookup (String.ofList token) with
    | some n =>
      have hmem := mem_of_lookup hlookup
      constructor
      · intro h
        exact .inl ⟨_, hmem, (String.toList_ofList).symm, (Option.some.inj h).symm⟩
      · rintro (⟨e, he, rfl, rfl⟩ | ⟨-, m, hm, rfl, -⟩)
        · rw [String.ofList_toList, (lookup_eq_some_iff (names_nodup f)).2 he] at hlookup
          rw [Option.some.inj hlookup]
        · refine absurd ?_ (hdisj _ hmem m hm)
          rw [String.toList_ofList]
    | none =>
      have hnone : ∀ e ∈ f.names, token ≠ e.1.toList := by
        rintro e he rfl
        rw [String.ofList_toList, (lookup_eq_some_iff (names_nodup f)).2 he] at hlookup
        cases hlookup
      have hright : ((∃ e ∈ f.names, token = e.1.toList ∧ value = .number e.2) ∨
          f.names ≠ [] ∧ ∃ m ∈ inheritedMembers, token = m.1.toList ∧ value = .inherited m.2) ↔
          ∃ m ∈ inheritedMembers, token = m.1.toList ∧ value = .inherited m.2 := by
        refine ⟨?_, fun h => .inr ⟨hnil, h⟩⟩
        rintro (⟨e, he, h, -⟩ | ⟨-, h⟩)
        · exact absurd h (hnone e he)
        · exact h
      rw [hright]
      simp only [inheritedMembers, mem_cons, not_mem_nil, or_false, exists_eq_or_imp,
        exists_eq_left]
      have hne : "constructor".toList ≠ "__proto__".toList := by decide
      generalize "constructor".toList = constructor at hne ⊢
      generalize "__proto__".toList = proto at hne ⊢
      generalize "function Object() \x7b [native code] \x7d".toList = function
      generalize "[object Object]".toList = object
      split_ifs with hc hp
      · simp [hc, hne, eq_comm]
      · simp [hp, hne.symm, eq_comm]
      · simp [hc, hp]

variable {n : ℕ}

theorem isShortDecimal_iff : isShortDecimal n t = true ↔
    t ≠ [] ∧ (∀ c ∈ t, isDigitOf 10 c = true) ∧ t.length ≤ n := by
  simp [isShortDecimal, isDecimal, and_assoc]

/-- **A value is read when it is an admitted one.** -/
theorem readFieldValue_iff (hspace : ∀ c ∈ t, isSpace c = false) :
    readFieldValue t f.spec = some v ↔ AdmittedValue f t v := by
  have htrim : trim t = t := trim_eq_self_of_forall hspace
  constructor
  · intro h
    cases halias : f.spec.alias (toLowerCase t) with
    | some value =>
      simp only [readFieldValue, htrim, halias] at h
      split_ifs at h
      cases h
      rcases alias_eq_some.1 halias with ⟨e, he, heq, rfl⟩ | ⟨hn, m, hm, heq, rfl⟩
      · exact .plain (.name he ((toLowerCase_eq_name (isLower_names f e he)).1 heq))
      · exact .inherited hn hm ((toLowerCase_eq_name (ascii_inheritedMembers m hm)).1 heq)
    | none =>
      simp only [readFieldValue, htrim, halias] at h
      split_ifs at h with hemp hdec hbounds
      cases h
      obtain ⟨hne, hdigits, hshort⟩ := isShortDecimal_iff.1 hdec
      have hsame := eq_of_toLower_digits hdigits
      rw [hsame] at hne hdigits hshort hbounds ⊢
      rw [spec_min, spec_max] at hbounds
      exact .plain (.number ⟨hne, hdigits, rfl⟩ hshort (by omega) (by omega))
  · intro h
    have hread : ∀ {token : Text}, toLowerCase t = token → token ≠ [] →
        f.spec.alias token = some v → readFieldValue t f.spec = some v := by
      rintro token rfl hne halias
      have hemp : (toLowerCase t).isEmpty = false := by simpa using hne
      simp [readFieldValue, htrim, hemp, halias]
    cases h with
    | plain hv =>
      cases hv with
      | number hs hshort hlower hupper =>
        have hemp : t.isEmpty = false := by simpa using hs.ne_nil
        have hdec := isShortDecimal_iff.2 ⟨hs.ne_nil, hs.digits, hshort⟩
        simp only [readFieldValue, htrim, toLowerCase_of_digits hs.digits, hemp, Bool.false_eq_true,
          if_false, alias_of_digits f hs.ne_nil hs.digits, hdec, if_true, hs.value, spec_min,
          spec_max]
        rw [if_neg (by omega)]
      | @name name n hmem hlower =>
        refine hread ((toLowerCase_eq_name (isLower_names f _ hmem)).2 hlower) ?_
          (alias_eq_some.2 (.inl ⟨_, hmem, rfl, rfl⟩))
        exact (names_lower f _ hmem).2.1
    | @inherited member hnames hmem hlower =>
      refine hread ((toLowerCase_eq_name (ascii_inheritedMembers _ hmem)).2 hlower) ?_
        (alias_eq_some.2 (.inr ⟨hnames, member, hmem, rfl, rfl⟩))
      intro hnil
      have := length_inheritedMembers _ hmem
      rw [hnil, length_nil] at this
      omega

/-! ## Characters of a value -/

/-- The characters with a meaning of their own in an item. -/
def isItemSeparator (c : Char) : Bool := c == '-' || c == '/' || c == '*' || c == ','

theorem isItemSeparator_iff :
    isItemSeparator c = true ↔ c = '-' ∨ c = '/' ∨ c = '*' ∨ c = ',' := by
  simp [isItemSeparator, or_assoc]

theorem GrammarValue.spellsValue (h : GrammarValue f t n) : SpellsValue f t n := by
  cases h with
  | number hs => exact .number hs
  | name hmem hlower => exact .name hmem hlower

theorem AdmittedValue.not_mem (h : AdmittedValue f t v) (hc : isItemSeparator c = true) : c ∉ t := by
  cases h with
  | plain hv =>
    refine hv.spellsValue.not_mem ?_
    rcases isItemSeparator_iff.1 hc with rfl | rfl | rfl | rfl <;> decide
  | @inherited member _ hmem hlower =>
    intro hmem'
    have hname := mem_map_of_mem (f := Char.toLower) hmem'
    rw [hlower] at hname
    have key : ∀ m ∈ inheritedMembers, ∀ d ∈ m.1.toList, isItemSeparator d = false := by
      simp [inheritedMembers, isItemSeparator]
    have hsep : isItemSeparator c.toLower = true := by
      rcases isItemSeparator_iff.1 hc with rfl | rfl | rfl | rfl <;> decide
    rw [key member hmem _ hname] at hsep
    cases hsep

theorem GrammarBody.not_mem (h : GrammarBody (AdmittedValue f) Forwards t)
    (hc : isItemSeparator c = true) (hdash : c ≠ '-') : c ∉ t := by
  cases h with
  | value hv => exact hv.not_mem hc
  | range hv hw =>
    simp only [mem_append, mem_cons, not_or]
    exact ⟨hv.not_mem hc, hdash, hw.not_mem hc⟩

theorem GrammarStep.not_mem {s : Text} (h : GrammarStep f s) (hc : isItemSeparator c = true) : c ∉ s := by
  obtain ⟨n, hs, -⟩ := h
  intro hmem
  have := hs.digits c hmem
  rcases isItemSeparator_iff.1 hc with rfl | rfl | rfl | rfl <;> cases this


/-! ## Items -/

theorem splitOn_two {t u : Text} (ht : c ∉ t) (hu : c ∉ u) :
    (t ++ c :: u).splitOn c = [t, u] := by
  rw [splitOn_append_cons_self, splitOn_eq_singleton ht, splitOn_eq_singleton hu]
  rfl

theorem eq_of_splitOn_one {t a : Text} (h : t.splitOn c = [a]) : t = a := by
  have := @List.intercalate_splitOn _ t _ _ c
  rw [h, intercalate_singleton] at this
  exact this.symm

theorem eq_of_splitOn_two {t a b : Text} (h : t.splitOn c = [a, b]) :
    t = a ++ c :: b := by
  have := @List.intercalate_splitOn _ t _ _ c
  rw [h, intercalate_cons_cons, intercalate_singleton] at this
  simpa using this.symm

theorem parseStepSuffix_iff {f : CronField} {raw s : Text} :
    (∃ n, parseStepSuffix raw s f.spec = .ok n) ↔ GrammarStep f s := by
  constructor
  · rintro ⟨n, h⟩
    simp only [parseStepSuffix, spec_min, spec_max] at h
    split_ifs at h with hbad hbig
    obtain ⟨hshort, hpos⟩ := not_or.1 hbad
    obtain ⟨hne, hdigits, hlen⟩ := isShortDecimal_iff.1 (by simpa using hshort)
    exact ⟨ofDigits 10 s, ⟨hne, hdigits, rfl⟩, hlen, by omega, by omega⟩
  · rintro ⟨n, hs, hlen, hpos, hle⟩
    have hshort := isShortDecimal_iff.2 ⟨hs.ne_nil, hs.digits, hlen⟩
    refine ⟨n, ?_⟩
    simp only [parseStepSuffix, hshort, hs.value, spec_min, spec_max, Bool.true_eq_false, false_or]
    rw [if_neg (by omega), if_neg (by omega)]

theorem parseAnchoredItem_iff {raw t : Text} {step : Option ℕ}
    (hspace : ∀ c ∈ t, isSpace c = false) : (∃ p, parseAnchoredItem raw t f.spec step = .ok p) ↔
      GrammarBody (AdmittedValue f) Forwards t := by
  constructor
  · rintro ⟨p, h⟩
    unfold parseAnchoredItem at h
    split at h
    · rename_i a hsplit
      obtain rfl := eq_of_splitOn_one hsplit
      cases hv : readFieldValue t f.spec with
      | none =>
        rw [hv] at h
        cases h
      | some v => exact .value ((readFieldValue_iff hspace).1 hv)
    · rename_i a b hsplit
      obtain rfl := eq_of_splitOn_two hsplit
      cases hv : readFieldValue a f.spec with
      | none =>
        rw [hv] at h
        cases h
      | some v =>
        cases hw : readFieldValue b f.spec with
        | none =>
          rw [hv, hw] at h
          cases h
        | some w =>
          rw [hv, hw] at h
          dsimp only at h
          split_ifs at h with hlt
          have ha := (readFieldValue_iff fun c hc => hspace c (by simp [hc])).1 hv
          have hb := (readFieldValue_iff fun c hc => hspace c (by simp [hc])).1 hw
          exact .range ha hb (by simpa [Forwards] using hlt)
    · cases h
  · intro h
    cases h with
    | value hv =>
      rw [parseAnchoredItem, splitOn_eq_singleton (hv.not_mem (by decide))]
      simp only [(readFieldValue_iff hspace).2 hv]
      cases step with
      | none => exact ⟨_, rfl⟩
      | some n => exact ⟨_, rfl⟩
    | range hv hw hle =>
      have ha := (readFieldValue_iff fun c hc => hspace c (by simp [hc])).2 hv
      have hb := (readFieldValue_iff fun c hc => hspace c (by simp [hc])).2 hw
      rw [parseAnchoredItem, splitOn_two (hv.not_mem (by decide)) (hw.not_mem (by decide))]
      simp only [ha, hb, show _ = false from hle, Bool.false_eq_true, if_false]
      cases step with
      | none => exact ⟨_, rfl⟩
      | some n => exact ⟨_, rfl⟩

theorem parseFieldBody_iff {f : CronField} {raw t : Text} {step : Option ℕ}
    (hspace : ∀ c ∈ t, isSpace c = false) :
    (∃ p, parseFieldBody raw t f.spec step = .ok p) ↔
      t = ['*'] ∨ GrammarBody (AdmittedValue f) Forwards t := by
  rw [parseFieldBody, trim_eq_self_of_forall hspace]
  split_ifs with hstar
  · exact iff_of_true ⟨_, rfl⟩ (.inl hstar)
  · rw [parseAnchoredItem_iff hspace]
    exact ⟨.inr, fun h => h.resolve_left hstar⟩

/-- **An item is parsed when it is in the larger grammar.** -/
theorem parseFieldItem_iff (hspace : ∀ c ∈ t, isSpace c = false) :
    (∃ p, parseFieldItem t f.spec = .ok p) ↔ GrammarItem f (AdmittedValue f) Forwards t := by
  constructor
  · rintro ⟨p, h⟩
    unfold parseFieldItem at h
    split at h
    · rename_i body hsplit
      obtain rfl := eq_of_splitOn_one hsplit
      rcases (parseFieldBody_iff hspace).1 ⟨p, h⟩ with rfl | hbody
      · exact .all
      · exact .body hbody
    · rename_i body s hsplit
      obtain rfl := eq_of_splitOn_two hsplit
      obtain ⟨n, hn, hbody⟩ := bind_eq_ok.1 h
      have hstep := parseStepSuffix_iff.1 ⟨n, hn⟩
      rcases (parseFieldBody_iff fun c hc => hspace c (by simp [hc])).1 ⟨p, hbody⟩ with rfl | hb
      · exact .every hstep
      · exact .stepped hb hstep
    · cases h
  · intro h
    have hstepped : ∀ {body s : Text}, '/' ∉ body → GrammarStep f s →
        body = ['*'] ∨ GrammarBody (AdmittedValue f) Forwards body →
        (∀ c ∈ body ++ '/' :: s, isSpace c = false) →
        ∃ p, parseFieldItem (body ++ '/' :: s) f.spec = .ok p := by
      intro body s hslash hstep hbody hsp
      rw [parseFieldItem, splitOn_two hslash (hstep.not_mem (by decide))]
      obtain ⟨n, hn⟩ := (@parseStepSuffix_iff f (body ++ '/' :: s) s).2 hstep
      obtain ⟨p, hp⟩ := (@parseFieldBody_iff f (body ++ '/' :: s) body (some n)
        fun c hc => hsp c (by simp [hc])).2 hbody
      exact ⟨p, bind_eq_ok.2 ⟨n, hn, hp⟩⟩
    cases h with
    | all =>
      rw [parseFieldItem, splitOn_eq_singleton (by decide)]
      exact (parseFieldBody_iff hspace).2 (.inl rfl)
    | every hstep => exact hstepped (by decide) hstep (.inl rfl) hspace
    | body hb =>
      rw [parseFieldItem, splitOn_eq_singleton (hb.not_mem (by decide) (by decide))]
      exact (parseFieldBody_iff hspace).2 (.inr hb)
    | stepped hb hstep =>
      exact hstepped (hb.not_mem (by decide) (by decide)) hstep (.inr hb) hspace

/-! ## Fields and schedules -/

theorem mem_intercalate_of_mem {sep c : Char} {part : Text} (hc : c ∈ part) : ∀ {parts : List Text},
    part ∈ parts → c ∈ [sep].intercalate parts
  | [p], h => by
    rw [mem_singleton] at h
    rwa [intercalate_singleton, ← h]
  | p :: q :: parts, h => by
    rw [intercalate_cons_cons, mem_append, mem_append]
    rcases mem_cons.1 h with rfl | h
    · exact .inl (.inl hc)
    · exact .inr (mem_intercalate_of_mem hc h)

theorem mem_of_mem_splitOn {sep c : Char} {t part : Text} (h : part ∈ t.splitOn sep)
    (hc : c ∈ part) : c ∈ t := by
  rw [← @List.intercalate_splitOn _ t _ _ sep]
  exact mem_intercalate_of_mem hc h

theorem parseField_iff (hspace : ∀ c ∈ t, isSpace c = false) :
    (∃ items, parseField t f.spec = .ok items) ↔
      ∀ part ∈ t.splitOn ',', GrammarItem f (AdmittedValue f) Forwards part := by
  have hparts : ∀ part ∈ t.splitOn ',', ∀ c ∈ part, isSpace c = false := by
    intro part hpart c hc
    exact hspace c (mem_of_mem_splitOn hpart hc)
  constructor
  · rintro ⟨items, h⟩ part hpart
    exact (parseFieldItem_iff (hparts part hpart)).1 (exists_of_mapM_ok h part hpart)
  · intro h
    exact exists_mapM_ok fun part hpart => (parseFieldItem_iff (hparts part hpart)).2 (h part hpart)

theorem parseCronFields_iff :
    (∃ fields, parseCronFields t = .ok fields) ↔ InAdmittedGrammar t := by
  have hspace : ∀ field ∈ splitSpaces t, ∀ c ∈ field, isSpace c = false := fun field hfield =>
    not_isSpace_of_mem_splitSpaces hfield
  unfold InAdmittedGrammar FiveFields
  constructor
  · rintro ⟨fields, h⟩
    unfold parseCronFields at h
    split at h
    · rename_i t₁ t₂ t₃ t₄ t₅ hsplit
      rw [hsplit] at hspace ⊢
      simp only [bind_eq_ok] at h
      obtain ⟨minute, h₁, hour, h₂, dom, h₃, month, h₄, dow, h₅, -⟩ := h
      exact .cons ((parseField_iff (hspace _ (by simp))).1 ⟨minute, h₁⟩)
        (.cons ((parseField_iff (hspace _ (by simp))).1 ⟨hour, h₂⟩)
        (.cons ((parseField_iff (hspace _ (by simp))).1 ⟨dom, h₃⟩)
        (.cons ((parseField_iff (hspace _ (by simp))).1 ⟨month, h₄⟩)
        (.cons ((parseField_iff (hspace _ (by simp))).1 ⟨dow, h₅⟩) .nil))))
    · cases h
  · intro h
    rw [parseCronFields]
    generalize splitSpaces t = fields at h hspace ⊢
    obtain _ | ⟨h₁, _ | ⟨h₂, _ | ⟨h₃, _ | ⟨h₄, _ | ⟨h₅, _ | _⟩⟩⟩⟩⟩ := h
    rename_i t₁ t₂ t₃ t₄ t₅
    obtain ⟨minute, h₁⟩ := (parseField_iff (f := .minute) (hspace t₁ (by simp))).2 h₁
    obtain ⟨hour, h₂⟩ := (parseField_iff (f := .hour) (hspace t₂ (by simp))).2 h₂
    obtain ⟨dom, h₃⟩ := (parseField_iff (f := .dayOfMonth) (hspace t₃ (by simp))).2 h₃
    obtain ⟨month, h₄⟩ := (parseField_iff (f := .month) (hspace t₄ (by simp))).2 h₄
    obtain ⟨dow, h₅⟩ := (parseField_iff (f := .dayOfWeek) (hspace t₅ (by simp))).2 h₅
    simp only [bind_eq_ok]
    exact ⟨_, minute, h₁, hour, h₂, dom, h₃, month, h₄, dow, h₅, rfl⟩

theorem trim_ne_nil_of_inAdmittedGrammar (h : InAdmittedGrammar t) : t ≠ [] := by
  rintro rfl
  have := h.length_eq
  simp [splitSpaces] at this

/-- **What is accepted**: a schedule of the larger grammar that is not too long. -/
theorem parseCronSchedule_iff {input : Text} (hat : (trim input).head? ≠ some '@') :
    (∃ r, parseCronSchedule input = .ok r) ↔
      utf16Length (trim input) ≤ 200 ∧ InAdmittedGrammar (trim input) := by
  rw [← parseCronFields_iff]
  simp only [parseCronSchedule, bind_eq_ok, if_neg hat]
  constructor
  · rintro ⟨r, u, hcheck, fields, hfields, -⟩
    refine ⟨?_, fields, hfields⟩
    unfold checkSchedule at hcheck
    split_ifs at hcheck with hemp hlong
    omega
  · rintro ⟨hlen, fields, hfields⟩
    have hne := trim_ne_nil_of_inAdmittedGrammar (parseCronFields_iff.1 ⟨fields, hfields⟩)
    have hemp : (trim input).isEmpty = false := by simpa using hne
    refine ⟨trim input, (), ?_, fields, hfields, rfl⟩
    rw [checkSchedule, hemp, if_neg Bool.false_ne_true, if_neg (by omega)]

/-! ## The two grammars -/

theorem GrammarValue.length_le (h : GrammarValue f t n) : t.length ≤ 3 := by
  cases h with
  | number _ hshort => omega
  | name hmem hlower =>
    have := congrArg List.length hlower
    rw [length_map, length_names f _ hmem] at this
    omega

theorem not_isInheritedName_of_length (h : t.length ≤ 3) : ¬IsInheritedName t := by
  rintro ⟨m, hm, hlower⟩
  have h₁ := congrArg List.length hlower
  have h₂ := length_inheritedMembers m hm
  rw [length_map] at h₁
  omega

theorem AdmittedValue.exists_number (h : AdmittedValue f t v) (hname : ¬IsInheritedName t) :
    ∃ n, v = .number n ∧ GrammarValue f t n := by
  cases h with
  | plain hv => exact ⟨_, rfl, hv⟩
  | inherited _ hmem hlower => exact absurd ⟨_, hmem, hlower⟩ hname

theorem forwards_number {m : ℕ} : Forwards (.number m) (.number n) ↔ m ≤ n := by
  simp [Forwards, FieldValue.lt]

theorem grammarBody_iff : GrammarBody (GrammarValue f) (· ≤ ·) t ↔
    GrammarBody (AdmittedValue f) Forwards t ∧ ∀ token ∈ t.splitOn '-', ¬IsInheritedName token := by
  constructor
  · intro h
    cases h with
    | value hv =>
      refine ⟨.value (.plain hv), ?_⟩
      rw [splitOn_eq_singleton ((AdmittedValue.plain hv).not_mem (by decide))]
      simpa using not_isInheritedName_of_length hv.length_le
    | range hv hw hle =>
      refine ⟨.range (.plain hv) (.plain hw) (forwards_number.2 hle), ?_⟩
      rw [splitOn_two ((AdmittedValue.plain hv).not_mem (by decide))
        ((AdmittedValue.plain hw).not_mem (by decide))]
      simpa using ⟨not_isInheritedName_of_length hv.length_le,
        not_isInheritedName_of_length hw.length_le⟩
  · rintro ⟨h, hnames⟩
    cases h with
    | value hv =>
      rw [splitOn_eq_singleton (hv.not_mem (by decide))] at hnames
      obtain ⟨n, -, hn⟩ := hv.exists_number (hnames t (by simp))
      exact .value hn
    | range hv hw hle =>
      rw [splitOn_two (hv.not_mem (by decide)) (hw.not_mem (by decide))] at hnames
      obtain ⟨m, rfl, hm⟩ := hv.exists_number (hnames _ (by simp))
      obtain ⟨n, rfl, hn⟩ := hw.exists_number (hnames _ (by simp))
      exact .range hm hn (forwards_number.1 hle)

theorem valueTokens_body (h : '/' ∉ t) : valueTokens t = t.splitOn '-' := by
  rw [valueTokens, splitOn_eq_singleton h]
  rfl

theorem valueTokens_stepped {t s : Text} (h : '/' ∉ t) (hs : '/' ∉ s) :
    valueTokens (t ++ '/' :: s) = t.splitOn '-' := by
  rw [valueTokens, splitOn_two h hs]
  rfl

theorem grammarItem_iff : GrammarItem f (GrammarValue f) (· ≤ ·) t ↔
    GrammarItem f (AdmittedValue f) Forwards t ∧ ∀ token ∈ valueTokens t, ¬IsInheritedName token := by
  have hstar : ∀ token ∈ (['*'] : Text).splitOn '-', ¬IsInheritedName token := by
    rw [splitOn_eq_singleton (by decide)]
    simpa using not_isInheritedName_of_length (show (['*'] : Text).length ≤ 3 by decide)
  constructor
  · intro h
    cases h with
    | all => exact ⟨.all, by rw [valueTokens_body (by decide)]; exact hstar⟩
    | every hs =>
      refine ⟨.every hs, ?_⟩
      rw [valueTokens_stepped (by decide) (hs.not_mem (by decide))]
      exact hstar
    | body hb =>
      obtain ⟨hb', hnames⟩ := grammarBody_iff.1 hb
      refine ⟨.body hb', ?_⟩
      rwa [valueTokens_body (hb'.not_mem (by decide) (by decide))]
    | stepped hb hs =>
      obtain ⟨hb', hnames⟩ := grammarBody_iff.1 hb
      refine ⟨.stepped hb' hs, ?_⟩
      rwa [valueTokens_stepped (hb'.not_mem (by decide) (by decide)) (hs.not_mem (by decide))]
  · rintro ⟨h, hnames⟩
    cases h with
    | all => exact .all
    | every hs => exact .every hs
    | body hb =>
      rw [valueTokens_body (hb.not_mem (by decide) (by decide))] at hnames
      exact .body (grammarBody_iff.2 ⟨hb, hnames⟩)
    | stepped hb hs =>
      rw [valueTokens_stepped (hb.not_mem (by decide) (by decide)) (hs.not_mem (by decide))]
        at hnames
      exact .stepped (grammarBody_iff.2 ⟨hb, hnames⟩) hs

theorem forall₂_and_iff {α β : Type} {R : α → β → Prop} {p : β → Prop} {l : List α} {r : List β} :
    List.Forall₂ (fun a b => R a b ∧ p b) l r ↔ List.Forall₂ R l r ∧ ∀ b ∈ r, p b := by
  constructor
  · intro h
    induction h with
    | nil => simp
    | cons hhead _ ih => exact ⟨.cons hhead.1 ih.1, by simpa using ⟨hhead.2, ih.2⟩⟩
  · rintro ⟨h, hp⟩
    induction h with
    | nil => exact .nil
    | cons hhead _ ih =>
      exact .cons ⟨hhead, hp _ (by simp)⟩ (ih fun b hb => hp b (mem_cons_of_mem _ hb))

theorem inGrammar_iff {schedule : Text} :
    InGrammar schedule ↔ InAdmittedGrammar schedule ∧ ¬NamesInherited schedule := by
  have hnames : ¬NamesInherited schedule ↔ ∀ field ∈ splitSpaces schedule,
      ∀ part ∈ field.splitOn ',', ∀ token ∈ valueTokens part, ¬IsInheritedName token := by
    simp only [NamesInherited, not_exists, not_and]
  rw [hnames, InGrammar, InAdmittedGrammar, FiveFields, FiveFields, ← forall₂_and_iff]
  simp only [grammarItem_iff, forall_and]

/-! ## When the parser keeps to the grammar -/

/-- **The grammar of the parser.** A schedule that is no shorthand and is accepted is in the
grammar, exactly when it is not a schedule of at most 200 units in which `constructor` or
`__proto__` stands for a month or a weekday (and no range is `constructor-__proto__`) and all else
is in the grammar. -/
theorem acceptsOnlyGrammar_iff (input : Text) : AcceptsOnlyGrammar input ↔
    ¬((trim input).head? ≠ some '@' ∧ utf16Length (trim input) ≤ 200 ∧
      InAdmittedGrammar (trim input) ∧ NamesInherited (trim input)) := by
  constructor
  · rintro h ⟨hat, hlen, hadmitted, hnames⟩
    obtain ⟨r, hr⟩ := (parseCronSchedule_iff hat).2 ⟨hlen, hadmitted⟩
    exact (inGrammar_iff.1 (h hat r hr)).2 hnames
  · intro hcond hat r hr
    obtain ⟨hlen, hadmitted⟩ := (parseCronSchedule_iff hat).1 ⟨r, hr⟩
    exact inGrammar_iff.2 ⟨hadmitted, fun hnames => hcond ⟨hat, hlen, hadmitted, hnames⟩⟩

/-- `constructor` is taken for a month. -/
theorem constructor_month_accepted :
    parseCronSchedule "* * * constructor *".toList = .ok "* * * constructor *".toList ∧
      ¬AcceptsOnlyGrammar "* * * constructor *".toList := by
  have haccepted : parseCronSchedule "* * * constructor *".toList =
      .ok "* * * constructor *".toList := by decide
  refine ⟨haccepted, fun h => ?_⟩
  have hgrammar := h (by decide) _ haccepted
  refine (inGrammar_iff.1 hgrammar).2 ⟨"constructor".toList, by decide, "constructor".toList,
    by decide, "constructor".toList, by decide, _, mem_cons_self, by decide⟩

end TurboPanel.Deploy
