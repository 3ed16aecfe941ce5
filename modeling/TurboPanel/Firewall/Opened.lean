import TurboPanel.Firewall.Derive

/-!
# What the derived firewall opens

The rule of an exposure is the first one with its id (`get?_gatherExposures`), so a later exposure
with the same id is dropped without a note, whatever its destination, its scope or its peers are.
Apart from that, each exposure is noted or opened, and each rule is the rule of an exposure or of an
edict (`derivation_faithful_iff`).
-/

namespace TurboPanel.Firewall

open Js Ip List

variable (c : Collation)

/-! ## The claim -/

/-- The rule accepts what the exposure listens for, from these sources at least. -/
def Opens (rule : FirewallCommandRule) (exposure : DerivedExposure) (sources : List Text) : Prop :=
  rule.action = .accept ∧ rule.scope = exposure.scope ∧ rule.proto = exposure.proto.rule ∧
    rule.ports = some exposure.ports ∧ rule.destinations = exposure.destination.map ([·]) ∧
    ∀ source ∈ sources, source ∈ rule.sources

/-- The rules are those of the exposures and the edicts, and nothing is lost silently. -/
structure Faithful (input : FirewallDeriveInput) : Prop where
  /-- An exposure is noted, or opened. -/
  accounted : ∀ exposure ∈ input.exposures,
    (∃ reason, resolveReach c exposure input.sources = .reason reason ∧
      notSentNote exposure reason ∈ (deriveFirewall c input).notes) ∨
    ∃ sources, resolveReach c exposure input.sources = .sources sources ∧
      ∃ rule ∈ (deriveFirewall c input).rules, Opens rule exposure sources
  /-- A derived rule is that of one exposure. -/
  derived : ∀ rule ∈ (deriveFirewall c input).rules, rule.origin = .derived →
    ∃ exposure ∈ input.exposures, ∃ sources, resolveReach c exposure input.sources = .sources sources ∧
      rule.scope = exposure.scope ∧ rule.proto = exposure.proto.rule ∧ rule.ports = some exposure.ports ∧
      rule.destinations = exposure.destination.map ([·]) ∧ rule.sources = sources
  ids : ((deriveFirewall c input).rules.map (·.id)).Nodup
  /-- Anyone is let in only where the exposure or the edict says so. -/
  any : ∀ rule ∈ (deriveFirewall c input).rules, anyText ∈ rule.sources →
    (∃ exposure ∈ input.exposures, exposure.reach = .anyone ∧ rule = exposureRule exposure [anyText]) ∨
    ∃ edict ∈ input.edicts, edict.sourceKind = .any ∧ rule = edictRule edict [anyText]

/-- The source sets and the stored addresses are addresses and blocks. -/
structure ValidSources (input : FirewallDeriveInput) : Prop where
  words : ∀ word : SourceWord, ∀ address ∈ word.set input.sources, ValidAddress address
  edicts : ∀ edict ∈ input.edicts, ∀ address ∈ edict.sourceAddresses, ValidAddress address

/-! ## The condition -/

/-- The sources of the exposure, where they can be resolved. -/
def resolved? (sets : FirewallSourceSets) (exposure : DerivedExposure) : Option (List Text) :=
  match resolveReach c exposure sets with
  | .sources sources => some sources
  | .reason _ => none

def resolvedEdict? (sets : FirewallSourceSets) (edict : EdictFact) : Option (List Text) :=
  match resolveEdictSources c edict sets with
  | .sources sources => some sources
  | .reason _ => none

/-- No exposure that is resolved comes before it with its id. -/
def FirstWithId (input : FirewallDeriveInput) (exposure : DerivedExposure) : Prop :=
  input.exposures.find? (fun other => (resolved? c input.sources other).isSome &&
    decide (exposureRuleId other = exposureRuleId exposure)) = some exposure

/-- An exposure that comes first with its id lets in all that another does. -/
def CoveredByExposure (input : FirewallDeriveInput) (exposure : DerivedExposure) (sources : List Text) : Prop :=
  ∃ first ∈ input.exposures, FirstWithId c input first ∧ first.scope = exposure.scope ∧
    first.proto = exposure.proto ∧ first.ports = exposure.ports ∧ first.destination = exposure.destination ∧
    ∃ firstSources ∈ resolved? c input.sources first, ∀ source ∈ sources, source ∈ firstSources

/-- An edict lets in all that an exposure does. -/
def CoveredByEdict (input : FirewallDeriveInput) (exposure : DerivedExposure) (sources : List Text) : Prop :=
  ∃ edict ∈ input.edicts, edict.action = .accept ∧ edict.scope = exposure.scope ∧
    edict.proto = exposure.proto.rule ∧ edict.ports = some exposure.ports ∧ exposure.destination = none ∧
    ∃ edictSources ∈ resolvedEdict? c input.sources edict, ∀ source ∈ sources, source ∈ edictSources

/-- An exposure that is not the first with its id is covered by another, and edicts have different
ids. -/
structure IdsSeparate (input : FirewallDeriveInput) : Prop where
  exposures : ∀ exposure ∈ input.exposures, ∀ sources ∈ resolved? c input.sources exposure,
    ¬FirstWithId c input exposure →
      CoveredByExposure c input exposure sources ∨ CoveredByEdict c input exposure sources
  edicts : ((input.edicts.filter fun edict => (resolvedEdict? c input.sources edict).isSome).map edictRuleId).Nodup

/-! ## The rules -/

variable {c}

/-- The rule that an exposure would have. -/
def ruleOf? (c : Collation) (sets : FirewallSourceSets) (exposure : DerivedExposure) : Option FirewallCommandRule :=
  (resolved? c sets exposure).map (exposureRule exposure)

variable {rule : FirewallCommandRule} {sources : List Text} {edict : EdictFact} (exposure : DerivedExposure)
  (input : FirewallDeriveInput) (sets : FirewallSourceSets) (edicts : List EdictFact)
  (gathered : List FirewallCommandRule × List Text) (exposures : List DerivedExposure)

theorem ruleOf?_eq_some {sets : FirewallSourceSets} {exposure : DerivedExposure} :
    ruleOf? c sets exposure = some rule ↔
      ∃ sources, resolveReach c exposure sets = .sources sources ∧ rule = exposureRule exposure sources := by
  rw [ruleOf?, Option.map_eq_some_iff, resolved?]
  split
  · rename_i sources hresolve
    rw [hresolve]
    constructor
    · rintro ⟨_, heq, rfl⟩
      cases heq
      exact ⟨sources, rfl, rfl⟩
    · rintro ⟨_, heq, rfl⟩
      cases heq
      exact ⟨sources, rfl, rfl⟩
  · rename_i reason hresolve
    rw [hresolve]
    constructor
    · rintro ⟨_, heq, -⟩
      cases heq
    · rintro ⟨_, heq, -⟩
      cases heq

/-- **The first rule with an id is kept.** -/
theorem get?_gatherExposures (gathered : Gathered) (id : Text) :
    (exposures.foldl (gatherExposure c sets) gathered).1.get? id =
      (gathered.1.get? id <|> (exposures.filterMap (ruleOf? c sets)).find? fun rule => decide (rule.id = id)) := by
  induction exposures generalizing gathered with
  | nil => simp
  | cons exposure exposures ih =>
    rw [foldl_cons, ih, gatherExposure]
    cases hresolve : resolveReach c exposure sets with
    | reason reason =>
      have hnone : ruleOf? c sets exposure = none := by
        rw [ruleOf?, resolved?, hresolve]
        rfl
      rw [filterMap_cons_none hnone]
    | sources sources =>
      have hsome : ruleOf? c sets exposure = some (exposureRule exposure sources) :=
        ruleOf?_eq_some.2 ⟨sources, hresolve, rfl⟩
      rw [filterMap_cons_some hsome, find?_cons]
      dsimp only
      by_cases hid : (exposureRule exposure sources).id = id
      · rw [decide_eq_true hid]
        split
        · rename_i hhas
          obtain ⟨rule, hrule⟩ := Map.has_iff.1 hhas
          rw [hid] at hrule
          rw [hrule]
          rfl
        · rename_i hhas
          have hnone := Map.has_eq_false.1 (Bool.eq_false_of_not_eq_true hhas)
          rw [hid] at hnone ⊢
          rw [Map.get?_set_self, hnone]
          rfl
      · rw [decide_eq_false hid]
        split
        · rfl
        · rw [Map.get?_set_of_ne (Ne.symm hid)]

theorem mem_gatherExposures_notes (gathered : Gathered) {note : Text} :
    note ∈ (exposures.foldl (gatherExposure c sets) gathered).2 ↔
      note ∈ gathered.2 ∨ ∃ exposure ∈ exposures, ∃ reason,
        resolveReach c exposure sets = .reason reason ∧ note = notSentNote exposure reason := by
  induction exposures generalizing gathered with
  | nil => simp
  | cons exposure exposures ih =>
    rw [foldl_cons, ih, gatherExposure]
    cases hresolve : resolveReach c exposure sets with
    | reason reason =>
      rw [mem_append, mem_singleton, exists_mem_cons_iff, hresolve, or_assoc]
      refine or_congr_right (or_congr_left ?_)
      constructor
      · rintro rfl
        exact ⟨reason, rfl, rfl⟩
      · rintro ⟨_, heq, rfl⟩
        cases heq
        rfl
    | sources sources =>
      have hnone : ¬∃ reason, resolveReach c exposure sets = .reason reason ∧ note = notSentNote exposure reason := by
        rintro ⟨reason, heq, -⟩
        cases hresolve.symm.trans heq
      have hnotes : (if gathered.1.has (exposureRule exposure sources).id then gathered else
          (gathered.1.set (exposureRule exposure sources).id (exposureRule exposure sources), gathered.2)).2 =
            gathered.2 := by
        split <;> rfl
      dsimp only
      rw [hnotes, exists_mem_cons_iff, or_iff_right hnone]

/-- The rules that edicts would have. -/
def edictRuleOf? (c : Collation) (sets : FirewallSourceSets) (edict : EdictFact) : Option FirewallCommandRule :=
  (resolvedEdict? c sets edict).map (edictRule edict)

theorem edictRuleOf?_eq_some {sets : FirewallSourceSets} :
    edictRuleOf? c sets edict = some rule ↔
      ∃ sources, resolveEdictSources c edict sets = .sources sources ∧ rule = edictRule edict sources := by
  rw [edictRuleOf?, Option.map_eq_some_iff, resolvedEdict?]
  split
  · rename_i sources hresolve
    rw [hresolve]
    constructor
    · rintro ⟨_, heq, rfl⟩
      cases heq
      exact ⟨sources, rfl, rfl⟩
    · rintro ⟨_, heq, rfl⟩
      cases heq
      exact ⟨sources, rfl, rfl⟩
  · rename_i reason hresolve
    rw [hresolve]
    constructor
    · rintro ⟨_, heq, -⟩
      cases heq
    · rintro ⟨_, heq, -⟩
      cases heq

theorem gatherEdicts_rules :
    (edicts.foldl (gatherEdict c sets) gathered).1 = gathered.1 ++ edicts.filterMap (edictRuleOf? c sets) := by
  induction edicts generalizing gathered with
  | nil => simp
  | cons edict edicts ih =>
    rw [foldl_cons, ih, gatherEdict]
    cases hresolve : resolveEdictSources c edict sets with
    | reason reason =>
      have hnone : edictRuleOf? c sets edict = none := by
        rw [edictRuleOf?, resolvedEdict?, hresolve]
        rfl
      rw [filterMap_cons_none hnone]
    | sources sources =>
      rw [filterMap_cons_some (edictRuleOf?_eq_some.2 ⟨sources, hresolve, rfl⟩), append_assoc]
      rfl

theorem gatherEdicts_notes {note : Text} (h : note ∈ gathered.2) :
    note ∈ (edicts.foldl (gatherEdict c sets) gathered).2 := by
  induction edicts generalizing gathered with
  | nil => exact h
  | cons edict edicts ih =>
    rw [foldl_cons]
    refine ih _ ?_
    rw [gatherEdict]
    split
    · exact mem_append_left _ h
    · exact h

/-! ## Rule ids -/

theorem replaceUnsafe_append (safe : Char → Bool) (a b : Text) :
    replaceUnsafe safe (a ++ b) = replaceUnsafe safe a ++ replaceUnsafe safe b := flatMap_append

theorem head?_exposureRuleId : (exposureRuleId exposure).head? = some 'd' := by
  have hd : replaceUnsafe isIdSafe "d:".toList = ['d', ':'] := rfl
  rw [exposureRuleId]
  simp only [append_assoc]
  rw [replaceUnsafe_append, hd]
  rfl

theorem head?_edictRuleId (edict : EdictFact) : (edictRuleId edict).head? = some 'u' := by
  have hu : replaceUnsafe isIdSafe "u:".toList = ['u', ':'] := rfl
  rw [edictRuleId, replaceUnsafe_append, hu]
  rfl

theorem exposureRuleId_ne_edictRuleId (edict : EdictFact) :
    exposureRuleId exposure ≠ edictRuleId edict := by
  intro heq
  have hhead := head?_exposureRuleId exposure
  rw [heq, head?_edictRuleId] at hhead
  cases hhead

theorem id_of_ruleOf? {sets : FirewallSourceSets} {exposure : DerivedExposure}
    (h : ruleOf? c sets exposure = some rule) : rule.id = exposureRuleId exposure := by
  obtain ⟨sources, -, rfl⟩ := ruleOf?_eq_some.1 h
  rfl

theorem find?_filterMap_ruleOf? (id : Text) :
    (exposures.filterMap (ruleOf? c sets)).find? (fun rule => decide (rule.id = id)) =
      (exposures.find? fun other => (resolved? c sets other).isSome && decide (exposureRuleId other = id)).bind
        (ruleOf? c sets) := by
  induction exposures with
  | nil => rfl
  | cons exposure exposures ih =>
    cases hrule : ruleOf? c sets exposure with
    | none =>
      have hnone : (resolved? c sets exposure).isSome = false := by
        rw [ruleOf?, Option.map_eq_none_iff] at hrule
        rw [hrule]
        rfl
      rw [filterMap_cons_none hrule, ih, find?_cons, hnone, Bool.false_and]
    | some rule =>
      have hsome : (resolved? c sets exposure).isSome = true := by
        rw [ruleOf?, Option.map_eq_some_iff] at hrule
        obtain ⟨sources, hsources, -⟩ := hrule
        rw [hsources]
        rfl
      rw [filterMap_cons_some hrule, find?_cons, find?_cons, hsome, Bool.true_and, id_of_ruleOf? hrule]
      cases decide (exposureRuleId exposure = id) with
      | true => exact hrule.symm
      | false => exact ih

theorem get?_gathered (id : Text) :
    (gatherExposures c input.exposures input.sources []).1.get? id =
      (input.exposures.find? fun other => (resolved? c input.sources other).isSome &&
        decide (exposureRuleId other = id)).bind (ruleOf? c input.sources) := by
  rw [gatherExposures, get?_gatherExposures, find?_filterMap_ruleOf?]
  rfl

/-- **The derived rules are those of the exposures that come first with their ids.** -/
theorem mem_derivedRules {input : FirewallDeriveInput} :
    rule ∈ (derivedRules c input.exposures input.sources []).1 ↔
      ∃ first ∈ input.exposures, FirstWithId c input first ∧ ruleOf? c input.sources first = some rule := by
  rw [derivedRules]
  dsimp only
  rw [mem_toSortedBy, mem_map]
  constructor
  · rintro ⟨⟨id, _⟩, hentry, rfl⟩
    rw [← Map.get?_eq_some_iff, get?_gathered, Option.bind_eq_some_iff] at hentry
    obtain ⟨first, hfind, hrule⟩ := hentry
    have hid := find?_some hfind
    rw [Bool.and_eq_true, decide_eq_true_eq] at hid
    refine ⟨first, mem_of_find?_eq_some hfind, ?_, hrule⟩
    rw [FirstWithId, hid.2]
    exact hfind
  · rintro ⟨first, -, hfirst, hrule⟩
    refine ⟨(exposureRuleId first, rule), ?_, rfl⟩
    rw [FirstWithId] at hfirst
    rw [← Map.get?_eq_some_iff, get?_gathered, hfirst]
    exact hrule

theorem id_of_mem_gathered {input : FirewallDeriveInput} {id : Text}
    (h : (id, rule) ∈ (gatherExposures c input.exposures input.sources []).1.entries) : rule.id = id := by
  rw [← Map.get?_eq_some_iff, get?_gathered, Option.bind_eq_some_iff] at h
  obtain ⟨first, hfind, hrule⟩ := h
  have hid := find?_some hfind
  rw [Bool.and_eq_true, decide_eq_true_eq] at hid
  rw [id_of_ruleOf? hrule, hid.2]

theorem nodup_derivedRules :
    ((derivedRules c input.exposures input.sources []).1.map (·.id)).Nodup := by
  rw [derivedRules]
  dsimp only
  have hperm := (perm_insertionSort (fun a b : FirewallCommandRule =>
    c.compare (String.ofList a.id) (String.ofList b.id) ≠ .gt)
    ((gatherExposures c input.exposures input.sources []).1.entries.map Prod.snd)).map (·.id)
  refine hperm.nodup_iff.2 ?_
  have hkeys : ((gatherExposures c input.exposures input.sources []).1.entries.map Prod.snd).map (·.id) =
      (gatherExposures c input.exposures input.sources []).1.entries.map Prod.fst := by
    rw [map_map]
    exact map_congr_left fun entry hentry => id_of_mem_gathered hentry
  rw [hkeys]
  exact (gatherExposures c input.exposures input.sources []).1.nodup

theorem userRules_rules (sets : FirewallSourceSets) (notes : List Text) :
    (userRules c edicts sets notes).1 = edicts.filterMap (edictRuleOf? c sets) := by
  rw [userRules, gatherEdicts_rules]
  rfl

theorem mem_rules {input : FirewallDeriveInput} :
    rule ∈ (deriveFirewall c input).rules ↔
      (∃ first ∈ input.exposures, FirstWithId c input first ∧ ruleOf? c input.sources first = some rule) ∨
      ∃ edict ∈ input.edicts, edictRuleOf? c input.sources edict = some rule := by
  rw [deriveFirewall]
  dsimp only
  rw [mem_append, mem_derivedRules, userRules_rules, mem_filterMap]

theorem map_id_edictRules :
    (edicts.filterMap (edictRuleOf? c sets)).map (·.id) =
      (edicts.filter fun edict => (resolvedEdict? c sets edict).isSome).map edictRuleId := by
  induction edicts with
  | nil => rfl
  | cons edict edicts ih =>
    cases hsources : resolvedEdict? c sets edict with
    | none =>
      have hrule : edictRuleOf? c sets edict = none := by
        rw [edictRuleOf?, hsources]
        rfl
      rw [filterMap_cons_none hrule, filter_cons_of_neg (by simp [hsources]), ih]
    | some sources =>
      have hrule : edictRuleOf? c sets edict = some (edictRule edict sources) := by
        rw [edictRuleOf?, hsources]
        rfl
      rw [filterMap_cons_some hrule, filter_cons_of_pos (by simp [hsources]), map_cons,
        map_cons, ih]
      rfl

theorem nodup_ids_iff : ((deriveFirewall c input).rules.map (·.id)).Nodup ↔
    ((input.edicts.filter fun edict => (resolvedEdict? c input.sources edict).isSome).map edictRuleId).Nodup := by
  rw [deriveFirewall]
  dsimp only
  rw [map_append, nodup_append, userRules_rules, map_id_edictRules]
  constructor
  · rintro ⟨-, hedicts, -⟩
    exact hedicts
  · intro hedicts
    refine ⟨nodup_derivedRules input, hedicts, ?_⟩
    intro a ha b hb
    obtain ⟨rule, hmem, rfl⟩ := mem_map.1 ha
    obtain ⟨edict, -, rfl⟩ := mem_map.1 hb
    obtain ⟨first, -, -, hrule⟩ := mem_derivedRules.1 hmem
    rw [id_of_ruleOf? hrule]
    exact exposureRuleId_ne_edictRuleId first edict

/-! ## Notes -/

theorem mem_notes_of_reason {input : FirewallDeriveInput} {exposure : DerivedExposure} {reason : Text}
    (hmem : exposure ∈ input.exposures) (h : resolveReach c exposure input.sources = .reason reason) :
    notSentNote exposure reason ∈ (deriveFirewall c input).notes := by
  have hderived : notSentNote exposure reason ∈ (derivedRules c input.exposures input.sources []).2 :=
    (mem_gatherExposures_notes _ _ _).2 (.inr ⟨exposure, hmem, reason, h, rfl⟩)
  have huser := gatherEdicts_notes (c := c) input.sources input.edicts ([], _) hderived
  rw [deriveFirewall]
  dsimp only
  split
  · exact huser
  · exact mem_append_left _ huser

/-! ## Sources that let anyone in -/

theorem anyText_not_mem_resolveWords {sets : FirewallSourceSets} {word : SourceWord}
    (hvalid : ∀ address ∈ word.set sets, ValidAddress address) (h : resolveWords c word sets = .sources sources) :
    anyText ∉ sources := by
  unfold resolveWords at h
  dsimp only at h
  split at h
  · cases h
  · split at h
    · cases h
    · cases h
      intro hmem
      exact not_validAddress_any (hvalid _ (mem_uniqueSorted.1 hmem))

theorem anyText_not_mem_resolvePeers {addresses : Option (List Text)}
    (h : resolvePeers c addresses = .sources sources) : anyText ∉ sources := by
  unfold resolvePeers at h
  dsimp only at h
  split at h
  · cases h
  · split at h
    · cases h
    · cases h
      intro hmem
      have hfilter := (mem_filter.1 (mem_uniqueSorted.1 hmem)).2
      cases hfilter

theorem reach_of_anyText_mem {input : FirewallDeriveInput} (hvalid : ValidSources input) {exposure : DerivedExposure}
    (h : resolveReach c exposure input.sources = .sources sources) (hany : anyText ∈ sources) :
    exposure.reach = .anyone ∧ sources = [anyText] := by
  unfold resolveReach at h
  split at h
  · rename_i hreach
    cases h
    exact ⟨hreach, rfl⟩
  · exact absurd hany (anyText_not_mem_resolvePeers h)
  · exact absurd hany (anyText_not_mem_resolveWords (hvalid.words _) h)

theorem sourceKind_of_anyText_mem {input : FirewallDeriveInput} (hvalid : ValidSources input)
    (hedict : edict ∈ input.edicts) (h : resolveEdictSources c edict input.sources = .sources sources)
    (hany : anyText ∈ sources) :
    edict.sourceKind = .any ∧ sources = [anyText] := by
  unfold resolveEdictSources at h
  split at h
  · rename_i hkind
    cases h
    exact ⟨hkind, rfl⟩
  · dsimp only at h
    split at h
    · cases h
    · cases h
      obtain ⟨address, haddress, hparse⟩ := mem_filterMap.1 (mem_uniqueSorted.1 hany)
      exact absurd rfl (parseFirewallAddress_ne_any (hvalid.edicts edict hedict address haddress) hparse)
  · exact absurd hany (anyText_not_mem_resolveWords (hvalid.words _) h)

/-! ## Both directions -/

theorem mem_resolved? {sets : FirewallSourceSets} {exposure : DerivedExposure} :
    sources ∈ resolved? c sets exposure ↔ resolveReach c exposure sets = .sources sources := by
  rw [resolved?]
  split
  · rename_i found hresolve
    rw [hresolve, Option.mem_def, Option.some.injEq, Resolved.sources.injEq]
  · rename_i hresolve
    rw [hresolve]
    exact ⟨nofun, nofun⟩

theorem mem_resolvedEdict? {sets : FirewallSourceSets} :
    sources ∈ resolvedEdict? c sets edict ↔ resolveEdictSources c edict sets = .sources sources := by
  rw [resolvedEdict?]
  split
  · rename_i found hresolve
    rw [hresolve, Option.mem_def, Option.some.injEq, Resolved.sources.injEq]
  · rename_i hresolve
    rw [hresolve]
    exact ⟨nofun, nofun⟩

theorem ExposureProto.rule_injective {p q : ExposureProto} (h : p.rule = q.rule) : p = q := by
  cases p <;> cases q <;> first | rfl | cases h

theorem destinations_eq_iff {a b : Option Text} : a.map ([·]) = b.map ([·]) ↔ a = b :=
  (Option.map_injective singleton_injective).eq_iff

theorem opened_of_covered {input : FirewallDeriveInput} {exposure : DerivedExposure}
    (h : CoveredByExposure c input exposure sources ∨ CoveredByEdict c input exposure sources) :
    ∃ rule ∈ (deriveFirewall c input).rules, Opens rule exposure sources := by
  rcases h with ⟨first, hmem, hfirst, hscope, hproto, hports, hdestination, firstSources, hresolved, hsources⟩ |
    ⟨edict, hmem, haction, hscope, hproto, hports, hdestination, edictSources, hresolved, hsources⟩
  · refine ⟨exposureRule first firstSources, mem_rules.2 (.inl ⟨first, hmem, hfirst, ?_⟩), rfl, hscope, ?_, ?_, ?_,
      hsources⟩
    · exact ruleOf?_eq_some.2 ⟨firstSources, mem_resolved?.1 hresolved, rfl⟩
    · exact congrArg ExposureProto.rule hproto
    · exact congrArg some hports
    · exact congrArg (Option.map ([·])) hdestination
  · refine ⟨edictRule edict edictSources, mem_rules.2 (.inr ⟨edict, hmem, ?_⟩), haction, hscope, hproto, hports, ?_,
      hsources⟩
    · exact edictRuleOf?_eq_some.2 ⟨edictSources, mem_resolvedEdict?.1 hresolved, rfl⟩
    · rw [hdestination]
      rfl

theorem covered_of_opened {input : FirewallDeriveInput} {exposure : DerivedExposure}
    (hrule : rule ∈ (deriveFirewall c input).rules) (hopens : Opens rule exposure sources) :
    CoveredByExposure c input exposure sources ∨ CoveredByEdict c input exposure sources := by
  obtain ⟨haction, hscope, hproto, hports, hdestination, hsources⟩ := hopens
  rcases mem_rules.1 hrule with ⟨first, hmem, hfirst, hfirstRule⟩ | ⟨edict, hmem, hedictRule⟩
  · obtain ⟨firstSources, hresolved, rfl⟩ := ruleOf?_eq_some.1 hfirstRule
    exact .inl ⟨first, hmem, hfirst, hscope, ExposureProto.rule_injective hproto, Option.some.inj hports,
      destinations_eq_iff.1 hdestination, firstSources, mem_resolved?.2 hresolved, hsources⟩
  · obtain ⟨edictSources, hresolved, rfl⟩ := edictRuleOf?_eq_some.1 hedictRule
    exact .inr ⟨edict, hmem, haction, hscope, hproto, hports, Option.map_eq_none_iff.1 hdestination.symm,
      edictSources, mem_resolvedEdict?.2 hresolved, hsources⟩

theorem idsSeparate_of_faithful {input : FirewallDeriveInput} (h : Faithful c input) : IdsSeparate c input where
  exposures := by
    intro exposure hmem sources hresolved _
    rcases h.accounted exposure hmem with ⟨reason, hreason, -⟩ | ⟨found, hfound, rule, hrule, hopens⟩
    · cases (mem_resolved?.1 hresolved).symm.trans hreason
    · cases (mem_resolved?.1 hresolved).symm.trans hfound
      exact covered_of_opened hrule hopens
  edicts := (nodup_ids_iff input).1 h.ids

theorem accounted_of_idsSeparate {input : FirewallDeriveInput} (h : IdsSeparate c input)
    {exposure : DerivedExposure} (hmem : exposure ∈ input.exposures) :
    (∃ reason, resolveReach c exposure input.sources = .reason reason ∧
      notSentNote exposure reason ∈ (deriveFirewall c input).notes) ∨
    ∃ sources, resolveReach c exposure input.sources = .sources sources ∧
      ∃ rule ∈ (deriveFirewall c input).rules, Opens rule exposure sources := by
  cases hresolve : resolveReach c exposure input.sources with
  | reason reason => exact .inl ⟨reason, rfl, mem_notes_of_reason hmem hresolve⟩
  | sources sources =>
    refine .inr ⟨sources, rfl, ?_⟩
    by_cases hfirst : FirstWithId c input exposure
    · refine ⟨exposureRule exposure sources, mem_rules.2 (.inl ⟨exposure, hmem, hfirst, ?_⟩), rfl, rfl, rfl, rfl, rfl,
        fun _ => id⟩
      exact ruleOf?_eq_some.2 ⟨sources, hresolve, rfl⟩
    · exact opened_of_covered (h.exposures exposure hmem sources (mem_resolved?.2 hresolve) hfirst)

theorem faithful_of_idsSeparate {input : FirewallDeriveInput} (hvalid : ValidSources input)
    (h : IdsSeparate c input) : Faithful c input where
  accounted := fun _ hmem => accounted_of_idsSeparate h hmem
  derived := by
    intro rule hrule horigin
    rcases mem_rules.1 hrule with ⟨first, hmem, -, hfirstRule⟩ | ⟨edict, -, hedictRule⟩
    · obtain ⟨sources, hresolved, rfl⟩ := ruleOf?_eq_some.1 hfirstRule
      exact ⟨first, hmem, sources, hresolved, rfl, rfl, rfl, rfl, rfl⟩
    · obtain ⟨sources, -, rfl⟩ := edictRuleOf?_eq_some.1 hedictRule
      cases horigin
  ids := (nodup_ids_iff input).2 h.edicts
  any := by
    intro rule hrule hany
    rcases mem_rules.1 hrule with ⟨first, hmem, -, hfirstRule⟩ | ⟨edict, hmem, hedictRule⟩
    · obtain ⟨sources, hresolved, rfl⟩ := ruleOf?_eq_some.1 hfirstRule
      obtain ⟨hreach, rfl⟩ := reach_of_anyText_mem hvalid hresolved hany
      exact .inl ⟨first, hmem, hreach, rfl⟩
    · obtain ⟨sources, hresolved, rfl⟩ := edictRuleOf?_eq_some.1 hedictRule
      obtain ⟨hkind, rfl⟩ := sourceKind_of_anyText_mem hvalid hmem hresolved hany
      exact .inr ⟨edict, hmem, hkind, rfl⟩

/-- **The derived firewall is faithful exactly where the ids separate.** -/
theorem derivation_faithful_iff (c : Collation) (input : FirewallDeriveInput) (hvalid : ValidSources input) :
    Faithful c input ↔ IdsSeparate c input :=
  ⟨idsSeparate_of_faithful, faithful_of_idsSeparate hvalid⟩

/-! ## Two published ports -/

/-- A server of an organization with the default policy. -/
def serverOf (exposures : List DerivedExposure) : FirewallDeriveInput where
  policy := ⟨.accept, .mirror, [anyText]⟩
  sshPortHint := none
  coLocated := false
  controlPlaneTcpPorts := []
  exposures := exposures
  edicts := []
  sources := ⟨[], [], []⟩

theorem validSources_serverOf : ValidSources (serverOf exposures) where
  words := by
    intro word
    cases word <;> exact nofun
  edicts := nofun

/-- A port that an app publishes on one address of the server. -/
def publishedOn (address : String) : DerivedExposure where
  source := "compose".toList
  scope := .published
  proto := .tcp
  ports := "8080".toList
  reach := .anyone
  comment := "App web".toList
  destination := some address.toList

instance (input : FirewallDeriveInput) (exposure : DerivedExposure) : Decidable (FirstWithId c input exposure) :=
  inferInstanceAs (Decidable (_ = _))

instance (input : FirewallDeriveInput) (exposure : DerivedExposure) (sources : List Text) :
    Decidable (CoveredByExposure c input exposure sources) := by
  delta CoveredByExposure
  infer_instance

instance (input : FirewallDeriveInput) (exposure : DerivedExposure) (sources : List Text) :
    Decidable (CoveredByEdict c input exposure sources) := by
  delta CoveredByEdict
  infer_instance

/-- A database that the other servers of the organization reach. -/
def databaseOfServers : DerivedExposure where
  source := "managed".toList
  scope := .host
  proto := .tcp
  ports := "5432".toList
  reach := .word .servers
  comment := "Database".toList

/-- A rule that an operator typed. -/
def typedRule (id ports : String) (scope : RuleScope) (sourceKind : FirewallSourceKind) (addresses : List String) :
    EdictFact where
  id := id.toList
  scope := scope
  action := .accept
  proto := .tcp
  ports := some ports.toList
  sourceKind := sourceKind
  sourceAddresses := addresses.map String.toList
  label := id.toList

/-- The app publishes its port on one address and on all of them; what the first rule does not open
an edict does. -/
def webServer : FirewallDeriveInput :=
  { serverOf [publishedOn "192.0.2.1", { publishedOn "192.0.2.1" with destination := none }, databaseOfServers,
      publishedOn "192.0.2.1"] with
    edicts := [typedRule "web" "8080" .published .any [],
      typedRule "office" "22" .host .addresses ["203.0.113.0/24", "198.51.100.9"]]
    sources := ⟨["198.51.100.7".toList, "198.51.100.8".toList], [], []⟩ }

/-- The firewall of `webServer` opens what listens, since its ids separate. -/
theorem derivation_faithful_iff_webServer : Faithful .codePoint webServer := by
  have hvalid : ValidSources webServer := by
    constructor
    · intro word
      cases word <;> unfold ValidAddress <;> decide
    · unfold ValidAddress
      decide
  refine (derivation_faithful_iff .codePoint webServer hvalid).2 ⟨?_, ?_⟩
  · decide
  · decide

/-- Of two destinations of one port, the second has no rule. -/
theorem second_address_is_lost : ¬∀ (c : Collation) (input : FirewallDeriveInput), ValidSources input →
    Faithful c input := by
  intro h
  have hfaithful := h .codePoint (serverOf [publishedOn "192.0.2.1", publishedOn "192.0.2.2"])
    (validSources_serverOf _)
  rcases hfaithful.accounted (publishedOn "192.0.2.2") (by simp [serverOf]) with
    ⟨reason, hreason, -⟩ | ⟨sources, -, rule, hrule, hopens⟩
  · cases hreason
  · have hrules : (deriveFirewall .codePoint (serverOf [publishedOn "192.0.2.1", publishedOn "192.0.2.2"])).rules =
        [exposureRule (publishedOn "192.0.2.1") [anyText]] := by
      decide
    rw [hrules, mem_singleton] at hrule
    have hdestination := hopens.2.2.2.2.1
    rw [hrule] at hdestination
    exact absurd hdestination (by decide)

end TurboPanel.Firewall
