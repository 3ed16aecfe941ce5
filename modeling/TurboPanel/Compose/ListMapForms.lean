import TurboPanel.Compose.UniqueKeys

/-!
# List form and map form

`environment`, `labels` and `depends_on` are a list of `KEY=value` or a mapping. Merged as lists, an
item replaces the one with its key; merged as mappings, a key gets the value of the overlay. Both
mean the same (`listForm_mapForm_agree`), unless the mapping of a list is a sentinel of the reserved
key.
-/

namespace TurboPanel.Compose

open Option Bool Js List

/-! ## Entries of a list -/

/-- The property that an item of the list form stands for. -/
def listItem? : Json → Option (String × Json)
  | .str item => some (String.ofList (listEntryKey item.toList),
      match listEntryValue item.toList with
      | none => .null
      | some rest => .str (String.ofList rest))
  | _ => none

/-- The map form of a list. -/
def mapForm (items : List Json) : Fields := items.foldl assignListEntry []

theorem lookup_assignInto_reverse {ν : Type*} (o entries : List (String × ν)) (key : String) :
    (assignInto o entries).lookup key = (entries.reverse.lookup key).or (o.lookup key) := by
  induction entries generalizing o with
  | nil => rfl
  | cons e rest ih =>
    rw [assignInto, foldl_cons, ← assignInto, ih, lookup_setProp, reverse_cons, lookup_append,
      Option.or_assoc, lookup_cons_if]
    congr 1
    split
    · rfl
    · rfl

theorem mapForm_eq (items : List Json) : mapForm items = assignInto [] (items.filterMap listItem?) := by
  rw [mapForm]
  generalize ([] : Fields) = out
  induction items generalizing out with
  | nil => rfl
  | cons item rest ih =>
    rw [foldl_cons, ih]
    cases item with
    | str s => rfl
    | _ => rfl

theorem lookup_mapForm (items : List Json) (key : String) :
    (mapForm items).lookup key = (items.filterMap listItem?).reverse.lookup key := by
  rw [mapForm_eq, lookup_assignInto_reverse]
  exact or_none

theorem keyedListKey_eq (item : Json) : keyedListKey item = (listItem? item).map fun e => e.1.toList := by
  cases item with
  | str s => exact (congrArg some String.toList_ofList).symm
  | _ => rfl

theorem lookup_mapForm_concat (items : List Json) (item : Json) (key : String) :
    (mapForm (items ++ [item])).lookup key =
      ((listItem? item).bind fun e => if key = e.1 then some e.2 else none).or ((mapForm items).lookup key) := by
  rw [lookup_mapForm, lookup_mapForm, filterMap_append, reverse_append, lookup_append]
  congr 1
  cases h : listItem? item with
  | none => rw [filterMap_cons_none h]; rfl
  | some e =>
    rw [filterMap_cons_some h, filterMap_nil, reverse_singleton, lookup_cons_if]
    rfl

variable {items : List Json}

theorem lookup_mapForm_set {item : Json} {itemKey : Text} {i : ℕ}
    (hitem : keyedListKey item = some itemKey) (hlast : LastAt (items.map keyedListKey) itemKey i) (key : String) :
    (mapForm (items.set i item)).lookup key = (mapForm (items ++ [item])).lookup key := by
  have hlt : i < items.length := by
    rw [← length_map (f := keyedListKey)]
    exact (List.getElem?_eq_some_iff.1 hlast.1).1
  have hold : keyedListKey items[i] = some itemKey := by
    have h := hlast.1
    rwa [getElem?_map, getElem?_eq_getElem hlt, map_some, Option.some.injEq] at h
  obtain ⟨e, he, heKey⟩ := map_eq_some_iff.1 ((keyedListKey_eq item).symm.trans hitem)
  obtain ⟨old, hentry, holdKey⟩ := map_eq_some_iff.1 ((keyedListKey_eq _).symm.trans hold)
  have hkey : old.1 = e.1 := String.toList_inj.1 (holdKey.trans heKey.symm)
  have hafter : ((items.drop (i + 1)).filterMap listItem?).reverse.lookup e.1 = none := by
    rw [Js.lookup_eq_none_iff, map_reverse, mem_reverse]
    intro hmem
    obtain ⟨later, hlater, hlaterKey⟩ := mem_map.1 hmem
    obtain ⟨other, hother, hotherEntry⟩ := mem_filterMap.1 hlater
    obtain ⟨j, hj, rfl⟩ := getElem_of_mem hother
    refine hlast.2 (i + 1 + j) (by omega) ?_
    rw [getElem?_map, ← getElem?_drop, getElem?_eq_getElem hj, map_some, keyedListKey_eq,
      hotherEntry, map_some, hlaterKey, heKey]
  have hitems : items = items.take i ++ items[i] :: items.drop (i + 1) := by
    rw [getElem_cons_drop, take_append_drop]
  rw [lookup_mapForm_concat, he, lookup_mapForm, set_eq_take_append_cons_drop, if_pos hlt, filterMap_append,
    filterMap_cons_some he, reverse_append, reverse_cons, lookup_append, lookup_append,
    lookup_cons_if, bind_some]
  conv_rhs => rw [hitems]
  rw [lookup_mapForm, filterMap_append, filterMap_cons_some hentry, reverse_append, reverse_cons,
    lookup_append, lookup_append, lookup_cons_if, hkey]
  by_cases hk : key = e.1
  · rw [hk, hafter]
    simp
  · simp only [if_neg hk, none_or, lookup_nil, or_none]

/-! ## The merged list -/

theorem lookup_mapForm_run (base overlay : List Json) (key : String) :
    (mapForm (appendKeyedList base overlay).value).lookup key =
      ((mapForm overlay).lookup key).or ((mapForm base).lookup key) := by
  rw [appendKeyedList, appendWithUniqueKey]
  dsimp only
  induction overlay using List.reverseRecOn generalizing key with
  | nil => rfl
  | append_singleton read item ih =>
    obtain ⟨fresh, h⟩ := merging_run keyedListKey base read
    rw [foldl_append, foldl_cons, foldl_nil, lookup_mapForm_concat, Option.or_assoc, ← ih]
    generalize List.foldl (appendUnique keyedListKey) _ read = st at h ⊢
    rw [appendUnique]
    dsimp only
    cases hkey : keyedListKey item with
    | none => exact lookup_mapForm_concat st.out item key
    | some itemKey =>
      dsimp only
      cases hget : st.indexByKey.get? itemKey with
      | none => exact lookup_mapForm_concat st.out item key
      | some existing =>
        exact (lookup_mapForm_set hkey ((h.index itemKey existing).1 hget) key).trans
          (lookup_mapForm_concat st.out item key)

/-! ## The paths -/

variable {path : MergePath}

theorem isServiceAttrPath_leaf {attr : String} (h : isServiceAttrPath path attr = true) :
    leafAttribute path = attr := by
  unfold isServiceAttrPath at h
  split at h
  · rw [and_eq_true, beq_iff_eq, beq_iff_eq] at h
    exact h.2
  · cases h

theorem isRootAttrPath_leaf {attr : String} (h : isRootAttrPath path attr = true) :
    leafAttribute path = attr := by
  rw [isRootAttrPath, beq_iff_eq] at h
  rw [h]
  rfl

theorem isHealthcheckTestPath_leaf (h : isHealthcheckTestPath path = true) :
    leafAttribute path = "test" := by
  unfold isHealthcheckTestPath at h
  split at h
  · rw [and_eq_true, beq_iff_eq] at h
    exact h.2
  · cases h

theorem resolveSequenceStrategy_keyedList (h : leafAttribute path ∈ keyedListAttrs) :
    resolveSequenceStrategy path = .keyedList := by
  have hservice : ∀ attr ∉ keyedListAttrs, isServiceAttrPath path attr = false := fun attr hattr =>
    eq_false_iff.2 fun htrue => hattr (isServiceAttrPath_leaf htrue ▸ h)
  have hroot : ∀ attr ∉ keyedListAttrs, isRootAttrPath path attr = false := fun attr hattr =>
    eq_false_iff.2 fun htrue => hattr (isRootAttrPath_leaf htrue ▸ h)
  have htest : isHealthcheckTestPath path = false :=
    eq_false_iff.2 fun htrue => absurd (isHealthcheckTestPath_leaf htrue ▸ h) (by decide)
  have hscalar : scalarDedupAttrs.contains (leafAttribute path) = false := by
    have hall : ∀ attr ∈ keyedListAttrs, scalarDedupAttrs.contains attr = false := by decide
    exact hall _ h
  rw [resolveSequenceStrategy, htest, hservice "command" (by decide), hroot "command" (by decide),
    hservice "entrypoint" (by decide), hroot "entrypoint" (by decide), hservice "ports" (by decide),
    hroot "ports" (by decide), hservice "volumes" (by decide), hservice "secrets" (by decide),
    hservice "configs" (by decide), hscalar, contains_eq_mem, decide_eq_true h]
  rfl

theorem isDualPath_of_keyedList (h : leafAttribute path ∈ keyedListAttrs) : isDualPath path = true := by
  have hall : ∀ attr ∈ keyedListAttrs, mapListDualityAttrs.contains attr = true := by decide
  exact hall _ h

/-! ## The merges of the two forms -/

/-- The merged value is a mapping with these properties, in whatever order. -/
def SameMapping (merged : Option Json) (fields : Fields) : Prop :=
  ∃ out, merged = some (.obj out) ∧ ∀ key, out.lookup key = fields.lookup key

theorem isScalar_of_mem_mapForm {e : String × Json} (h : e ∈ mapForm items) : isScalar e.2 = true := by
  rw [mapForm_eq] at h
  obtain h | h := mem_assignInto h
  · cases h
  · obtain ⟨item, -, hitem⟩ := mem_filterMap.1 h
    cases item with
    | str s =>
      cases hitem
      dsimp only
      split
      · rfl
      · rfl
    | _ => cases hitem

theorem resolve_mapForm {tag : ComposeTagName} (h : composeTag? (mapForm items) = some tag) :
    isScalar (resolveComposeTags (.obj (mapForm items))) = true := by
  rw [resolveComposeTags, if_pos (by rw [h]; rfl), resolveEntries_eq]
  cases hvalue : ((mapForm items).map fun e => (e.1, resolveComposeTags e.2)).lookup "value" with
  | none => rfl
  | some value =>
    obtain ⟨e, he, heq⟩ := mem_map.1 (mem_of_lookup hvalue)
    obtain ⟨-, rfl⟩ := Prod.mk.inj heq
    have hscalar := isScalar_of_mem_mapForm he
    rw [getD_some]
    cases hjson : e.2 with
    | arr items => rw [hjson] at hscalar; cases hscalar
    | obj fields => rw [hjson] at hscalar; cases hscalar
    | _ => rfl

theorem nodup_mapForm (items : List Json) : ((mapForm items).map Prod.fst).Nodup := by
  rw [mapForm_eq]
  exact nodup_assignInto (o := []) nodup_nil _

theorem lookup_assignInto_mapForm (o : Fields) (items : List Json) (key : String) :
    (assignInto o (mapForm items)).lookup key = ((mapForm items).lookup key).or (o.lookup key) :=
  lookup_assignInto o (nodup_mapForm items) key

section

variable {path : MergePath} (hpath : leafAttribute path ∈ keyedListAttrs) (base overlay : List Json)

include hpath in
theorem mergeNodes_lists :
    (mergeNodes (some (.arr base)) (.arr overlay) path).1 = some (.arr (appendKeyedList base overlay).value) := by
  rw [mergeNodes]
  change some (Json.arr (mergeSequences base overlay path).value) = _
  rw [mergeSequences, resolveSequenceStrategy_keyedList hpath]

theorem untagged_mapForm {items : List Json} (h : composeTag? (mapForm items) = none) :
    untagged (some (.obj (mapForm items))) = some (.obj (mapForm items)) := by
  rw [untagged, map_some, isComposeTaggedValue, composeTagOf, h]
  rfl

variable {tag : ComposeTagName}

theorem untagged_sentinel {items : List Json} (h : composeTag? (mapForm items) = some tag) :
    untagged (some (.obj (mapForm items))) = some (resolveComposeTags (.obj (mapForm items))) := by
  rw [untagged, map_some, isComposeTaggedValue, composeTagOf, h]
  rfl

include hpath in
theorem mergeNodes_map_list (h : composeTag? (mapForm base) = none) :
    (mergeNodes (some (.obj (mapForm base))) (.arr overlay) path).1 =
      some (.obj (assignInto (assignInto [] (mapForm base)) (mapForm overlay))) := by
  rw [mergeNodes, untagged_mapForm h, isDualPath_of_keyedList hpath]
  rfl

theorem mergeNodes_sentinel_list (h : composeTag? (mapForm base) = some tag) :
    (mergeNodes (some (.obj (mapForm base))) (.arr overlay) path).1 = some (.arr overlay) := by
  have hscalar := resolve_mapForm h
  rw [mergeNodes, untagged_sentinel h]
  cases hvalue : resolveComposeTags (.obj (mapForm base)) with
  | arr items => rw [hvalue] at hscalar; cases hscalar
  | obj fields => rw [hvalue] at hscalar; cases hscalar
  | _ => rfl

include hpath in
theorem mergeNodes_map {node : Json} {whole : Fields} (h : composeTag? (mapForm overlay) = none)
    (hnode : untagged (some node) = some node) (hwhole : normalizeKeyedList node = some whole) :
    (mergeNodes (some node) (.obj (mapForm overlay)) path).1 = some (.obj (assignInto whole (mapForm overlay))) := by
  rw [mergeNodes, h]
  dsimp only
  rw [hnode, mappingBase, if_pos (isDualPath_of_keyedList hpath), hwhole]
  dsimp only
  rw [mapForm, mergeMappings_listEntries]

theorem not_sameMapping_sentinel {node : Json} {fields : Fields}
    (h : composeTag? (mapForm overlay) = some tag) :
    ¬SameMapping (mergeNodes (some node) (.obj (mapForm overlay)) path).1 fields := by
  rintro ⟨out, hout, -⟩
  have hscalar := resolve_mapForm h
  rw [mergeNodes, h] at hout
  cases tag with
  | reset => cases hout
  | override =>
    rw [Option.some.inj hout] at hscalar
    cases hscalar

include hpath in
/-- **List form and map form merge to the same meaning**, exactly if the map form of neither list is
a sentinel. -/
theorem listForm_mapForm_agree : ∃ merged,
    (mergeNodes (some (.arr base)) (.arr overlay) path).1 = some (.arr merged) ∧
    ∃ whole, normalizeKeyedList (.arr merged) = some whole ∧
      (SameMapping (mergeNodes (some (.obj (mapForm base))) (.arr overlay) path).1 whole ∧
        SameMapping (mergeNodes (some (.arr base)) (.obj (mapForm overlay)) path).1 whole ∧
        SameMapping (mergeNodes (some (.obj (mapForm base))) (.obj (mapForm overlay)) path).1 whole ↔
      composeTag? (mapForm base) = none ∧ composeTag? (mapForm overlay) = none) := by
  refine ⟨_, mergeNodes_lists hpath base overlay, _, rfl, ?_⟩
  have hwhole := lookup_mapForm_run base overlay
  constructor
  · rintro ⟨hbase, hoverlay, -⟩
    constructor
    · cases h : composeTag? (mapForm base) with
      | none => rfl
      | some tag =>
        obtain ⟨out, hout, -⟩ := hbase
        rw [mergeNodes_sentinel_list base overlay h] at hout
        cases hout
    · cases h : composeTag? (mapForm overlay) with
      | none => rfl
      | some tag => exact absurd hoverlay (not_sameMapping_sentinel overlay h)
  · rintro ⟨hbase, hoverlay⟩
    have hempty : ∀ key, (assignInto [] (mapForm base)).lookup key = (mapForm base).lookup key := fun key => by
      rw [lookup_assignInto_mapForm]
      exact or_none
    refine ⟨⟨_, mergeNodes_map_list hpath base overlay hbase, fun key => ?_⟩,
      ⟨_, mergeNodes_map hpath overlay hoverlay rfl rfl, fun key => ?_⟩,
      _, mergeNodes_map hpath overlay hoverlay (untagged_mapForm hbase) rfl, fun key => ?_⟩
    · rw [lookup_assignInto_mapForm, hempty]
      exact (hwhole key).symm
    · rw [lookup_assignInto_mapForm]
      exact (hwhole key).symm
    · rw [lookup_assignInto_mapForm, hempty]
      exact (hwhole key).symm

end

theorem environment_forms_agree : ∃ merged,
    (mergeNodes (some (.arr [.str "A=1", .str "B"])) (.arr [.str "A=2"]) ["services", "web", "environment"]).1 =
      some (.arr merged) ∧
    ∃ whole, normalizeKeyedList (.arr merged) = some whole ∧
      SameMapping (mergeNodes (some (.obj (mapForm [.str "A=1", .str "B"]))) (.arr [.str "A=2"])
        ["services", "web", "environment"]).1 whole := by
  obtain ⟨merged, hmerged, whole, hwhole, hagree⟩ := listForm_mapForm_agree
    (show leafAttribute ["services", "web", "environment"] ∈ keyedListAttrs by decide) [.str "A=1", .str "B"]
    [.str "A=2"]
  exact ⟨merged, hmerged, whole, hwhole, (hagree.2 ⟨by decide +kernel, by decide +kernel⟩).1⟩

/-- A list that spells the reserved key is a sentinel in its map form. -/
def sentinelList : List Json := [.str "__turbopanelComposeTag=override", .str "value=x"]

theorem sentinel_forms_differ : ¬∀ (path : MergePath) (base overlay : List String),
    leafAttribute path ∈ keyedListAttrs → ∃ merged,
      (mergeNodes (some (.arr (base.map .str))) (.arr (overlay.map .str)) path).1 = some (.arr merged) ∧
      ∃ whole, normalizeKeyedList (.arr merged) = some whole ∧
        SameMapping (mergeNodes (some (.obj (mapForm (base.map .str)))) (.arr (overlay.map .str)) path).1 whole := by
  intro h
  obtain ⟨merged, -, whole, -, out, hout, -⟩ := h ["services", "web", "environment"]
    ["__turbopanelComposeTag=override", "value=x"] [] (by decide)
  have htag : composeTag? (mapForm sentinelList) = some .override := by decide +kernel
  cases hout.symm.trans (mergeNodes_sentinel_list sentinelList [] htag)

end TurboPanel.Compose
