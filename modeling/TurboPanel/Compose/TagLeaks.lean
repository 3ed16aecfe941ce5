import TurboPanel.Compose.MergeTags

/-!
# Tags in a merged document

`mergeComposeDocuments` resolves the tags of what it has before it merges the next document, so only
the last document can leave one. It does so where the merge copies a part of it without a look
inside (`fieldsKeepTag`), or when the document itself is a sentinel (`rootKeepsTag`): the loop over
the properties of the two documents then copies the tag as if it were one of them.
-/

namespace TurboPanel.Compose

open Js List

/-! ## The root of a document -/

/-- The properties of a document. A sentinel at the root may have lost its value, since blank values
are dropped. -/
structure RootOk (tags : Prop) (fields : Fields) : Prop where
  nodup : (fields.map Prod.fst).Nodup
  tree : ∀ e ∈ fields, Tree tags e.2
  tag : ∀ v, fields.lookup composeTagKey = some v → v = .str "reset" ∨ v = .str "override"

variable {fields : Fields}

theorem composeTag?_isSome : (composeTag? fields).isSome = true ↔
    "value" ∈ fields.map Prod.fst ∧ (fields.lookup composeTagKey = some (.str "reset") ∨
      fields.lookup composeTagKey = some (.str "override")) := by
  rw [composeTag?]
  split
  · rename_i hvalue
    refine ⟨fun h => ⟨hvalue, ?_⟩, ?_⟩
    · split at h
      · exact .inl ‹_›
      · exact .inr ‹_›
      · cases h
    · rintro ⟨-, h | h⟩ <;> rw [h] <;> rfl
  · rename_i hvalue
    refine iff_of_false Bool.false_ne_true fun h => hvalue h.1

variable {tags : Prop}

theorem RootOk.isSome_composeTag? (h : RootOk tags fields) : (composeTag? fields).isSome = true ↔
      "value" ∈ fields.map Prod.fst ∧ composeTagKey ∈ fields.map Prod.fst := by
  rw [composeTag?_isSome]
  refine and_congr_right fun _ => ?_
  constructor
  · rintro (heq | heq)
    · exact mem_map.2 ⟨_, mem_of_lookup heq, rfl⟩
    · exact mem_map.2 ⟨_, mem_of_lookup heq, rfl⟩
  · intro hmem
    cases hlookup : fields.lookup composeTagKey with
    | none => exact absurd hmem (lookup_eq_none_iff.1 hlookup)
    | some v =>
      obtain rfl | rfl := h.tag v hlookup
      · exact .inl rfl
      · exact .inr rfl

theorem RootOk.of_tagged (h : Tagged (.obj fields)) : RootOk True fields := by
  obtain ⟨hnodup, hkey, hentries⟩ := tree_obj.1 h
  refine ⟨hnodup, hentries, fun v hv => ?_⟩
  have hmem : composeTagKey ∈ fields.map Prod.fst := mem_map.2 ⟨_, mem_of_lookup hv, rfl⟩
  obtain ⟨-, heq | heq⟩ := composeTag?_isSome.1 (hkey hmem).2.1
  · exact .inl (Option.some.inj (hv.symm.trans heq))
  · exact .inr (Option.some.inj (hv.symm.trans heq))

theorem RootOk.nil : RootOk tags [] :=
  ⟨nodup_nil, fun _ he => absurd he not_mem_nil, fun _ hv => nomatch hv⟩

theorem RootOk.assignInto_nil {sub : Fields} (h : RootOk tags fields)
    (hsub : sub.Sublist fields) : RootOk tags (assignInto [] sub) := by
  have hnodup : (sub.map Prod.fst).Nodup := h.nodup.sublist (hsub.map Prod.fst)
  refine ⟨nodup_assignInto (o := []) nodup_nil sub, fun e he => ?_, fun v hv => ?_⟩
  · obtain he | he := mem_assignInto he
    · cases he
    · exact h.tree e (hsub.subset he)
  · rw [lookup_assignInto [] hnodup, lookup_nil, Option.or_none] at hv
    exact h.tag v ((lookup_eq_some_iff h.nodup).2 (hsub.subset (mem_of_lookup hv)))

variable {doc : ComposeDocument}

theorem rootOk_normalizeCompose (h : RootOk True doc.data) : RootOk True (normalizeCompose doc).data := by
  rw [normalizeCompose]
  split
  · exact RootOk.nil
  · exact h.assignInto_nil filter_sublist

theorem rootOk_resolveDocumentTags (h : RootOk True doc.data) :
    RootOk False (resolveDocumentTags doc).data ∧
      (composeTag? (resolveDocumentTags doc).data).isSome = false := by
  have hclean : ∀ e ∈ resolveEntries doc.data, Clean e.2 := by
    rw [resolveEntries_eq]
    intro e he
    obtain ⟨e', he', rfl⟩ := mem_map.1 he
    exact clean_resolveComposeTags _ (h.tree e' he')
  have hkeys : (resolveEntries doc.data).map Prod.fst = doc.data.map Prod.fst := by
    rw [resolveEntries_eq, map_map]
    rfl
  rw [resolveDocumentTags, resolveComposeTags]
  dsimp only
  split
  · -- a sentinel: its value, which is clean, takes its place
    cases hvalue : (resolveEntries doc.data).lookup "value" with
    | none => exact ⟨RootOk.nil, rfl⟩
    | some v =>
      have hv := hclean _ (mem_of_lookup hvalue)
      cases v with
      | obj fields =>
        have hfields := clean_obj.1 hv
        refine ⟨⟨hfields.nodup, hfields.clean, fun v hv => ?_⟩, ?_⟩
        · exact absurd (mem_map.2 ⟨_, mem_of_lookup hv, rfl⟩) hfields.not_mem
        · exact congrArg Option.isSome (composeTag?_eq_none hfields.not_mem)
      | _ => exact ⟨RootOk.nil, rfl⟩
  · rename_i hnot
    have hnodup : ((resolveEntries doc.data).map Prod.fst).Nodup := hkeys ▸ h.nodup
    have hroot : RootOk False (resolveEntries doc.data) := by
      refine ⟨hnodup, hclean, fun v hv => ?_⟩
      rw [resolveEntries_eq] at hv
      obtain ⟨e, he, heq⟩ := mem_map.1 (mem_of_lookup hv)
      obtain ⟨hkey, rfl⟩ := Prod.mk.inj heq
      obtain htag | htag := h.tag e.2 ((lookup_eq_some_iff h.nodup).2 (hkey ▸ he))
      · exact .inl (by rw [htag]; rfl)
      · exact .inr (by rw [htag]; rfl)
    have hassigned := hroot.assignInto_nil (List.Sublist.refl _)
    refine ⟨hassigned, ?_⟩
    have hperm : ∀ k, k ∈ (assignInto [] (resolveEntries doc.data)).map Prod.fst ↔
        k ∈ doc.data.map Prod.fst := by
      intro k
      rw [← hkeys, ← not_iff_not, ← Js.lookup_eq_none_iff, ← Js.lookup_eq_none_iff,
        lookup_assignInto [] hnodup, lookup_nil, Option.or_none]
    rw [Bool.eq_false_iff]
    intro hsome
    have hsome := hassigned.isSome_composeTag?.1 hsome
    rw [hperm, hperm] at hsome
    exact hnot (h.isSome_composeTag?.2 hsome)

/-! ## The merge at the root -/

theorem mergeNodes_eq_none {base : Option Json} {overlay : Json} {path : MergePath} :
    (mergeNodes base overlay path).1 = none ↔ composeTagOf overlay = some .reset := by
  cases overlay with
  | obj fields =>
    rw [mergeNodes, composeTagOf]
    cases composeTag? fields with
    | none =>
      dsimp only
      cases mappingBase (untagged base) path with
      | none => simp
      | some out => simp
    | some tag => cases tag <;> simp
  | arr items =>
    rw [mergeNodes]
    refine iff_of_false ?_ (Option.some_ne_none _).symm
    split
    · exact Option.some_ne_none _
    · split <;> exact Option.some_ne_none _
    · exact Option.some_ne_none _
  | _ => exact iff_of_false (Option.some_ne_none _) (Option.some_ne_none _).symm

/-- The merged root is a sentinel: one of the two roots has the tag, and the value is not deleted.
-/
def rootKeepsTag (base overlay : Fields) : Bool :=
  ((overlay.map Prod.fst).contains composeTagKey || (base.map Prod.fst).contains composeTagKey) &&
    match overlay.lookup "value" with
    | none => (base.map Prod.fst).contains "value"
    | some v => composeTagOf v != some .reset

theorem mem_keys_mergeMappings {base overlay : Fields} (h : (overlay.map Prod.fst).Nodup) {k : String}
    {path : MergePath} : k ∈ (mergeMappings base overlay path).1.map Prod.fst ↔
      match overlay.lookup k with
      | none => k ∈ base.map Prod.fst
      | some v => composeTagOf v ≠ some .reset := by
  rw [← not_iff_not, ← Js.lookup_eq_none_iff, lookup_mergeMappings h]
  cases overlay.lookup k with
  | none => exact lookup_eq_none_iff
  | some v => exact mergeNodes_eq_none.trans not_not.symm

theorem merge_root {base overlay : Fields} (hbase : RootOk False base)
    (hoverlay : RootOk True overlay) : RootOk True (mergeMappings base overlay []).1 ∧
      (hasTag (.obj (mergeMappings base overlay []).1) = true ↔
        rootKeepsTag base overlay = true ∨ fieldsKeepTag base overlay [] = true) := by
  obtain ⟨htagged, hiff⟩ := mergeMappings_outcome hbase.nodup hbase.tree hoverlay.nodup
    (fun e he b path hb => outcome e.2 (hoverlay.tree e he) hb path) []
  have hroot : RootOk True (mergeMappings base overlay []).1 := by
    refine ⟨nodup_mergeMappings hbase.nodup overlay [], htagged, fun v hv => ?_⟩
    rw [lookup_mergeMappings hoverlay.nodup] at hv
    cases htag : overlay.lookup composeTagKey with
    | none =>
      rw [htag] at hv
      exact hbase.tag v hv
    | some w =>
      rw [htag] at hv
      obtain rfl | rfl := hoverlay.tag w htag
      · exact .inl (Option.some.inj hv).symm
      · exact .inr (Option.some.inj hv).symm
  refine ⟨hroot, ?_⟩
  rw [hasTag_obj, hiff, hroot.isSome_composeTag?, mem_keys_mergeMappings hoverlay.nodup,
    mem_keys_mergeMappings hoverlay.nodup, rootKeepsTag, Bool.and_eq_true, and_comm]
  refine or_congr_left (and_congr ?_ ?_)
  · cases htag : overlay.lookup composeTagKey with
    | none => simp [Js.lookup_eq_none_iff.1 htag]
    | some w =>
      have hmem : composeTagKey ∈ overlay.map Prod.fst := mem_map.2 ⟨_, mem_of_lookup htag, rfl⟩
      obtain rfl | rfl := hoverlay.tag w htag <;> simp [hmem, composeTagOf]
  · cases overlay.lookup "value" with
    | none => simp
    | some v => simp

/-! ## Documents -/

theorem RootOk.tagged (h : RootOk False fields) : RootOk True fields :=
  ⟨h.nodup, fun e he => Clean.tagged (h.tree e he), h.tag⟩

/-- The properties that a document is merged into. -/
def baseData (acc : ComposeDocument) : Fields := (resolveDocumentTags (normalizeCompose acc)).data

/-- The properties that are merged. -/
def overlayData (doc : ComposeDocument) : Fields := (normalizeCompose doc).data

theorem overlayData_eq_nil (h : isBlankComposeData (overlayData doc) = true) : overlayData doc = [] := by
  rw [overlayData, normalizeCompose] at *
  split
  · rfl
  · rename_i hblank
    rw [if_neg hblank] at h
    exact absurd h hblank

theorem data_mergeComposeOverlay (acc doc : ComposeDocument) :
    (mergeComposeOverlay acc (some doc)).data =
      (mergeMappings (baseData acc) (overlayData doc) []).1 := by
  rw [mergeComposeOverlay]
  dsimp only
  split
  · rename_i hblank
    rw [overlayData_eq_nil (Bool.and_eq_true_iff.1 hblank).1]
    rfl
  · rfl

theorem mergeComposeDocuments_append {before : List ComposeDocument} (h : before ≠ [])
    (last : ComposeDocument) : mergeComposeDocuments (before ++ [last]) =
      mergeComposeOverlay (mergeComposeDocuments before) (some last) := by
  cases before with
  | nil => exact absurd rfl h
  | cons first rest =>
    rw [cons_append, mergeComposeDocuments, foldl_append]
    rfl

theorem rootOk_mergeComposeDocuments {docs : List ComposeDocument}
    (h : ∀ d ∈ docs, Tagged (.obj d.data)) : RootOk True (mergeComposeDocuments docs).data := by
  induction docs using List.reverseRecOn with
  | nil => exact RootOk.nil
  | append_singleton before last ih =>
    have hlast := rootOk_normalizeCompose (RootOk.of_tagged (h last (by simp)))
    by_cases hbefore : before = []
    · subst hbefore
      exact (rootOk_resolveDocumentTags hlast).1.tagged
    · rw [mergeComposeDocuments_append hbefore, data_mergeComposeOverlay]
      have hacc := ih fun d hd => h d (mem_append_left _ hd)
      exact (merge_root (rootOk_resolveDocumentTags (rootOk_normalizeCompose hacc)).1 hlast).1

/-- **Tags of a merged document.** For every list of documents that has one, in which the reserved
key is only used for sentinels: the merged document has no sentinel in it, at any depth, if and only
if the merge of the last document into the result of those before it does not keep one. -/
theorem merged_tag_free {docs : List ComposeDocument} (hne : docs ≠ [])
    (h : ∀ d ∈ docs, Tagged (.obj d.data)) :
    hasTag (.obj (mergeComposeDocuments docs).data) = false ↔
      ∀ before last, docs = before ++ [last] → before ≠ [] →
        rootKeepsTag (baseData (mergeComposeDocuments before)) (overlayData last) = false ∧
        fieldsKeepTag (baseData (mergeComposeDocuments before)) (overlayData last) [] = false := by
  obtain ⟨before, last, rfl⟩ := (eq_nil_or_concat' docs).resolve_left hne
  have hlast := rootOk_normalizeCompose (RootOk.of_tagged (h last (by simp)))
  by_cases hbefore : before = []
  · subst hbefore
    obtain ⟨hroot, htag⟩ := rootOk_resolveDocumentTags hlast
    refine iff_of_true ?_ fun before' last' heq hne' => ?_
    · rw [Bool.eq_false_iff, ne_eq, hasTag_obj, not_or]
      refine ⟨Bool.eq_false_iff.1 htag, ?_⟩
      rintro ⟨e, he, htag⟩
      exact Clean.not_hasTag (hroot.tree e he) htag
    · exact absurd (append_inj' heq rfl).1.symm hne'
  · have hacc := rootOk_mergeComposeDocuments fun d hd => h d (mem_append_left _ hd)
    have hmerge := (merge_root (rootOk_resolveDocumentTags (rootOk_normalizeCompose hacc)).1 hlast).2
    rw [mergeComposeDocuments_append hbefore, data_mergeComposeOverlay, Bool.eq_false_iff, ne_eq,
      baseData, overlayData, hmerge, not_or, ← ne_eq, ← ne_eq, ← Bool.eq_false_iff,
      ← Bool.eq_false_iff]
    constructor
    · rintro hkeeps before' last' heq -
      obtain ⟨rfl, hsingle⟩ := append_inj' heq rfl
      obtain rfl := singleton_inj.1 hsingle
      exact hkeeps
    · exact fun hall => hall before last rfl hbefore

/-- A service `web` with an image. -/
def webDocument : ComposeDocument :=
  plainDocument [("services", .obj [("web", .obj [("image", .str "nginx")])])]

/-- `!override` on the ports of a service. -/
def overridePorts (service : String) : ComposeDocument :=
  plainDocument [("services", .obj [(service, .obj [("ports",
    makeComposeTag .override (.arr [.str "5432:5432"]))])])]

theorem merged_tag_free_web : (∀ d ∈ [webDocument, overridePorts "web"], Tagged (.obj d.data)) ∧
    hasTag (.obj (mergeComposeDocuments [webDocument, overridePorts "web"]).data) = false :=
  have htagged : ∀ d ∈ [webDocument, overridePorts "web"], Tagged (.obj d.data) := by decide
  ⟨htagged, (merged_tag_free (cons_ne_nil _ _) htagged).2 fun before last heq _ => by
    have heq : [webDocument] ++ [overridePorts "web"] = before ++ [last] := heq
    obtain ⟨rfl, hlast⟩ := append_inj' heq rfl
    obtain rfl := singleton_inj.1 hlast
    exact ⟨rfl, rfl⟩⟩

/-- A tag in a service of the overlay only is kept. -/
theorem overlay_service_keeps_tag :
    (∀ d ∈ [webDocument, overridePorts "db"], Tagged (.obj d.data)) ∧
    ¬hasTag (.obj (mergeComposeDocuments [webDocument, overridePorts "db"]).data) = false :=
  ⟨by decide, by decide⟩

end TurboPanel.Compose
