import TurboPanel.Compose.Merge

/-!
# Where a merge keeps a tag

The base of a merge has no tags: they are resolved first. A tag of the overlay is applied where the
merge meets it. The merge does not look into a node of the overlay that it takes over as a whole:
one that the base has nothing to merge with, and an item of a sequence. `keepsTag` says, from the
base and the overlay alone, that there is a tag in such a node, and `outcome` that this is when the
result has a tag.
-/

namespace TurboPanel.Compose

open Js List

/-! ## Trees in which the reserved key is only used for sentinels -/

/-- The mapping is a sentinel and has nothing else in it. -/
def IsSentinel (fields : Fields) : Prop :=
  (composeTag? fields).isSome ∧ ∀ e ∈ fields, e.1 = composeTagKey ∨ e.1 = "value"

instance (fields : Fields) : Decidable (IsSentinel fields) := inferInstanceAs (Decidable (_ ∧ _))

mutual

/-- The reserved key is in no text and, when `tags` are allowed, in sentinels only; the keys of a
mapping are different. -/
def Tree (tags : Prop) : Json → Prop
  | .str s => ¬composeTagKey.toList <:+: s.toList
  | .arr items => TreeItems tags items
  | .obj fields => (fields.map Prod.fst).Nodup ∧
      (composeTagKey ∈ fields.map Prod.fst → tags ∧ IsSentinel fields) ∧ TreeEntries tags fields
  | _ => True

def TreeItems (tags : Prop) : List Json → Prop
  | [] => True
  | item :: rest => Tree tags item ∧ TreeItems tags rest

def TreeEntries (tags : Prop) : Fields → Prop
  | [] => True
  | (_, child) :: rest => Tree tags child ∧ TreeEntries tags rest

end

mutual

def decidableTree (tags : Prop) [Decidable tags] : (j : Json) → Decidable (Tree tags j)
  | .null => isTrue trivial
  | .bool _ => isTrue trivial
  | .num _ => isTrue trivial
  | .str s => inferInstanceAs (Decidable (¬composeTagKey.toList <:+: s.toList))
  | .arr items => decidableTreeItems tags items
  | .obj fields =>
    have := decidableTreeEntries tags fields
    inferInstanceAs (Decidable (_ ∧ (_ → _ ∧ _) ∧ TreeEntries tags fields))

def decidableTreeItems (tags : Prop) [Decidable tags] :
    (items : List Json) → Decidable (TreeItems tags items)
  | [] => isTrue trivial
  | item :: rest =>
    have := decidableTree tags item
    have := decidableTreeItems tags rest
    inferInstanceAs (Decidable (Tree tags item ∧ TreeItems tags rest))

def decidableTreeEntries (tags : Prop) [Decidable tags] :
    (fields : Fields) → Decidable (TreeEntries tags fields)
  | [] => isTrue trivial
  | (_, child) :: rest =>
    have := decidableTree tags child
    have := decidableTreeEntries tags rest
    inferInstanceAs (Decidable (Tree tags child ∧ TreeEntries tags rest))

end

instance (tags : Prop) [Decidable tags] (j : Json) : Decidable (Tree tags j) := decidableTree tags j

/-- A tree that may have sentinels. -/
abbrev Tagged (j : Json) : Prop := Tree True j

/-- A tree without sentinels. -/
abbrev Clean (j : Json) : Prop := Tree False j

variable {fields : Fields} {base : Option Json} {items : List Json} {tags : Prop} {done : List Json}
  {st : UniqueState} {path : MergePath} {out : Fields}

theorem treeItems_iff :
    TreeItems tags items ↔ ∀ j ∈ items, Tree tags j := by
  induction items with
  | nil => simp [TreeItems]
  | cons item rest ih => rw [TreeItems, ih, forall_mem_cons]

theorem treeEntries_iff :
    TreeEntries tags fields ↔ ∀ e ∈ fields, Tree tags e.2 := by
  induction fields with
  | nil => simp [TreeEntries]
  | cons e rest ih =>
    obtain ⟨key, child⟩ := e
    rw [TreeEntries, ih, forall_mem_cons]

theorem tree_arr :
    Tree tags (.arr items) ↔ ∀ j ∈ items, Tree tags j := by
  rw [Tree, treeItems_iff]

theorem tree_obj : Tree tags (.obj fields) ↔
    (fields.map Prod.fst).Nodup ∧
      (composeTagKey ∈ fields.map Prod.fst → tags ∧ IsSentinel fields) ∧
      ∀ e ∈ fields, Tree tags e.2 := by
  rw [Tree, treeEntries_iff]

theorem composeTag?_eq_none (h : composeTagKey ∉ fields.map Prod.fst) :
    composeTag? fields = none := by
  rw [composeTag?, lookup_eq_none_iff.2 h]
  split <;> rfl

theorem Clean.tagged {j : Json} (h : Clean j) : Tagged j := by
  induction j using Json.induction with
  | arr items ih => exact tree_arr.2 fun j hj => ih j hj (tree_arr.1 h j hj)
  | obj fields ih =>
    obtain ⟨hnodup, hkey, hentries⟩ := tree_obj.1 h
    exact tree_obj.2 ⟨hnodup, fun hmem => (hkey hmem).1.elim, fun e he => ih e he (hentries e he)⟩
  | _ => exact h

theorem hasTag_arr : hasTag (.arr items) = true ↔ ∃ j ∈ items, hasTag j = true := by
  rw [hasTag, itemsHaveTag_iff]

theorem hasTag_obj : hasTag (.obj fields) = true ↔
    (composeTag? fields).isSome = true ∨ ∃ e ∈ fields, hasTag e.2 = true := by
  rw [hasTag, Bool.or_eq_true, entriesHaveTag_iff]

theorem Clean.not_hasTag {j : Json} (h : Clean j) : ¬hasTag j = true := by
  induction j using Json.induction with
  | arr items ih =>
    rw [hasTag_arr]
    rintro ⟨j, hj, htag⟩
    exact ih j hj (tree_arr.1 h j hj) htag
  | obj fields ih =>
    obtain ⟨-, hkey, hentries⟩ := tree_obj.1 h
    rw [hasTag_obj, composeTag?_eq_none fun hmem => (hkey hmem).1]
    rintro (hnone | ⟨e, he, htag⟩)
    · cases hnone
    · exact ih e he (hentries e he) htag
  | _ => exact Bool.false_ne_true

/-! ## Clean mappings -/

/-- The properties of a mapping without sentinels. -/
structure CleanFields (fields : Fields) : Prop where
  nodup : (fields.map Prod.fst).Nodup
  not_mem : composeTagKey ∉ fields.map Prod.fst
  clean : ∀ e ∈ fields, Clean e.2

theorem clean_obj : Clean (.obj fields) ↔ CleanFields fields := by
  refine tree_obj.trans ?_
  constructor
  · rintro ⟨hnodup, hkey, hentries⟩
    exact ⟨hnodup, fun hmem => (hkey hmem).1, hentries⟩
  · rintro ⟨hnodup, hkey, hentries⟩
    exact ⟨hnodup, fun hmem => absurd hmem hkey, hentries⟩

theorem CleanFields.nil : CleanFields [] := ⟨nodup_nil, not_mem_nil, by simp⟩

theorem CleanFields.setProp {o : Fields} (h : CleanFields o) {key : String}
    (hkey : key ≠ composeTagKey) {v : Json} (hv : Clean v) : CleanFields (setProp o key v) where
  nodup := nodup_setProp h.nodup key v
  not_mem := by
    intro hmem
    obtain ⟨e, he, heq⟩ := mem_map.1 hmem
    obtain rfl | he := mem_setProp he
    · exact hkey heq
    · exact h.not_mem (mem_map.2 ⟨e, he, heq⟩)
  clean := by
    intro e he
    obtain rfl | he := mem_setProp he
    · exact hv
    · exact h.clean e he

theorem CleanFields.assignInto {o entries : Fields} (h : CleanFields o)
    (hkey : composeTagKey ∉ entries.map Prod.fst) (hentries : ∀ e ∈ entries, Clean e.2) :
    CleanFields (assignInto o entries) :=
  List.foldlRecOn (motive := CleanFields) entries _ h fun _ ho e he =>
    ho.setProp (fun heq => hkey (mem_map.2 ⟨e, he, heq⟩)) (hentries e he)

theorem clean_resolveComposeTags (j : Json) (h : Tagged j) : Clean (resolveComposeTags j) := by
  induction j using Json.induction with
  | arr items ih =>
    rw [resolveComposeTags, resolveItems_eq]
    refine tree_arr.2 fun j hj => ?_
    obtain ⟨item, hitem, rfl⟩ := mem_map.1 hj
    exact ih item hitem (tree_arr.1 h item hitem)
  | obj fields ih =>
    obtain ⟨-, hkey, hentries⟩ := tree_obj.1 h
    have hclean : ∀ e ∈ resolveEntries fields, Clean e.2 := by
      rw [resolveEntries_eq]
      intro e he
      obtain ⟨e', he', rfl⟩ := mem_map.1 he
      exact ih e' he' (hentries e' he')
    rw [resolveComposeTags]
    split
    · cases hlookup : (resolveEntries fields).lookup "value" with
      | none => trivial
      | some v => exact hclean _ (mem_of_lookup hlookup)
    · rename_i hnot
      refine clean_obj.2 (CleanFields.nil.assignInto (fun hmem => hnot ?_) hclean)
      rw [resolveEntries_eq, map_map] at hmem
      exact (hkey hmem).2.1
  | _ => exact h

/-! ## Items that a sequence keeps -/

/-- The items that no later item with the same key replaces. -/
def lastOfKey (keyOf : Json → Option Text) : List Json → List Json
  | [] => []
  | entry :: rest =>
    if (keyOf entry).isSome && rest.any (keyOf · == keyOf entry) then lastOfKey keyOf rest
    else entry :: lastOfKey keyOf rest

/-- The items whose text is not seen before. -/
def newItems (seen : List Text) : List Json → List Json
  | [] => []
  | item :: rest =>
    if dedupKey item ∈ seen then newItems seen rest
    else item :: newItems (setAdd seen (dedupKey item)) rest

/-- The items of the overlay that are in the merged sequence. -/
def keptItems (base overlay : List Json) (path : MergePath) : List Json :=
  match resolveSequenceStrategy path with
  | .replace | .plainAppend => overlay
  | .ports => lastOfKey portUniqueKey overlay
  | .volumes => lastOfKey volumeTargetKey overlay
  | .secretsConfigs => lastOfKey secretConfigKey overlay
  | .keyedList => lastOfKey keyedListKey overlay
  | .scalarDedup => newItems ((base.map dedupKey).foldl setAdd []) overlay

/-- The item is in the list, and no later one has its key. -/
def Kept (keyOf : Json → Option Text) (items : List Json) (x : Json) : Prop :=
  ∃ before after, items = before ++ x :: after ∧ ∀ y ∈ after, keyOf y = keyOf x → keyOf x = none

variable {keyOf : Json → Option Text}

variable {x : Json}

theorem mem_lastOfKey : x ∈ lastOfKey keyOf items ↔ Kept keyOf items x := by
  induction items with
  | nil =>
    refine iff_of_false not_mem_nil ?_
    rintro ⟨before, after, h, -⟩
    exact append_ne_nil_of_right_ne_nil before (cons_ne_nil x after) h.symm
  | cons entry rest ih =>
    -- the first item is kept unless a later one has its key; the others do not depend on it
    have htail : Kept keyOf (entry :: rest) x ↔ Kept keyOf rest x ∨
        x = entry ∧ ∀ y ∈ rest, keyOf y = keyOf x → keyOf x = none := by
      constructor
      · rintro ⟨before, after, h, hafter⟩
        cases before with
        | nil =>
          cases h
          exact .inr ⟨rfl, hafter⟩
        | cons b before => exact .inl ⟨before, after, (List.cons.inj h).2, hafter⟩
      · rintro (⟨before, after, rfl, hafter⟩ | ⟨rfl, hafter⟩)
        · exact ⟨entry :: before, after, rfl, hafter⟩
        · exact ⟨[], rest, rfl, hafter⟩
    rw [lastOfKey, htail, ← ih]
    split
    · rename_i hlater
      rw [Bool.and_eq_true, any_eq_true] at hlater
      obtain ⟨hsome, y, hy, hkey⟩ := hlater
      refine (or_iff_left ?_).symm
      rintro ⟨rfl, hafter⟩
      rw [hafter y hy (beq_iff_eq.1 hkey)] at hsome
      cases hsome
    · rename_i hlater
      rw [mem_cons, or_comm]
      refine or_congr_right (iff_self_and.2 ?_)
      rintro rfl y hy hkey
      by_contra hne
      refine hlater (Bool.and_eq_true_iff.2 ⟨Option.isSome_iff_ne_none.2 hne, ?_⟩)
      exact any_eq_true.2 ⟨y, hy, beq_iff_eq.2 hkey⟩

variable {entry : Json}

theorem kept_append : Kept keyOf (done ++ [entry]) x ↔
    x = entry ∨ Kept keyOf done x ∧ (keyOf entry = keyOf x → keyOf x = none) := by
  constructor
  · rintro ⟨before, after, h, hafter⟩
    obtain rfl | ⟨after, last, rfl⟩ := eq_nil_or_concat' after
    · exact .inl (append_inj_right' h rfl |> singleton_inj.1).symm
    · rw [← cons_append, ← append_assoc] at h
      obtain ⟨rfl, hlast⟩ := append_inj' h rfl
      obtain rfl := singleton_inj.1 hlast
      exact .inr ⟨⟨before, after, rfl, fun y hy => hafter y (by simp [hy])⟩,
        hafter entry (by simp)⟩
  · rintro (rfl | ⟨⟨before, after, rfl, hafter⟩, hlast⟩)
    · exact ⟨done, [], rfl, by simp⟩
    · refine ⟨before, after ++ [entry], by simp, fun y hy => ?_⟩
      obtain hy | hy := mem_append.1 hy
      · exact hafter y hy
      · rw [mem_singleton.1 hy]
        exact hlast

/-- What holds between two rounds of the loop of `appendWithUniqueKey`: the index of a key is one of
an item with that key, the tagged items are under the index of their key, and they are the tagged
ones of the items so far that are kept. -/
structure UniqueInv (keyOf : Json → Option Text) (done : List Json) (st : UniqueState) : Prop where
  index : ∀ k j, st.indexByKey.get? k = some j → ∃ y, st.out[j]? = some y ∧ keyOf y = some k
  tagged_index : ∀ j x k, st.out[j]? = some x → hasTag x = true → keyOf x = some k →
    st.indexByKey.get? k = some j
  sound : ∀ x ∈ st.out, hasTag x = true → Kept keyOf done x
  complete : ∀ x, Kept keyOf done x → hasTag x = true → x ∈ st.out

theorem uniqueInv_initial {base : List Json} (hbase : ∀ x ∈ base, ¬hasTag x = true) :
    UniqueInv keyOf [] ⟨base, indexKeys keyOf base, Map.empty, 0⟩ where
  index := by
    refine List.foldlRecOn (motive := fun m : Map Text ℕ => ∀ k j, m.get? k = some j →
      ∃ y, base[j]? = some y ∧ keyOf y = some k) base.zipIdx _ (fun k j h => nomatch h) ?_
    intro m hm e he k j hget
    cases hkey : keyOf e.1 with
    | none =>
      simp only [hkey] at hget
      exact hm k j hget
    | some key =>
      simp only [hkey, Map.get?_set] at hget
      split at hget
      · rename_i heq
        rw [← Option.some.inj hget, heq]
        exact ⟨e.1, mem_zipIdx_iff_getElem?.1 he, hkey⟩
      · exact hm k j hget
  tagged_index := fun j x k hx htag => absurd htag (hbase x (mem_of_getElem? hx))
  sound := fun x hx htag => absurd htag (hbase x hx)
  complete := by
    rintro x ⟨before, after, h, -⟩
    exact absurd h.symm (append_ne_nil_of_right_ne_nil before (cons_ne_nil x after))

theorem UniqueInv.push (inv : UniqueInv keyOf done st) {indexByKey : Map Text ℕ}
    (hold : ∀ k, keyOf entry ≠ some k → indexByKey.get? k = st.indexByKey.get? k)
    (hnew : ∀ k, keyOf entry = some k → st.indexByKey.get? k = none ∧ indexByKey.get? k = some st.out.length)
    (overlayIndexMap : OverlayIndexMap) (next : ℕ) :
    UniqueInv keyOf (done ++ [entry]) ⟨st.out ++ [entry], indexByKey, overlayIndexMap, next⟩ where
  index := by
    intro k j hget
    by_cases hk : keyOf entry = some k
    · obtain rfl := Option.some.inj ((hnew k hk).2.symm.trans hget)
      exact ⟨entry, by simp, hk⟩
    · rw [hold k hk] at hget
      obtain ⟨y, hy, hkey⟩ := inv.index k j hget
      exact ⟨y, getElem?_append_left (List.getElem?_eq_some_iff.1 hy).1 ▸ hy, hkey⟩
  tagged_index := by
    intro j x k hx htag hkey
    by_cases hj : j < st.out.length
    · rw [getElem?_append_left hj] at hx
      have hget := inv.tagged_index j x k hx htag hkey
      rwa [hold k fun hk => nomatch (hnew k hk).1.symm.trans hget]
    · rw [getElem?_append_right (by omega)] at hx
      obtain ⟨hj', hx⟩ := List.getElem?_eq_some_iff.1 hx
      rw [length_singleton] at hj'
      obtain rfl : j = st.out.length := by omega
      obtain rfl : entry = x := by simpa using hx
      exact (hnew k hkey).2
  sound := by
    intro x hx htag
    obtain hx | hx := mem_append.1 hx
    · refine kept_append.2 (.inr ⟨inv.sound x hx htag, fun heq => ?_⟩)
      by_contra hne
      obtain ⟨k, hk⟩ := Option.ne_none_iff_exists'.1 hne
      obtain ⟨j, hj⟩ := getElem?_of_mem hx
      exact nomatch (hnew k (heq.trans hk)).1.symm.trans (inv.tagged_index j x k hj htag hk)
    · exact kept_append.2 (.inl (mem_singleton.1 hx))
  complete := by
    intro x hx htag
    obtain rfl | ⟨hx, -⟩ := kept_append.1 hx
    · exact mem_append_right _ (mem_singleton_self x)
    · exact mem_append_left _ (inv.complete x hx htag)

theorem UniqueInv.put (inv : UniqueInv keyOf done st) {key : Text} (hkey : keyOf entry = some key)
    {existing : ℕ} (hget : st.indexByKey.get? key = some existing) (overlayIndexMap : OverlayIndexMap) (next : ℕ) :
    UniqueInv keyOf (done ++ [entry])
      ⟨st.out.set existing entry, st.indexByKey, overlayIndexMap, next⟩ := by
  obtain ⟨old, hold, hkold⟩ := inv.index key existing hget
  have hlt : existing < st.out.length := (List.getElem?_eq_some_iff.1 hold).1
  have hself : (st.out.set existing entry)[existing]? = some entry := by
    rw [getElem?_set_self hlt]
  have hother : ∀ {j}, existing ≠ j → (st.out.set existing entry)[j]? = st.out[j]? :=
    fun hne => getElem?_set_ne hne
  refine ⟨fun k j hk => ?_, fun j x k hx htag hk => ?_, fun x hx htag => ?_, fun x hx htag => ?_⟩
  · by_cases hj : existing = j
    · subst hj
      obtain ⟨y, hy, hky⟩ := inv.index k existing hk
      cases hold.symm.trans hy
      exact ⟨entry, hself, by rw [hkey, ← hkold, hky]⟩
    · obtain ⟨y, hy, hky⟩ := inv.index k j hk
      exact ⟨y, (hother hj).trans hy, hky⟩
  · by_cases hj : existing = j
    · subst hj
      cases hself.symm.trans hx
      rwa [Option.some.inj (hk.symm.trans hkey)]
    · exact inv.tagged_index j x k ((hother hj).symm.trans hx) htag hk
  · obtain ⟨j, hj⟩ := getElem?_of_mem hx
    by_cases hne : existing = j
    · subst hne
      exact kept_append.2 (.inl (Option.some.inj (hself.symm.trans hj)).symm)
    · rw [hother hne] at hj
      refine kept_append.2 (.inr ⟨inv.sound x (mem_of_getElem? hj) htag, fun heq => ?_⟩)
      have := inv.tagged_index j x key hj htag (heq.symm.trans hkey)
      exact absurd (Option.some.inj (hget.symm.trans this)) hne
  · obtain rfl | ⟨hx, hdiff⟩ := kept_append.1 hx
    · exact mem_of_getElem? hself
    · obtain ⟨j, hj⟩ := getElem?_of_mem (inv.complete x hx htag)
      refine mem_of_getElem? ((hother fun heq => ?_).trans hj)
      subst heq
      cases hold.symm.trans hj
      exact nomatch hkold.symm.trans (hdiff (hkey.trans hkold.symm))

theorem UniqueInv.step {done : List Json} {st : UniqueState} (inv : UniqueInv keyOf done st)
    (entry : Json) : UniqueInv keyOf (done ++ [entry]) (appendUnique keyOf st entry) := by
  rw [appendUnique]
  cases hkey : keyOf entry with
  | none =>
    exact inv.push (fun k _ => rfl) (fun k hk => nomatch hkey.symm.trans hk) _ _
  | some key =>
    dsimp only
    cases hget : st.indexByKey.get? key with
    | some existing => exact inv.put hkey hget _ _
    | none =>
      refine inv.push (fun k hk => Map.get?_set_of_ne ?_ _) (fun k hk => ?_) _ _
      · rintro rfl
        exact hk hkey
      · cases hkey.symm.trans hk
        exact ⟨hget, Map.get?_set_self _ _ _⟩

theorem UniqueInv.run (inv : UniqueInv keyOf done st) (overlay : List Json) :
    UniqueInv keyOf (done ++ overlay) (overlay.foldl (appendUnique keyOf) st) := by
  induction overlay generalizing done st with
  | nil => simpa using inv
  | cons entry overlay ih =>
    have h := ih (inv.step entry)
    rwa [append_assoc, singleton_append] at h

theorem hasTag_appendWithUniqueKey {base : List Json} (hbase : ∀ x ∈ base, ¬hasTag x = true)
    (overlay : List Json) : (∃ x ∈ (appendWithUniqueKey base overlay keyOf).value, hasTag x = true) ↔
      ∃ x ∈ lastOfKey keyOf overlay, hasTag x = true := by
  have inv := (uniqueInv_initial hbase : UniqueInv keyOf _ _).run overlay
  rw [nil_append] at inv
  constructor
  · rintro ⟨x, hx, htag⟩
    exact ⟨x, mem_lastOfKey.2 (inv.sound x hx htag), htag⟩
  · rintro ⟨x, hx, htag⟩
    exact ⟨x, inv.complete x (mem_lastOfKey.1 hx) htag, htag⟩

theorem foldl_appendNew (overlay : List Json) (st : DedupState) :
    (overlay.foldl appendNew st).out = st.out ++ newItems st.seen overlay := by
  induction overlay generalizing st with
  | nil => rw [newItems, append_nil, foldl_nil]
  | cons item overlay ih =>
    rw [foldl_cons, ih, appendNew, newItems]
    split
    · rfl
    · simp

theorem hasTag_mergeSequences {base : List Json} (hbase : ∀ x ∈ base, ¬hasTag x = true)
    (overlay : List Json) (path : MergePath) :
    (∃ x ∈ (mergeSequences base overlay path).value, hasTag x = true) ↔
      ∃ x ∈ keptItems base overlay path, hasTag x = true := by
  have happend : ∀ items, (∃ x ∈ base ++ items, hasTag x = true) ↔ ∃ x ∈ items, hasTag x = true := by
    intro items
    simp only [mem_append, or_and_right, exists_or]
    refine or_iff_right ?_
    rintro ⟨x, hx, htag⟩
    exact hbase x hx htag
  rw [mergeSequences, keptItems]
  cases resolveSequenceStrategy path with
  | replace => exact Iff.rfl
  | plainAppend => exact happend overlay
  | scalarDedup =>
    simp only [appendScalarDedup, foldl_appendNew]
    exact happend _
  | ports | volumes | secretsConfigs | keyedList => exact hasTag_appendWithUniqueKey hbase overlay

theorem mem_appendUnique (h : x ∈ (appendUnique keyOf st entry).out) : x ∈ st.out ∨ x = entry := by
  rw [appendUnique] at h
  split at h
  · simpa using h
  · split at h
    · simpa using h
    · exact mem_or_eq_of_mem_set h

theorem mem_mergeSequences {base overlay : List Json} (h : x ∈ (mergeSequences base overlay path).value) :
    x ∈ base ∨ x ∈ overlay := by
  have hunique : ∀ {keyOf}, x ∈ (appendWithUniqueKey base overlay keyOf).value →
      x ∈ base ∨ x ∈ overlay := by
    intro keyOf
    refine List.foldlRecOn (motive := fun st : UniqueState => x ∈ st.out → x ∈ base ∨ x ∈ overlay)
      overlay _ .inl fun st hst entry hentry hx => ?_
    obtain hx | rfl := mem_appendUnique hx
    · exact hst hx
    · exact .inr hentry
  have hnew : ∀ {seen items}, x ∈ newItems seen items → x ∈ items := by
    intro seen items
    induction items generalizing seen with
    | nil => exact id
    | cons item items ih =>
      rw [newItems]
      split
      · exact fun hx => mem_cons_of_mem item (ih hx)
      · exact fun hx => mem_cons.2 ((mem_cons.1 hx).imp_right ih)
  rw [mergeSequences] at h
  cases hstrategy : resolveSequenceStrategy path with
  | replace =>
    rw [hstrategy] at h
    exact .inr h
  | plainAppend =>
    rw [hstrategy] at h
    exact mem_append.1 h
  | scalarDedup =>
    simp only [hstrategy, appendScalarDedup, foldl_appendNew] at h
    exact (mem_append.1 h).imp_right hnew
  | ports | volumes | secretsConfigs | keyedList =>
    rw [hstrategy] at h
    exact hunique h

/-! ## Nodes -/

mutual

/-- The merge of the node into the base keeps a tag of the node. -/
def keepsTag (base : Option Json) : Json → MergePath → Bool
  | .obj fields, path =>
    match composeTag? fields with
    | some _ => false
    | none =>
      match mappingBase base path with
      | none => hasTag (.obj fields)
      | some out => fieldsKeepTag out fields path
  | .arr items, path =>
    match base with
    | some (.arr baseItems) => (keptItems baseItems items path).any hasTag
    | some (.obj _) => !isDualPath path && hasTag (.arr items)
    | _ => hasTag (.arr items)
  | _, _ => false

/-- The merge of one of the properties keeps a tag of it. -/
def fieldsKeepTag (out : Fields) : Fields → MergePath → Bool
  | [], _ => false
  | (key, value) :: rest, path =>
    keepsTag (out.lookup key) value (path ++ [key]) || fieldsKeepTag out rest path

end

theorem fieldsKeepTag_iff {out fields : Fields} :
    fieldsKeepTag out fields path = true ↔
      ∃ e ∈ fields, keepsTag (out.lookup e.1) e.2 (path ++ [e.1]) = true := by
  induction fields with
  | nil => simp [fieldsKeepTag]
  | cons e rest ih =>
    obtain ⟨key, value⟩ := e
    rw [fieldsKeepTag, Bool.or_eq_true, ih, exists_mem_cons_iff]

theorem lookup_putMerged (out : Fields) (key : String) (merged : Option Json) (k : String) :
    (putMerged out key merged).lookup k = if k = key then merged else out.lookup k := by
  cases merged with
  | none => exact lookup_deleteProp out key k
  | some v => exact lookup_setProp out key v k

theorem nodup_putMerged (h : (out.map Prod.fst).Nodup) (key : String) (merged : Option Json) :
    ((putMerged out key merged).map Prod.fst).Nodup := by
  cases merged with
  | none => exact nodup_deleteProp h key
  | some v => exact nodup_setProp h key v

theorem nodup_mergeMappings (h : (out.map Prod.fst).Nodup) (fields : Fields) (path : MergePath) :
    ((mergeMappings out fields path).1.map Prod.fst).Nodup := by
  induction fields generalizing out with
  | nil => exact h
  | cons e rest ih =>
    obtain ⟨key, value⟩ := e
    exact ih (nodup_putMerged h key _)

theorem lookup_mergeMappings (h : (fields.map Prod.fst).Nodup) (out : Fields) (path : MergePath) (k : String) :
    (mergeMappings out fields path).1.lookup k =
      match fields.lookup k with
      | none => out.lookup k
      | some v => (mergeNodes (out.lookup k) v (path ++ [k])).1 := by
  induction fields generalizing out with
  | nil => rfl
  | cons e rest ih =>
    obtain ⟨key, value⟩ := e
    obtain ⟨hnot, hrest⟩ := nodup_cons.1 h
    rw [mergeMappings, ih hrest, lookup_putMerged, lookup_cons_if]
    by_cases hk : k = key
    · subst hk
      rw [lookup_eq_none_iff.2 hnot, if_pos rfl, if_pos rfl]
    · rw [if_neg hk, if_neg hk]

theorem CleanFields.assignListEntry (h : CleanFields out) {item : Json} (hitem : Tree tags item) :
    CleanFields (assignListEntry out item) := by
  cases item with
  | str s =>
    have hfree : ¬composeTagKey.toList <:+: s.toList := hitem
    refine h.setProp (fun heq => hfree ?_) ?_
    · rw [← heq, String.toList_ofList]
      exact ( takeWhile_prefix _).isInfix
    · rw [listEntryValue]
      cases hrest : s.toList.dropWhile fun ch => !isListSeparator ch with
      | nil => trivial
      | cons ch rest =>
        change ¬composeTagKey.toList <:+: (String.ofList rest).toList
        rw [String.toList_ofList]
        intro hinside
        have hsuffix : rest <:+ s.toList :=
          ((suffix_cons ch rest).trans (hrest ▸ dropWhile_suffix _))
        exact hfree (hinside.trans hsuffix.isInfix)
  | _ => exact h

theorem CleanFields.listEntries (h : ∀ j ∈ items, Tree tags j) :
    CleanFields (items.foldl Compose.assignListEntry []) :=
  List.foldlRecOn (motive := CleanFields) items _ CleanFields.nil fun _ hout item hitem =>
    hout.assignListEntry (h item hitem)

theorem CleanFields.assignInto_nil (h : CleanFields fields) :
    CleanFields (Compose.assignInto [] fields) :=
  CleanFields.nil.assignInto h.not_mem h.clean

theorem CleanFields.mappingBase (hbase : ∀ b, base = some b → Clean b) (h : mappingBase base path = some out) :
    CleanFields out := by
  cases base with
  | none => cases h
  | some b =>
    have hb := hbase b rfl
    rw [Compose.mappingBase] at h
    split at h
    · cases b with
      | obj fields =>
        cases h
        exact (clean_obj.1 hb).assignInto_nil
      | arr items =>
        cases h
        exact CleanFields.listEntries (tree_arr.1 hb)
      | _ => cases h
    · cases b with
      | obj fields =>
        cases h
        exact clean_obj.1 hb
      | _ => cases h

theorem untagged_of_clean (hbase : ∀ b, base = some b → Clean b) :
    untagged base = base := by
  cases base with
  | none => rfl
  | some b =>
    have hnot : isComposeTaggedValue b = false := by
      cases b with
      | obj fields =>
        rw [isComposeTaggedValue, composeTagOf, composeTag?_eq_none (clean_obj.1 (hbase _ rfl)).not_mem]
        rfl
      | _ => rfl
    rw [untagged, Option.map_some, hnot, if_neg Bool.false_ne_true]

/-- A merged node is well formed, and has a tag in it when the merge keeps one. -/
structure Outcome (base : Option Json) (overlay : Json) (path : MergePath) : Prop where
  tagged : ∀ v, (mergeNodes base overlay path).1 = some v → Tagged v
  hasTag_iff : (∃ v, (mergeNodes base overlay path).1 = some v ∧ hasTag v = true) ↔
    keepsTag base overlay path = true

theorem Outcome.of_eq {overlay v : Json} (h : (mergeNodes base overlay path).1 = some v) (hv : Tagged v)
    (hiff : hasTag v = true ↔ keepsTag base overlay path = true) : Outcome base overlay path where
  tagged := by
    intro v' hv'
    rwa [← Option.some.inj (h.symm.trans hv')]
  hasTag_iff := by
    rw [← hiff, h]
    constructor
    · rintro ⟨v', hv', htag⟩
      rwa [Option.some.inj hv']
    · exact fun htag => ⟨v, rfl, htag⟩

theorem mergeMappings_outcome {out fields : Fields} (hout : (out.map Prod.fst).Nodup)
    (hclean : ∀ e ∈ out, Clean e.2) (hfields : (fields.map Prod.fst).Nodup)
    (hrec : ∀ e ∈ fields, ∀ base path, (∀ b, base = some b → Clean b) → Outcome base e.2 path)
    (path : MergePath) :
    (∀ e ∈ (mergeMappings out fields path).1, Tagged e.2) ∧
    ((∃ e ∈ (mergeMappings out fields path).1, hasTag e.2 = true) ↔
      fieldsKeepTag out fields path = true) := by
  have hmem : ∀ k v, (k, v) ∈ (mergeMappings out fields path).1 ↔
      (mergeMappings out fields path).1.lookup k = some v := fun k v =>
    (lookup_eq_some_iff (nodup_mergeMappings hout fields path)).symm
  have hbase : ∀ k b, out.lookup k = some b → Clean b := fun k b hb =>
    hclean (k, b) (mem_of_lookup hb)
  refine ⟨fun e he => ?_, ?_⟩
  · have he := (hmem e.1 e.2).1 he
    rw [lookup_mergeMappings hfields] at he
    cases hk : fields.lookup e.1 with
    | none =>
      rw [hk] at he
      exact (hbase e.1 e.2 he).tagged
    | some w =>
      rw [hk] at he
      exact (hrec (e.1, w) (mem_of_lookup hk) _ _ (hbase e.1)).tagged _ he
  · rw [fieldsKeepTag_iff]
    constructor
    · rintro ⟨⟨k, v⟩, he, htag⟩
      rw [hmem, lookup_mergeMappings hfields] at he
      cases hk : fields.lookup k with
      | none =>
        rw [hk] at he
        exact absurd htag (hbase k v he).not_hasTag
      | some w =>
        rw [hk] at he
        have hw := mem_of_lookup hk
        exact ⟨(k, w), hw, (hrec (k, w) hw _ _ (hbase k)).hasTag_iff.1 ⟨v, he, htag⟩⟩
    · rintro ⟨⟨k, w⟩, hw, hkeeps⟩
      obtain ⟨v, hv, htag⟩ := (hrec (k, w) hw _ _ (hbase k)).hasTag_iff.2 hkeeps
      refine ⟨(k, v), ?_, htag⟩
      rw [hmem, lookup_mergeMappings hfields, (lookup_eq_some_iff hfields).2 hw]
      exact hv

theorem outcome_obj (h : Tagged (.obj fields))
    (hrec : ∀ e ∈ fields, ∀ base path, (∀ b, base = some b → Clean b) → Outcome base e.2 path)
    (hbase : ∀ b, base = some b → Clean b) (path : MergePath) :
    Outcome base (.obj fields) path := by
  obtain ⟨hnodup, hkey, hentries⟩ := tree_obj.1 h
  cases htag : composeTag? fields with
  | some tag =>
    have hkeeps : keepsTag base (.obj fields) path = false := by
      rw [keepsTag, htag]
    cases tag with
    | reset =>
      have hnone : (mergeNodes base (.obj fields) path).1 = none := by
        rw [mergeNodes, htag]
      refine ⟨?_, ?_⟩
      · rw [hnone]
        exact fun v hv => nomatch hv
      · rw [hnone, hkeeps]
        simp
    | override =>
      have hclean := clean_resolveComposeTags _ h
      refine Outcome.of_eq (v := resolveComposeTags (.obj fields)) ?_ hclean.tagged ?_
      · rw [mergeNodes, htag]
      · rw [hkeeps]
        exact iff_of_false hclean.not_hasTag Bool.false_ne_true
  | none =>
    cases hmapping : mappingBase base path with
    | none =>
      refine Outcome.of_eq (v := .obj fields) ?_ h ?_
      · rw [mergeNodes, htag, untagged_of_clean hbase, hmapping]
      · rw [keepsTag, htag, hmapping]
    | some out =>
      have hout := CleanFields.mappingBase hbase hmapping
      obtain ⟨htagged, hiff⟩ := mergeMappings_outcome hout.nodup hout.clean hnodup hrec path
      have hfree : composeTagKey ∉ fields.map Prod.fst := fun hmem => by
        have := (hkey hmem).2.1
        rw [htag] at this
        cases this
      have hkeyout : composeTagKey ∉ (mergeMappings out fields path).1.map Prod.fst := by
        rw [← Js.lookup_eq_none_iff, lookup_mergeMappings hnodup, Js.lookup_eq_none_iff.2 hfree,
          lookup_eq_none_iff.2 hout.not_mem]
      refine Outcome.of_eq (v := .obj (mergeMappings out fields path).1) ?_ ?_ ?_
      · rw [mergeNodes, htag, untagged_of_clean hbase, hmapping]
      · exact tree_obj.2 ⟨nodup_mergeMappings hout.nodup fields path,
          fun hmem => absurd hmem hkeyout, htagged⟩
      · rw [keepsTag, htag, hmapping, hasTag_obj, composeTag?_eq_none hkeyout, ← hiff]
        exact or_iff_right Bool.false_ne_true

theorem outcome_arr (h : Tagged (.arr items)) (hbase : ∀ b, base = some b → Clean b) (path : MergePath) :
    Outcome base (.arr items) path := by
  have hcopy : ∀ {base}, (mergeNodes base (.arr items) path).1 = some (.arr items) →
      keepsTag base (.arr items) path = hasTag (.arr items) → Outcome base (.arr items) path :=
    fun hmerge hkeeps => Outcome.of_eq hmerge h (by rw [hkeeps])
  cases base with
  | none => exact hcopy rfl rfl
  | some b =>
    have hb := hbase b rfl
    have hun := untagged_of_clean hbase
    cases b with
    | arr baseItems =>
      have hclean : ∀ x ∈ baseItems, Clean x := tree_arr.1 hb
      have hnot : ∀ x ∈ baseItems, ¬hasTag x = true := fun x hx => (hclean x hx).not_hasTag
      refine Outcome.of_eq (v := .arr (mergeSequences baseItems items path).value) ?_ ?_ ?_
      · rw [mergeNodes, hun]
        rfl
      · refine tree_arr.2 fun j hj => ?_
        obtain hj | hj := mem_mergeSequences hj
        · exact (hclean j hj).tagged
        · exact tree_arr.1 h j hj
      · rw [hasTag_arr, hasTag_mergeSequences hnot, keepsTag, any_eq_true]
    | obj baseFields =>
      by_cases hdual : isDualPath path = true
      · have hlist := CleanFields.listEntries (tree_arr.1 h)
        have hclean : Clean (.obj (assignInto (assignInto [] baseFields)
            (items.foldl assignListEntry []))) :=
          clean_obj.2 ((clean_obj.1 hb).assignInto_nil.assignInto hlist.not_mem hlist.clean)
        refine Outcome.of_eq ?_ hclean.tagged ?_
        · rw [mergeNodes, hun]
          exact congrArg Prod.fst (if_pos hdual)
        · rw [keepsTag, hdual]
          exact iff_of_false hclean.not_hasTag Bool.false_ne_true
      · refine hcopy ?_ ?_
        · rw [mergeNodes, hun]
          exact congrArg Prod.fst (if_neg hdual)
        · rw [keepsTag, Bool.eq_false_iff.2 hdual]
          rfl
    | _ => exact hcopy (by rw [mergeNodes, hun]) rfl

theorem outcome (overlay : Json) (h : Tagged overlay) (hbase : ∀ b, base = some b → Clean b) (path : MergePath) :
    Outcome base overlay path := by
  induction overlay using Json.induction generalizing base path with
  | arr items ih => exact outcome_arr h hbase path
  | obj fields ih =>
    exact outcome_obj h (fun e he base path hbase =>
      ih e he ((tree_obj.1 h).2.2 e he) hbase path) hbase path
  | _ => exact Outcome.of_eq rfl h Iff.rfl

end TurboPanel.Compose
