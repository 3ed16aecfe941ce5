import TurboPanel.Compose.Merge

/-!
# The merge of sequences by key

What the loop of `appendWithUniqueKey` keeps (`Merging`): the keys of the merged sequence are those
of the base, then those of the items that were new, and the index answers with the last place of
each key. So no item is lost and none invented (`appendWithUniqueKey_merges`), whatever the key of
an item is.
-/

namespace TurboPanel.Compose

open Js List

/-! ## The last place of a key -/

def LastAt (keys : List (Option Text)) (key : Text) (i : ℕ) : Prop :=
  keys[i]? = some (some key) ∧ ∀ j, i < j → keys[j]? ≠ some (some key)

variable {keys : List (Option Text)} {indexByKey : Map Text ℕ} {key : Text}

theorem LastAt.unique {i j : ℕ} (hi : LastAt keys key i) (hj : LastAt keys key j) : i = j := by
  obtain hlt | heq | hlt := Nat.lt_trichotomy i j
  · exact absurd hj.1 (hi.2 j hlt)
  · exact heq
  · exact absurd hi.1 (hj.2 i hlt)

theorem lastAt_append_self {i : ℕ} :
    LastAt (keys ++ [some key]) key i ↔ i = keys.length := by
  have hself : LastAt (keys ++ [some key]) key keys.length := by
    refine ⟨getElem?_concat_length, fun j hj => ?_⟩
    rw [getElem?_eq_none (by rw [length_append, length_singleton]; omega)]
    nofun
  constructor
  · intro h
    exact h.unique hself
  · rintro rfl
    exact hself

theorem getElem?_append_ne {last : Option Text} (h : last ≠ some key) (i : ℕ) :
    (keys ++ [last])[i]? = some (some key) ↔ keys[i]? = some (some key) := by
  rw [getElem?_append]
  split
  · exact Iff.rfl
  · rename_i hi
    rw [getElem?_eq_none (Nat.le_of_not_lt hi)]
    refine iff_of_false (fun hlast => h ?_) nofun
    exact mem_singleton.1 (mem_of_getElem? hlast) |>.symm

theorem lastAt_append_ne {last : Option Text} (h : last ≠ some key) {i : ℕ} :
    LastAt (keys ++ [last]) key i ↔ LastAt keys key i := by
  simp only [LastAt, ne_eq, getElem?_append_ne h]

/-! ## The index of the base -/

/-- The index answers with the last place of each key. -/
def IndexesLast (keys : List (Option Text)) (indexByKey : Map Text ℕ) : Prop :=
  ∀ key i, indexByKey.get? key = some i ↔ LastAt keys key i

theorem IndexesLast.append (h : IndexesLast keys indexByKey) (key : Text) :
    IndexesLast (keys ++ [some key]) (indexByKey.set key keys.length) := by
  intro other i
  rw [Map.get?_set]
  by_cases hother : other = key
  · rw [if_pos hother, hother, lastAt_append_self, Option.some.injEq]
    exact eq_comm
  · rw [if_neg hother, h other i, lastAt_append_ne]
    exact fun heq => hother (Option.some.inj heq).symm

theorem IndexesLast.append_none (h : IndexesLast keys indexByKey) :
    IndexesLast (keys ++ [none]) indexByKey := fun key i =>
  (h key i).trans (lastAt_append_ne (Option.some_ne_none key).symm).symm

theorem indexesLast_indexKeys (keyOf : Json → Option Text) (items : List Json) :
    IndexesLast (items.map keyOf) (indexKeys keyOf items) := by
  induction items using List.reverseRecOn with
  | nil =>
    intro key i
    refine iff_of_false (fun h => ?_) fun h => ?_
    · cases h
    · cases h.1
  | append_singleton items item ih =>
    rw [indexKeys, zipIdx_append, foldl_append, map_append, map_singleton]
    rw [zipIdx_singleton, foldl_cons, foldl_nil]
    dsimp only
    cases hkey : keyOf item with
    | none => exact ih.append_none
    | some key =>
      have happend := ih.append key
      rw [length_map, ← Nat.zero_add items.length] at happend
      exact happend

theorem IndexesLast.not_mem (h : IndexesLast keys indexByKey) (hnone : indexByKey.get? key = none) :
    some key ∉ keys := by
  intro hmem
  have hlast : ∃ i, LastAt keys key i := by
    clear h hnone
    induction keys using List.reverseRecOn with
    | nil => cases hmem
    | append_singleton keys last ih =>
      by_cases hlast : last = some key
      · exact ⟨keys.length, hlast ▸ lastAt_append_self.2 rfl⟩
      · obtain ⟨i, hi⟩ := ih ((mem_append.1 hmem).resolve_right fun h => hlast (mem_singleton.1 h).symm)
        exact ⟨i, (lastAt_append_ne hlast).2 hi⟩
  obtain ⟨i, hi⟩ := hlast
  rw [(h key i).2 hi] at hnone
  cases hnone

/-! ## What the loop keeps -/

/-- Both items have one key. -/
def SameKey (keyOf : Json → Option Text) (item other : Json) : Prop :=
  ∃ key, keyOf item = some key ∧ keyOf other = some key

/-- No two items have one key. -/
def UniquelyKeyed (keyOf : Json → Option Text) (items : List Json) : Prop := (items.filterMap keyOf).Nodup

/-- What is so when the loop has read `read` of the overlay, and `fresh` are the items of it that
were new. -/
structure Merging (keyOf : Json → Option Text) (base read fresh : List Json) (st : UniqueState) : Prop where
  next : st.next = read.length
  index : IndexesLast (st.out.map keyOf) st.indexByKey
  /-- New items are in the order of the overlay, and no key of the base is new. -/
  fresh_sublist : fresh.Sublist read
  fresh_keys : UniquelyKeyed keyOf fresh
  fresh_new : ∀ item ∈ fresh, ∀ other ∈ base, ¬SameKey keyOf item other
  /-- A place holds what came there first or an item of the overlay with its key. -/
  keys : st.out.map keyOf = (base ++ fresh).map keyOf
  place : ∀ (i : ℕ) (item : Json), (base ++ fresh)[i]? = some item →
    st.out[i]? = some item ∨ ∃ other ∈ read, SameKey keyOf item other ∧ st.out[i]? = some other
  /-- An item of the overlay is at its place, which has its key, unless a later one is. -/
  mapped : ∀ (oi : ℕ) (item : Json), read[oi]? = some item → ∃ i, st.overlayIndexMap.get? oi = some i ∧
    (st.out.map keyOf)[i]? = some (keyOf item) ∧
    (st.out[i]? = some item ∨ ∃ (oj : ℕ) (other : Json), oi < oj ∧ read[oj]? = some other ∧ SameKey keyOf item other)
  mapped_lt : ∀ oi i, st.overlayIndexMap.get? oi = some i → oi < read.length

section

variable {keyOf : Json → Option Text} {base read fresh : List Json} {st : UniqueState}

theorem merging_start (keyOf : Json → Option Text) (base : List Json) : Merging keyOf base [] []
    { out := base, indexByKey := indexKeys keyOf base, overlayIndexMap := Map.empty, next := 0 } where
  next := rfl
  index := indexesLast_indexKeys keyOf base
  fresh_sublist := List.Sublist.refl []
  fresh_keys := nodup_nil
  fresh_new := fun _ h => absurd h not_mem_nil
  keys := by rw [append_nil]
  place := fun i item h => .inl (by rwa [append_nil] at h)
  mapped := fun _ _ h => by cases h
  mapped_lt := fun _ _ h => by cases h

theorem Merging.push (h : Merging keyOf base read fresh st) {entry : Json} {indexByKey : Map Text ℕ}
    (hindex : IndexesLast (st.out.map keyOf ++ [keyOf entry]) indexByKey)
    (hnew : ∀ item ∈ base ++ fresh, ¬SameKey keyOf entry item) :
    Merging keyOf base (read ++ [entry]) (fresh ++ [entry])
      { out := st.out ++ [entry], indexByKey := indexByKey,
        overlayIndexMap := st.overlayIndexMap.set st.next st.out.length, next := st.next + 1 } where
  next := by rw [h.next, length_append, length_singleton]
  index := by rwa [map_append, map_singleton]
  fresh_sublist := h.fresh_sublist.append (List.Sublist.refl [entry])
  fresh_keys := by
    rw [UniquelyKeyed, filterMap_append, nodup_append]
    refine ⟨h.fresh_keys, ?_, ?_⟩
    · cases hkey : keyOf entry with
      | none =>
        rw [filterMap_cons_none hkey]
        exact nodup_nil
      | some key =>
        rw [filterMap_cons_some hkey]
        exact nodup_singleton key
    · rintro key hkey other hother rfl
      obtain ⟨item, hitem, hitemKey⟩ := mem_filterMap.1 hkey
      obtain ⟨_, hentry, hentryKey⟩ := mem_filterMap.1 hother
      obtain rfl := mem_singleton.1 hentry
      exact hnew item (mem_append_right base hitem) ⟨key, hentryKey, hitemKey⟩
  fresh_new := by
    intro item hitem other hother hsame
    obtain hitem | hitem := mem_append.1 hitem
    · exact h.fresh_new item hitem other hother hsame
    · obtain rfl := mem_singleton.1 hitem
      exact hnew other (mem_append_left fresh hother) hsame
  keys := by rw [map_append, h.keys, ← map_append, append_assoc]
  place := by
    intro i item hi
    rw [← append_assoc] at hi
    have hlength : st.out.length = (base ++ fresh).length := by
      rw [← length_map (f := keyOf), h.keys, length_map]
    dsimp only
    rw [getElem?_append] at hi ⊢
    rw [hlength]
    split at hi
    · rename_i hlt
      rw [if_pos hlt]
      obtain hout | ⟨other, hother, hsame, hout⟩ := h.place i item hi
      · exact .inl hout
      · exact .inr ⟨other, mem_append_left _ hother, hsame, hout⟩
    · rename_i hge
      rw [if_neg hge]
      exact .inl hi
  mapped := by
    intro oi item hoi
    dsimp only
    rw [getElem?_append] at hoi
    split at hoi
    · rename_i hlt
      obtain ⟨i, hget, hkey, hat⟩ := h.mapped oi item hoi
      have hi : i < st.out.length := by
        rw [← length_map (f := keyOf)]
        exact (List.getElem?_eq_some_iff.1 hkey).1
      refine ⟨i, ?_, ?_, ?_⟩
      · rw [Map.get?_set_of_ne (by rw [h.next]; omega), hget]
      · rw [map_append, getElem?_append_left (by rwa [length_map]), hkey]
      · obtain hout | ⟨oj, other, hlt', hoj, hsame⟩ := hat
        · exact .inl (by rw [getElem?_append_left hi, hout])
        · refine .inr ⟨oj, other, hlt', ?_, hsame⟩
          rw [getElem?_append_left (List.getElem?_eq_some_iff.1 hoj).1, hoj]
    · rename_i hge
      obtain ⟨hoi', rfl⟩ : oi = read.length ∧ entry = item := by
        have hlt := (List.getElem?_eq_some_iff.1 hoi).1
        rw [length_singleton] at hlt
        have hzero : oi - read.length = 0 := by omega
        rw [hzero, getElem?_cons_zero] at hoi
        exact ⟨by omega, Option.some.inj hoi⟩
      refine ⟨st.out.length, ?_, ?_, .inl getElem?_concat_length⟩
      · rw [h.next, hoi', Map.get?_set_self]
      · rw [map_append, map_singleton, ← length_map (f := keyOf), getElem?_concat_length]
  mapped_lt := by
    intro oi i hget
    rw [length_append, length_singleton]
    dsimp only at hget
    rw [Map.get?_set] at hget
    split at hget
    · rename_i heq
      rw [heq, h.next]
      omega
    · have hlt := h.mapped_lt oi i hget
      omega

theorem map_set_eq {α β : Type} {f : α → β} {l : List α} {i : ℕ} {a : α} (h : (l.map f)[i]? = some (f a)) :
    (l.set i a).map f = l.map f := by
  refine ext_getElem? fun j => ?_
  rw [map_set, getElem?_set]
  split
  · rename_i hj
    rw [← hj, h, if_pos (List.getElem?_eq_some_iff.1 h).1]
  · rfl

theorem Merging.replace (h : Merging keyOf base read fresh st) {entry : Json} {key : Text} {existing : ℕ}
    (hentry : keyOf entry = some key) (hget : st.indexByKey.get? key = some existing) :
    Merging keyOf base (read ++ [entry]) fresh
      { out := st.out.set existing entry, indexByKey := st.indexByKey,
        overlayIndexMap := st.overlayIndexMap.set st.next existing, next := st.next + 1 } := by
  have hexisting : (st.out.map keyOf)[existing]? = some (some key) := ((h.index key existing).1 hget).1
  have hlt : existing < st.out.length := by
    rw [← length_map (f := keyOf)]
    exact (List.getElem?_eq_some_iff.1 hexisting).1
  have hkeys : (st.out.set existing entry).map keyOf = st.out.map keyOf := map_set_eq (hentry ▸ hexisting)
  -- what stands at another place stays, and what stood at this one has the item's key
  have hset : ∀ i item, keyOf item = keyOf entry ∧ i = existing ∨
      (st.out.set existing entry)[i]? = some item ∨ st.out[i]? ≠ some item := by
    intro i item
    by_cases hi : existing = i
    · by_cases hout : st.out[i]? = some item
      · refine .inl ⟨?_, hi.symm⟩
        rw [hi, getElem?_map, hout] at hexisting
        rw [hentry]
        exact Option.some.inj hexisting
      · exact .inr (.inr hout)
    · rw [getElem?_set_ne hi]
      exact .inr (Classical.em _)
  exact {
    next := by rw [h.next, length_append, length_singleton]
    index := by
      dsimp only
      rw [hkeys]
      exact h.index
    fresh_sublist := h.fresh_sublist.trans (sublist_append_left read [entry])
    fresh_keys := h.fresh_keys
    fresh_new := h.fresh_new
    keys := hkeys.trans h.keys
    place := by
      intro i item hi
      dsimp only
      have hitem : (st.out.map keyOf)[i]? = some (keyOf item) := by
        rw [h.keys, getElem?_map, hi]
        rfl
      by_cases hexists : existing = i
      · subst hexists
        rw [hexisting] at hitem
        refine .inr ⟨entry, mem_append_right read mem_cons_self, ⟨key, (Option.some.inj hitem).symm,
          hentry⟩, ?_⟩
        rw [getElem?_set_self hlt]
      · rw [getElem?_set_ne hexists]
        obtain hout | ⟨other, hother, hsame, hout⟩ := h.place i item hi
        · exact .inl hout
        · exact .inr ⟨other, mem_append_left _ hother, hsame, hout⟩
    mapped := by
      intro oi item hoi
      dsimp only
      rw [hkeys]
      rw [getElem?_append] at hoi
      split at hoi
      · rename_i hread
        obtain ⟨i, hplace, hkey, hat⟩ := h.mapped oi item hoi
        refine ⟨i, ?_, hkey, ?_⟩
        · rw [Map.get?_set_of_ne (by rw [h.next]; omega), hplace]
        · obtain hout | ⟨oj, other, hlater, hoj, hsame⟩ := hat
          · obtain ⟨hsame, -⟩ | hset | hset := hset i item
            · exact .inr ⟨read.length, entry, hread, getElem?_concat_length, key, hsame.trans hentry, hentry⟩
            · exact .inl hset
            · exact absurd hout hset
          · refine .inr ⟨oj, other, hlater, ?_, hsame⟩
            rw [getElem?_append_left (List.getElem?_eq_some_iff.1 hoj).1, hoj]
      · obtain ⟨hoi', rfl⟩ : oi = read.length ∧ entry = item := by
          have hlt := (List.getElem?_eq_some_iff.1 hoi).1
          rw [length_singleton] at hlt
          have hzero : oi - read.length = 0 := by omega
          rw [hzero, getElem?_cons_zero] at hoi
          exact ⟨by omega, Option.some.inj hoi⟩
        refine ⟨existing, ?_, hentry ▸ hexisting, .inl (getElem?_set_self hlt)⟩
        rw [h.next, hoi', Map.get?_set_self]
    mapped_lt := by
      intro oi i hplace
      rw [length_append, length_singleton]
      dsimp only at hplace
      rw [Map.get?_set] at hplace
      split at hplace
      · rename_i heq
        rw [heq, h.next]
        omega
      · have hread := h.mapped_lt oi i hplace
        omega }

theorem Merging.step (h : Merging keyOf base read fresh st) (entry : Json) :
    ∃ fresh', Merging keyOf base (read ++ [entry]) fresh' (appendUnique keyOf st entry) := by
  rw [appendUnique]
  dsimp only
  cases hkey : keyOf entry with
  | none =>
    refine ⟨fresh ++ [entry], h.push (hkey ▸ h.index.append_none) fun item _ hsame => ?_⟩
    obtain ⟨key, hentry, -⟩ := hsame
    rw [hkey] at hentry
    cases hentry
  | some key =>
    dsimp only
    cases hget : st.indexByKey.get? key with
    | none =>
      have hindex := h.index.append key
      rw [length_map] at hindex
      refine ⟨fresh ++ [entry], h.push (hkey ▸ hindex) fun item hitem hsame => ?_⟩
      obtain ⟨other, hentry, hother⟩ := hsame
      obtain rfl : key = other := Option.some.inj (hkey.symm.trans hentry)
      refine h.index.not_mem hget ?_
      rw [h.keys]
      exact mem_map.2 ⟨item, hitem, hother⟩
    | some existing => exact ⟨fresh, h.replace hkey hget⟩

end

theorem merging_run (keyOf : Json → Option Text) (base overlay : List Json) : ∃ fresh, Merging keyOf base overlay fresh
    (overlay.foldl (appendUnique keyOf)
      { out := base, indexByKey := indexKeys keyOf base, overlayIndexMap := Map.empty, next := 0 }) := by
  induction overlay using List.reverseRecOn with
  | nil => exact ⟨[], merging_start keyOf base⟩
  | append_singleton read entry ih =>
    obtain ⟨fresh, h⟩ := ih
    rw [foldl_append]
    exact h.step entry

/-! ## Nothing lost, nothing invented -/

/-- What the merge of two lists by key is. -/
structure MergesUnique (keyOf : Json → Option Text) (base overlay out : List Json)
    (overlayIndexMap : OverlayIndexMap) : Prop where
  base_kept : ∀ (i : ℕ) (item : Json), base[i]? = some item →
    out[i]? = some item ∨ ∃ other ∈ overlay, SameKey keyOf item other
  overlay_kept : ∀ (oi : ℕ) (item : Json), overlay[oi]? = some item →
    item ∈ out ∨ ∃ (oj : ℕ) (other : Json), oi < oj ∧ overlay[oj]? = some other ∧ SameKey keyOf item other
  from_inputs : ∀ item ∈ out, item ∈ base ∨ item ∈ overlay
  /-- The base and the new items of the overlay in their order, each in its place or replaced by one
  with its key. -/
  order : ∃ fresh, fresh.Sublist overlay ∧ (∀ item ∈ fresh, ∀ other ∈ base, ¬SameKey keyOf item other) ∧
    out.length = (base ++ fresh).length ∧ ∀ (i : ℕ) (item : Json), (base ++ fresh)[i]? = some item →
      out[i]? = some item ∨ ∃ other ∈ overlay, SameKey keyOf item other ∧ out[i]? = some other
  unique : UniquelyKeyed keyOf base → UniquelyKeyed keyOf out
  indexed : ∀ (oi : ℕ) (item : Json), overlay[oi]? = some item → ∃ i other, overlayIndexMap.get? oi = some i ∧
    out[i]? = some other ∧ keyOf other = keyOf item

theorem Merging.mergesUnique {keyOf : Json → Option Text} {base overlay fresh : List Json} {st : UniqueState}
    (h : Merging keyOf base overlay fresh st) : MergesUnique keyOf base overlay st.out st.overlayIndexMap := by
  have hlength : st.out.length = (base ++ fresh).length := by
    rw [← length_map (f := keyOf), h.keys, length_map]
  exact {
    base_kept := by
      intro i item hi
      obtain hout | ⟨other, hother, hsame, -⟩ := h.place i item
        ((getElem?_append_left (List.getElem?_eq_some_iff.1 hi).1).trans hi)
      · exact .inl hout
      · exact .inr ⟨other, hother, hsame⟩
    overlay_kept := by
      intro oi item hoi
      obtain ⟨i, -, -, hout | hlater⟩ := h.mapped oi item hoi
      · exact .inl (mem_of_getElem? hout)
      · exact .inr hlater
    from_inputs := by
      intro item hitem
      obtain ⟨i, hi, rfl⟩ := getElem_of_mem hitem
      have hlt : i < (base ++ fresh).length := hlength ▸ hi
      obtain hout | ⟨other, hother, -, hout⟩ := h.place i _ (getElem?_eq_getElem hlt)
      · rw [getElem?_eq_getElem hi, Option.some.injEq] at hout
        rw [hout]
        exact (mem_append.1 (getElem_mem hlt)).imp_right (h.fresh_sublist.subset ·)
      · rw [getElem?_eq_getElem hi, Option.some.injEq] at hout
        rw [hout]
        exact .inr hother
    order := ⟨fresh, h.fresh_sublist, h.fresh_new, hlength, h.place⟩
    unique := by
      intro hbase
      have hfilter : ∀ l : List Json, l.filterMap keyOf = (l.map keyOf).filterMap id := fun l => by
        rw [filterMap_map]
        rfl
      rw [UniquelyKeyed, hfilter, h.keys, ← hfilter, filterMap_append, nodup_append]
      refine ⟨hbase, h.fresh_keys, ?_⟩
      rintro key hkey other hother rfl
      obtain ⟨item, hitem, hitemKey⟩ := mem_filterMap.1 hkey
      obtain ⟨new, hnew, hnewKey⟩ := mem_filterMap.1 hother
      exact h.fresh_new new hnew item hitem ⟨key, hnewKey, hitemKey⟩
    indexed := by
      intro oi item hoi
      obtain ⟨i, hget, hkey, -⟩ := h.mapped oi item hoi
      rw [getElem?_map] at hkey
      obtain ⟨other, hother, heq⟩ := Option.map_eq_some_iff.1 hkey
      exact ⟨i, other, hget, hother, heq⟩ }

/-- **The merge of sequences loses and invents nothing**, for every way to give an item a key. -/
theorem appendWithUniqueKey_merges (keyOf : Json → Option Text) (base overlay : List Json) :
    ∃ overlayIndexMap, (appendWithUniqueKey base overlay keyOf).overlayIndexMap = some overlayIndexMap ∧
      MergesUnique keyOf base overlay (appendWithUniqueKey base overlay keyOf).value overlayIndexMap := by
  obtain ⟨fresh, h⟩ := merging_run keyOf base overlay
  exact ⟨_, rfl, h.mergesUnique⟩

end TurboPanel.Compose
