import TurboPanel.Billing.Projection
import TurboPanel.Data.Traversal

/-!
# A change of seats and the next projection

`seatLinesFromState` of `features/billing/entitlements.ts` and `buildItemMutation` of
`subscriptions.ts`, between two projections. A projection folds the items of a tier into one row,
under the id of the first, and the mutation sets the quantity of the item with that id. The others
stay as they are, and are folded in again (`seat_change_iff`).
-/

namespace TurboPanel.SeatChange

open Js List
open StripeProjection (ProviderSubscriptionItem SubscriptionItemRow TierRow
  mapProviderProductsToTierIds gatherLine
  upsertSeat replaceSubscriptionItems)

/-! ## The mutation -/

/-- `SeatLine`, one projected row. -/
structure SeatLine where
  providerItemId : Text
  providerPriceId : Text
  tierId : Text
  quantity : ℕ

structure SeatLines where
  lines : List SeatLine
  priceByTier : Map Text Text
  tierByPrice : Map Text Text

/-- One round of the loop over the seats; a seat without a price is passed over. -/
def addSeatLine (out : SeatLines) (seat : SubscriptionItemRow) : SeatLines :=
  if seat.providerPriceId = [] then out
  else
    { lines := out.lines ++ [⟨seat.providerItemId, seat.providerPriceId, seat.tierId,
      seat.quantity⟩]
      priceByTier := out.priceByTier.set seat.tierId seat.providerPriceId
      tierByPrice := out.tierByPrice.set seat.providerPriceId seat.tierId }

def seatLinesFromState (seats : List SubscriptionItemRow) : SeatLines :=
  seats.foldl addSeatLine ⟨[], Map.empty, Map.empty⟩

structure TierDelta where
  tierId : Text
  delta : ℚ

/-- One entry of a subscription update's `items[]`. -/
inductive ItemMutation where
  | update (id : Text) (quantity : ℤ)
  | delete (id : Text)
  | add (price : Text) (quantity : ℤ)
  deriving DecidableEq

/-- `none` is the throw for a delta that is not an integer. -/
def sumDeltasByTier (deltas : List TierDelta) : Option (Map Text ℤ) :=
  deltas.foldlM (fun deltaByTier d =>
    if d.delta.den = 1 then some
      (deltaByTier.set d.tierId ((deltaByTier.get? d.tierId).getD 0 + d.delta.num))
    else none) Map.empty

/-- `none` is the throw for a line that would go below zero. -/
def mutationForCurrentLine (line : SeatLine) (delta : ℤ) : Option ItemMutation :=
  let next := line.quantity + delta
  if next < 0 then none
  else some (if next = 0 then .delete line.providerItemId else .update line.providerItemId next)

/-- The outer `none` is a throw, the inner one that there is nothing to create. -/
def mutationForNewTier (tierId : Text) (delta : ℤ) (priceByTier : Map Text Text) :
    Option (Option ItemMutation) :=
  if delta = 0 then some none
  else if delta < 0 then none
  else (truthy (priceByTier.get? tierId)).map fun price => some (.add price delta)

def buildItemMutation (current : List SeatLine) (deltas : List TierDelta)
    (priceByTier : Map Text Text) :
    Option (List ItemMutation) := do
  let deltaByTier ← sumDeltasByTier deltas
  let out ← current.mapM fun line =>
    mutationForCurrentLine line ((deltaByTier.get? line.tierId).getD 0)
  let added ← (deltaByTier.entries.filter fun e =>
    !(current.map (·.tierId)).contains e.1).mapM fun e =>
    mutationForNewTier e.1 e.2 priceByTier
  some (out ++ added.filterMap id)

/-! ## What the provider does with it -/

/-- The item that an entry names. -/
def ItemMutation.itemId : ItemMutation → Option Text
  | update id _ => some id
  | delete id => some id
  | add _ _ => none

/-- The price and the quantity of an item that is added. -/
def ItemMutation.added : ItemMutation → Option (Text × ℤ)
  | add price quantity => some (price, quantity)
  | _ => none

/-- What becomes of an item: the entry with its id sets its quantity, or deletes it. -/
def updateItem (mutations : List ItemMutation) (item : ProviderSubscriptionItem) :
    Option ProviderSubscriptionItem :=
  match mutations.find? fun m => decide (m.itemId = some item.providerItemId) with
  | some (.update _ quantity) => some { item with quantity := quantity }
  | some (.delete _) => none
  | _ => some item

/-- What the provider knows: the product of each price, and the ids of new items. -/
structure Catalog where
  productOf : Text → Text
  newItemId : ℕ → Text

def Catalog.newItem (c : Catalog) (e : (Text × ℤ) × ℕ) : ProviderSubscriptionItem where
  providerItemId := c.newItemId e.2
  providerPriceId := e.1.1
  providerProductId := c.productOf e.1.1
  quantity := e.1.2

/-- The items after an update of the subscription. -/
def Catalog.update (c : Catalog) (items : List ProviderSubscriptionItem)
    (mutations : List ItemMutation) :
    List ProviderSubscriptionItem :=
  items.filterMap (updateItem mutations) ++ (mutations.filterMap (·.added)).zipIdx.map c.newItem

/-! ## The tiers of the items -/

/-- The tier that a product maps to. -/
def tierOf (tiers : List TierRow) (product : Text) : Option Text :=
  (mapProviderProductsToTierIds tiers [product]).get? product

/-- One round of the loop over the tiers. -/
def mapProduct (products : List Text) (out : Map Text Text) (row : TierRow) : Map Text Text :=
  match row.providerProductId with
  | some product => if product ≠ [] ∧ product ∈ products then out.set product row.id else out
  | none => out

theorem get?_mapProduct {products : List Text} {product : Text} (h : product ∈ products)
    (out : Map Text Text)
    (row : TierRow) : (mapProduct products out row).get? product =
      if row.providerProductId = some product ∧ product ≠ [] then some row.id
      else out.get? product := by
  rw [mapProduct]
  split
  · rename_i product' heq
    rw [heq]
    by_cases hsame : product' = product
    · rw [hsame]
      by_cases hempty : product = []
      · rw [if_neg fun h => h.1 hempty, if_neg fun h => h.2 hempty]
      · rw [if_pos ⟨hempty, h⟩, if_pos ⟨rfl, hempty⟩, Map.get?_set_self]
    · have hne : ¬(some product' = some product ∧ product ≠ []) := fun hsome =>
        hsame (Option.some.inj hsome.1)
      rw [if_neg hne]
      split
      · exact Map.get?_set_of_ne (Ne.symm hsame) row.id
      · rfl
  · rename_i heq
    rw [heq, if_neg fun h => (by cases h.1)]

theorem get?_mapProviderProductsToTierIds (tiers : List TierRow) {products : List Text}
    {product : Text}
    (h : product ∈ products) :
    (mapProviderProductsToTierIds tiers products).get? product = tierOf tiers product := by
  have hfold : ∀ m m' : Map Text Text, m.get? product = m'.get? product →
      (tiers.foldl (mapProduct products) m).get? product =
        (tiers.foldl (mapProduct [product]) m').get? product := by
    induction tiers with
    | nil => exact fun m m' hm => hm
    | cons row rest ih =>
      intro m m' hm
      refine ih _ _ ?_
      rw [get?_mapProduct h, get?_mapProduct mem_cons_self, hm]
  exact hfold _ _ rfl

/-- How many seats an item is. -/
def count (item : ProviderSubscriptionItem) : ℕ := (Number.finite item.quantity).natural?.getD 0

/-- The product maps to a tier, and the quantity is a natural number. -/
def Sellable (tiers : List TierRow) (item : ProviderSubscriptionItem) : Prop :=
  (∃ tier, tierOf tiers item.providerProductId = some tier) ∧ ∃ n : ℕ, item.quantity = n

variable {item : ProviderSubscriptionItem} (seats : List SubscriptionItemRow)

variable {tiers : List TierRow}

theorem Sellable.natural (h : Sellable tiers item) :
    (Number.finite item.quantity).natural? = some (count item) := by
  obtain ⟨-, n, hn⟩ := h
  rw [count, hn, Number.natural?_natCast]
  rfl

/-- The items of a tier, in order. -/
def itemsAt (tiers : List TierRow) (items : List ProviderSubscriptionItem) (tier : Text) :
    List ProviderSubscriptionItem :=
  items.filter fun item => decide (tierOf tiers item.providerProductId = some tier)

/-- How many seats the items of a tier are. -/
def total (tiers : List TierRow) (items : List ProviderSubscriptionItem) (tier : Text) : ℕ :=
  ((itemsAt tiers items tier).map count).sum

/-! ## What a projection stores -/

/-- The line of the items of one tier: the first names it. -/
def lineOf : List ProviderSubscriptionItem → Option StripeProjection.SeatLine
  | [] => none
  | first :: rest => some ⟨first.providerItemId, first.providerPriceId,
  ((first :: rest).map count).sum⟩

theorem lineOf_concat (l : List ProviderSubscriptionItem) (item : ProviderSubscriptionItem) :
    lineOf (l ++ [item]) = some (match lineOf l with
      | some existing => { existing with quantity := existing.quantity + count item }
      | none => ⟨item.providerItemId, item.providerPriceId, count item⟩) := by
  cases l with
  | nil => simp [lineOf]
  | cons first rest => simp [lineOf, add_assoc]

/-- The lines that the loop gathers. -/
def gather (tiers : List TierRow) (items seen : List ProviderSubscriptionItem) :
    Map Text StripeProjection.SeatLine × List Text :=
  seen.foldl (gatherLine (mapProviderProductsToTierIds tiers (items.map (·.providerProductId))))
    (Map.empty, [])

theorem itemsAt_concat (tiers : List TierRow) (seen : List ProviderSubscriptionItem)
    (item : ProviderSubscriptionItem)
    (tier : Text) : itemsAt tiers (seen ++ [item]) tier = itemsAt tiers seen tier ++
      if tierOf tiers item.providerProductId = some tier then [item] else [] := by
  rw [itemsAt, filter_append, itemsAt]
  congr 1
  by_cases h : tierOf tiers item.providerProductId = some tier <;> simp [h]

variable {items : List ProviderSubscriptionItem}

theorem get?_gather {seen : List ProviderSubscriptionItem} (hseen : seen ⊆ items)
    (hitems : ∀ item ∈ items, Sellable tiers item) (tier : Text) :
    (gather tiers items seen).1.get? tier = lineOf (itemsAt tiers seen tier) := by
  induction seen using List.reverseRecOn generalizing tier with
  | nil => rfl
  | append_singleton seen item ih =>
    have hitem : item ∈ items := hseen (mem_append_right _ mem_cons_self)
    have hseen' : seen ⊆ items := fun other hother => hseen (mem_append_left _ hother)
    obtain ⟨tier', htier'⟩ := (hitems item hitem).1
    have hget : (mapProviderProductsToTierIds tiers (items.map (·.providerProductId))).get?
      item.providerProductId =
        some tier' := (get?_mapProviderProductsToTierIds tiers (mem_map_of_mem hitem)).trans htier'
    have hstep : gather tiers items (seen ++ [item]) =
      gatherLine (mapProviderProductsToTierIds tiers
        (items.map (·.providerProductId))) (gather tiers items seen) item := by
      rw [gather, foldl_append]
      rfl
    have hline := ih hseen' tier'
    have hset : (gather tiers items (seen ++ [item])).1.get? tier = if tier = tier' then
        lineOf (itemsAt tiers seen tier' ++ [item]) else (gather tiers items seen).1.get? tier := by
      rw [hstep, gatherLine, hget, (hitems item hitem).natural, lineOf_concat]
      dsimp only
      rw [hline]
      cases lineOf (itemsAt tiers seen tier') with
      | some existing => exact Map.get?_set _ _ _ _
      | none => exact Map.get?_set _ _ _ _
    rw [hset, itemsAt_concat, htier']
    by_cases hsame : tier = tier'
    · rw [if_pos hsame, hsame, if_pos rfl]
    · rw [if_neg hsame, if_neg fun h => hsame (Option.some.inj h).symm, append_nil]
      exact ih hseen' tier

/-! ## The rows -/

/-- The row of a line. -/
def rowOf (e : Text × StripeProjection.SeatLine) : SubscriptionItemRow :=
  ⟨e.1, e.2.providerItemId, e.2.providerPriceId, e.2.quantity⟩

theorem foldl_upsertSeat {entries : List (Text × StripeProjection.SeatLine)}
    {seats : List SubscriptionItemRow}
    (h : (seats.map (·.providerItemId) ++ entries.map (·.2.providerItemId)).Nodup) :
    entries.foldl (fun seats (e : Text × StripeProjection.SeatLine) =>
    upsertSeat seats (rowOf e)) seats =
      seats ++ entries.map rowOf := by
  induction entries generalizing seats with
  | nil => exact (append_nil seats).symm
  | cons e rest ih =>
    have hnew : upsertSeat seats (rowOf e) = seats ++ [rowOf e] := by
      refine if_neg ?_
      rw [any_eq_true]
      rintro ⟨seat, hseat, hsame⟩
      have hdisjoint := (nodup_append.1 h).2.2 _ (mem_map_of_mem hseat) e.2.providerItemId
        (mem_cons_self ..)
      exact hdisjoint (of_decide_eq_true hsame)
    have hrest : ((seats ++ [rowOf e]).map (·.providerItemId) ++
      rest.map (·.2.providerItemId)).Nodup := by
      rw [map_append, append_assoc]
      exact h
    rw [foldl_cons, hnew, ih hrest, append_assoc]
    rfl

variable {tier : Text}

theorem mem_itemsAt :
    item ∈ itemsAt tiers items tier ↔
    item ∈ items ∧ tierOf tiers item.providerProductId = some tier := by
  rw [itemsAt, mem_filter, decide_eq_true_iff]

theorem lineOf_eq_some
    {line : StripeProjection.SeatLine} (h : lineOf (itemsAt tiers items tier) = some line) :
    ∃ first rest, itemsAt tiers items tier = first :: rest ∧
      line = ⟨first.providerItemId, first.providerPriceId, total tiers items tier⟩ := by
  rw [total]
  cases hitems : itemsAt tiers items tier with
  | nil =>
    rw [hitems] at h
    cases h
  | cons first rest =>
    rw [hitems] at h
    exact ⟨first, rest, rfl, (Option.some.inj h).symm⟩

section

variable {tiers : List TierRow} {items : List ProviderSubscriptionItem}

theorem mem_gather (hitems : ∀ item ∈ items, Sellable tiers item)
    {e : Text × StripeProjection.SeatLine} :
    e ∈ (gather tiers items items).1.entries ↔ lineOf (itemsAt tiers items e.1) = some e.2 := by
  rw [← get?_gather (List.Subset.refl items) hitems]
  exact Map.get?_eq_some_iff.symm

section

variable (hids : (items.map (·.providerItemId)).Nodup)
  (hitems : ∀ item ∈ items, Sellable tiers item)
include hids hitems

theorem nodup_lineIds : ((gather tiers items items).1.entries.map (·.2.providerItemId)).Nodup := by
  refine List.Nodup.map_on (fun e he e' he' hsame => ?_)
    ((gather tiers items items).1.nodup.of_map _)
  have hline := (mem_gather hitems).1 he
  have hline' := (mem_gather hitems).1 he'
  obtain ⟨first, rest, hfirst, heq⟩ := lineOf_eq_some hline
  obtain ⟨first', rest', hfirst', heq'⟩ := lineOf_eq_some hline'
  obtain ⟨hmem, htier⟩ := mem_itemsAt.1 (hfirst ▸ mem_cons_self : first ∈ itemsAt tiers items e.1)
  obtain ⟨hmem', htier'⟩ := mem_itemsAt.1 (hfirst' ▸ mem_cons_self : first' ∈
    itemsAt tiers items e'.1)
  have hid : first.providerItemId = first'.providerItemId := by
    rw [heq, heq'] at hsame
    exact hsame
  obtain rfl := inj_on_of_nodup_map hids hmem hmem' hid
  have hkey : e.1 = e'.1 := Option.some.inj (htier.symm.trans htier')
  refine Prod.ext hkey ?_
  rw [hkey] at hline
  exact Option.some.inj (hline.symm.trans hline')

/-- **A projection** stores the line of each tier. -/
theorem replaceSubscriptionItems_eq :
    (replaceSubscriptionItems tiers items).1 = (gather tiers items items).1.entries.map rowOf :=
  foldl_upsertSeat (nodup_lineIds hids hitems)

end

end

theorem sum_map_filter {α M : Type*} [AddMonoid M] (p : α → Prop) [DecidablePred p] (f : α → M)
    (l : List α) :
    ((l.filter fun a => decide (p a)).map f).sum = (l.map fun a => if p a then f a else 0).sum := by
  induction l with
  | nil => rfl
  | cons a rest ih => by_cases h : p a <;> simp [h, ih]

theorem sum_entries {κ ν M : Type*} [DecidableEq κ] [AddMonoid M] (f : ν → M)
    {entries : List (κ × ν)}
    (h : (entries.map Prod.fst).Nodup) (k : κ) :
    (entries.map fun e => if e.1 = k then f e.2 else 0).sum =
      (((⟨entries, h⟩ : Map κ ν).get? k).map f).getD 0 := by
  induction entries with
  | nil => rfl
  | cons e rest ih =>
    obtain ⟨hnot, hrest⟩ := nodup_cons.1 h
    have hget : (⟨e :: rest, h⟩ : Map κ ν).get? k =
        if k = e.1 then some e.2 else (⟨rest, hrest⟩ : Map κ ν).get? k := lookup_cons_if k e rest
    rw [map_cons, sum_cons, ih hrest, hget]
    by_cases hkey : e.1 = k
    · have hnone : (⟨rest, hrest⟩ : Map κ ν).get? k = none := lookup_eq_none_iff.2 (hkey ▸ hnot)
      rw [hnone, if_pos hkey, if_pos hkey.symm]
      exact add_zero _
    · rw [if_neg hkey, if_neg (Ne.symm hkey), zero_add]

/-- How many seats of a tier are stored. -/
def seatQuantity (seats : List SubscriptionItemRow) (tier : Text) : ℕ :=
  ((seats.filter fun seat => decide (seat.tierId = tier)).map (·.quantity)).sum

theorem seatQuantity_rowOf (m : Map Text StripeProjection.SeatLine) (tier : Text) :
    seatQuantity (m.entries.map rowOf) tier = ((m.get? tier).map (·.quantity)).getD 0 := by
  rw [seatQuantity, sum_map_filter (fun seat : SubscriptionItemRow => seat.tierId = tier), map_map]
  exact sum_entries (·.quantity) m.nodup tier

theorem seatQuantity_replaceSubscriptionItems
    (hids : (items.map (·.providerItemId)).Nodup) (hitems : ∀ item ∈ items, Sellable tiers item)
    (tier : Text) :
    seatQuantity (replaceSubscriptionItems tiers items).1 tier = total tiers items tier := by
  have hget := get?_gather (List.Subset.refl items) hitems tier
  rw [replaceSubscriptionItems_eq hids hitems, seatQuantity_rowOf, hget, total]
  cases itemsAt tiers items tier with
  | nil => rfl
  | cons first rest => rfl

/-! ## The lines of the mutation -/

def lineOfRow (seat : SubscriptionItemRow) : SeatLine :=
  ⟨seat.providerItemId, seat.providerPriceId, seat.tierId, seat.quantity⟩

theorem lines_foldl_addSeatLine (out : SeatLines) :
    (seats.foldl addSeatLine out).lines =
      out.lines ++ (seats.filter fun seat => decide (seat.providerPriceId ≠ [])).map lineOfRow := by
  induction seats generalizing out with
  | nil => exact (append_nil _).symm
  | cons seat rest ih =>
    rw [foldl_cons, ih, addSeatLine]
    by_cases hprice : seat.providerPriceId = []
    · simp [hprice]
    · simp [hprice, lineOfRow]

theorem lines_seatLinesFromState : (seatLinesFromState seats).lines =
    (seats.filter fun seat => decide (seat.providerPriceId ≠ [])).map lineOfRow :=
  lines_foldl_addSeatLine seats _

/-- The lines that a projection of items gives. -/
def linesOf (tiers : List TierRow) (items : List ProviderSubscriptionItem) : List SeatLine :=
  (seatLinesFromState (replaceSubscriptionItems tiers items).1).lines

section

variable {tiers : List TierRow} {items : List ProviderSubscriptionItem}

section

variable (hids : (items.map (·.providerItemId)).Nodup)
  (hitems : ∀ item ∈ items, Sellable tiers item)
include hids hitems

theorem mem_linesOf
    {line : SeatLine} : line ∈ linesOf tiers items ↔ ∃ first rest,
    itemsAt tiers items line.tierId = first :: rest ∧
      first.providerPriceId ≠ [] ∧
      line = ⟨first.providerItemId, first.providerPriceId, line.tierId,
      total tiers items line.tierId⟩ := by
  rw [linesOf, lines_seatLinesFromState, replaceSubscriptionItems_eq hids hitems, mem_map]
  constructor
  · rintro ⟨seat, hseat, rfl⟩
    obtain ⟨hmem, hprice⟩ := mem_filter.1 hseat
    obtain ⟨e, he, rfl⟩ := mem_map.1 hmem
    obtain ⟨first, rest, hfirst, heq⟩ := lineOf_eq_some ((mem_gather hitems).1 he)
    rw [rowOf, heq] at hprice
    refine ⟨first, rest, hfirst, of_decide_eq_true hprice, ?_⟩
    rw [lineOfRow, rowOf, heq]
  · rintro ⟨first, rest, hfirst, hprice, heq⟩
    refine ⟨rowOf (line.tierId,
      ⟨first.providerItemId, first.providerPriceId, total tiers items line.tierId⟩),
      mem_filter.2 ⟨mem_map_of_mem ((mem_gather hitems).2 ?_), decide_eq_true hprice⟩, heq.symm⟩
    rw [total, hfirst]
    rfl

theorem nodup_linesOf : ((linesOf tiers items).map (·.providerItemId)).Nodup := by
  rw [linesOf, lines_seatLinesFromState, replaceSubscriptionItems_eq hids hitems, map_map]
  refine (nodup_lineIds hids hitems).sublist ?_
  have hsub := (filter_sublist (p := fun seat : SubscriptionItemRow =>
    decide (seat.providerPriceId ≠ []))
    (l := (gather tiers items items).1.entries.map rowOf)).map (·.providerItemId)
  rw [map_map] at hsub
  exact hsub

end

end

/-! ## The deltas -/

/-- The sum of the deltas of a tier. -/
def deltaAt (deltas : List TierDelta) (tier : Text) : ℚ :=
  ((deltas.filter fun d => decide (d.tierId = tier)).map (·.delta)).sum

theorem sumDeltasByTier_eq_some {deltas : List TierDelta} {deltaByTier : Map Text ℤ}
    (h : sumDeltasByTier deltas = some deltaByTier) (tier : Text) :
    (((deltaByTier.get? tier).getD 0 : ℤ) : ℚ) = deltaAt deltas tier := by
  have hfold : ∀ init : Map Text ℤ, deltas.foldlM (fun deltaByTier (d : TierDelta) =>
      if d.delta.den = 1 then some
        (deltaByTier.set d.tierId ((deltaByTier.get? d.tierId).getD 0 + d.delta.num))
      else none) init = some deltaByTier →
      (((deltaByTier.get? tier).getD 0 : ℤ) : ℚ) = ((init.get? tier).getD 0 : ℤ) +
        deltaAt deltas tier := by
    clear h
    induction deltas with
    | nil =>
      intro init h
      cases h
      simp [deltaAt]
    | cons d rest ih =>
      intro init h
      rw [foldlM_cons] at h
      obtain ⟨next, hnext, hrest⟩ := Option.bind_eq_some_iff.1 h
      split at hnext
      · rename_i hden
        cases hnext
        have hnum : (d.delta.num : ℚ) = d.delta := Rat.coe_int_num_of_den_eq_one hden
        rw [ih _ hrest, Map.get?_set]
        by_cases hkey : tier = d.tierId
        · rw [if_pos hkey, hkey]
          simp [deltaAt, hnum, add_assoc]
        · rw [if_neg hkey]
          simp [deltaAt, Ne.symm hkey]
      · cases hnext
  rw [hfold Map.empty h, Map.get?_empty]
  simp

/-! ## The update -/

/-- What `buildItemMutation` gives: an entry for each line, and one for each new tier that gets
seats. -/
structure Built (lines : List SeatLine) (deltas : List TierDelta) (priceByTier : Map Text Text)
    (mutations : List ItemMutation) where
  deltaByTier : Map Text ℤ
  out : List ItemMutation
  added : List (Option ItemMutation)
  sums : sumDeltasByTier deltas = some deltaByTier
  current : List.Forall₂ (fun line m =>
    mutationForCurrentLine line ((deltaByTier.get? line.tierId).getD 0) = some m) lines out
  new : List.Forall₂ (fun e m => mutationForNewTier e.1 e.2 priceByTier = some m)
    (deltaByTier.entries.filter fun e => !(lines.map (·.tierId)).contains e.1) added
  eq : mutations = out ++ added.filterMap id

theorem buildItemMutation_eq_some {lines : List SeatLine} {deltas : List TierDelta}
    {priceByTier : Map Text Text}
    {mutations : List ItemMutation}
    (h : buildItemMutation lines deltas priceByTier = some mutations) :
    Nonempty (Built lines deltas priceByTier mutations) := by
  obtain ⟨deltaByTier, hsums, h⟩ := Option.bind_eq_some_iff.1 h
  obtain ⟨out, hout, h⟩ := Option.bind_eq_some_iff.1 h
  obtain ⟨added, hadded, h⟩ := Option.bind_eq_some_iff.1 h
  exact ⟨⟨deltaByTier, out, added, hsums, forall₂_of_mapM_some hout, forall₂_of_mapM_some hadded,
    (Option.some.inj h).symm⟩⟩

variable {delta : ℤ}

theorem mutationForCurrentLine_eq_some {line : SeatLine} {m : ItemMutation}
    (h : mutationForCurrentLine line delta = some m) : 0 ≤ line.quantity + delta ∧
      m = if line.quantity + delta = 0 then .delete line.providerItemId
        else .update line.providerItemId (line.quantity + delta) := by
  rw [mutationForCurrentLine] at h
  split at h
  · cases h
  · rename_i hle
    exact ⟨not_lt.1 hle, (Option.some.inj h).symm⟩

theorem itemId_mutationForCurrentLine {line : SeatLine} {m : ItemMutation}
    (h : mutationForCurrentLine line delta = some m) : m.itemId = some line.providerItemId := by
  rw [(mutationForCurrentLine_eq_some h).2]
  split <;> rfl

theorem mutationForNewTier_eq_some {priceByTier : Map Text Text} {m : Option ItemMutation}
    (h : mutationForNewTier tier delta priceByTier = some m) :
    delta = 0 ∧ m = none ∨ 0 < delta ∧ ∃ price,
    priceByTier.get? tier = some price ∧ m = some (.add price delta) := by
  rw [mutationForNewTier] at h
  split at h
  · rename_i hzero
    exact .inl ⟨hzero, (Option.some.inj h).symm⟩
  · rename_i hne
    split at h
    · cases h
    · rename_i hneg
      obtain ⟨price, hprice, heq⟩ := Option.map_eq_some_iff.1 h
      exact .inr ⟨by omega, price, (truthy_eq_some.1 hprice).1, heq.symm⟩

section

variable {lines : List SeatLine} {deltas : List TierDelta} {priceByTier : Map Text Text}
  {mutations : List ItemMutation}

section

variable (h : Built lines deltas priceByTier mutations)
include h

theorem Built.itemId_new {m : ItemMutation} (hm : m ∈ h.added.filterMap id) : m.itemId = none := by
  obtain ⟨m', hm', rfl⟩ := mem_filterMap.1 hm
  obtain ⟨e, -, he⟩ := exists_left_of_mem h.new hm'
  obtain ⟨-, hnone⟩ | ⟨-, price, -, hsome⟩ := mutationForNewTier_eq_some he
  · cases hnone
  · cases hsome
    rfl

theorem Built.find_eq_some
    (hids : (lines.map (·.providerItemId)).Nodup) {line : SeatLine} (hline : line ∈ lines) :
    ∃ m, mutationForCurrentLine line ((h.deltaByTier.get? line.tierId).getD 0) = some m ∧
      (mutations.find? fun m => decide (m.itemId = some line.providerItemId)) = some m := by
  obtain ⟨deltaByTier, out, added, hsums, hcurrent, hnew, rfl⟩ := h
  dsimp only
  clear hsums hnew
  induction hcurrent with
  | nil => cases hline
  | @cons head m lines out hhead hrest ih =>
    obtain ⟨hnot, hnodup⟩ := nodup_cons.1 hids
    obtain rfl | hline := mem_cons.1 hline
    · refine ⟨m, hhead, ?_⟩
      rw [cons_append, find?_cons_of_pos (by simpa using itemId_mutationForCurrentLine hhead)]
    · obtain ⟨m', hm', hfind⟩ := ih hnodup hline
      refine ⟨m', hm', ?_⟩
      rw [cons_append, find?_cons_of_neg, hfind]
      rw [decide_eq_true_iff, itemId_mutationForCurrentLine hhead]
      intro hsame
      exact hnot (mem_map.2 ⟨line, hline, (Option.some.inj hsame).symm⟩)

theorem Built.find_eq_none {id : Text} (hid : ∀ line ∈ lines, line.providerItemId ≠ id) :
    (mutations.find? fun m => decide (m.itemId = some id)) = none := by
  rw [find?_eq_none]
  intro m hm hsame
  have hsame : m.itemId = some id := of_decide_eq_true hsame
  rw [h.eq] at hm
  obtain hm | hm := mem_append.1 hm
  · obtain ⟨line, hline, hmade⟩ := exists_left_of_mem h.current hm
    rw [itemId_mutationForCurrentLine hmade] at hsame
    exact hid line hline (Option.some.inj hsame)
  · rw [h.itemId_new hm] at hsame
    cases hsame

theorem Built.filterMap_added :
    mutations.filterMap (·.added) = (h.added.filterMap id).filterMap (·.added) := by
  have hnone : h.out.filterMap (·.added) = [] := by
    rw [filterMap_eq_nil_iff]
    intro m hm
    obtain ⟨line, -, hmade⟩ := exists_left_of_mem h.current hm
    rw [(mutationForCurrentLine_eq_some hmade).2]
    split <;> rfl
  have happend := congrArg (List.filterMap (·.added)) h.eq
  rw [filterMap_append, hnone, nil_append] at happend
  exact happend

end

end

/-! ## What a tier has after the update -/

theorem total_eq_sum (tiers : List TierRow) (items : List ProviderSubscriptionItem) (tier : Text) :
    total tiers items tier =
      (items.map fun item => if tierOf tiers item.providerProductId = some tier then count item
      else 0).sum := by
  rw [total, itemsAt, sum_map_filter fun item : ProviderSubscriptionItem =>
    tierOf tiers item.providerProductId = some tier]

theorem total_append (tiers : List TierRow) (items items' : List ProviderSubscriptionItem)
    (tier : Text) :
    total tiers (items ++ items') tier = total tiers items tier + total tiers items' tier := by
  rw [total_eq_sum, total_eq_sum, total_eq_sum, map_append, sum_append]

theorem total_perm {items' : List ProviderSubscriptionItem} (h : items.Perm items')
    (tier : Text) : total tiers items tier = total tiers items' tier := by
  rw [total_eq_sum, total_eq_sum]
  exact (h.map _).sum_eq

/-- How many seats an item is after the update. -/
def updatedCount (mutations : List ItemMutation) (item : ProviderSubscriptionItem) : ℕ :=
  ((updateItem mutations item).map count).getD 0

theorem updateItem_eq_some {mutations : List ItemMutation} {item item' : ProviderSubscriptionItem}
    (h : updateItem mutations item = some item') :
    item'.providerItemId = item.providerItemId ∧
    item'.providerProductId = item.providerProductId := by
  rw [updateItem] at h
  split at h
  · cases h
    exact ⟨rfl, rfl⟩
  · cases h
  · cases h
    exact ⟨rfl, rfl⟩

theorem total_updateItem (tiers : List TierRow) (mutations : List ItemMutation)
    (items : List ProviderSubscriptionItem) (tier : Text) :
    total tiers (items.filterMap (updateItem mutations)) tier =
      ((itemsAt tiers items tier).map (updatedCount mutations)).sum := by
  rw [total_eq_sum, itemsAt, sum_map_filter fun item : ProviderSubscriptionItem =>
    tierOf tiers item.providerProductId = some tier]
  induction items with
  | nil => rfl
  | cons item rest ih =>
    rw [map_cons, sum_cons, ← ih]
    cases hitem : updateItem mutations item with
    | none =>
      rw [filterMap_cons_none hitem, updatedCount, hitem]
      simp
    | some item' =>
      rw [filterMap_cons_some hitem, map_cons, sum_cons, updatedCount, hitem,
        (updateItem_eq_some hitem).2]
      rfl

section

variable {tiers : List TierRow} {items : List ProviderSubscriptionItem} {deltas : List TierDelta}
  {priceByTier : Map Text Text} {mutations : List ItemMutation}

variable {rest : List ProviderSubscriptionItem} {first : ProviderSubscriptionItem}
  {item : ProviderSubscriptionItem}

theorem Built.updateItem_of_unnamed (h : Built (linesOf tiers items) deltas priceByTier mutations)
    (hitem : ∀ line ∈ linesOf tiers items, line.providerItemId ≠ item.providerItemId) :
    updateItem mutations item = some item := by
  rw [updateItem, h.find_eq_none hitem]

theorem line_of_named (hids : (items.map (·.providerItemId)).Nodup)
    (hitems : ∀ item ∈ items, Sellable tiers item)
    {tier : Text} (hitem : item ∈ itemsAt tiers items tier) {line : SeatLine}
    (hline : line ∈ linesOf tiers items)
    (hsame : line.providerItemId = item.providerItemId) :
    ∃ rest, itemsAt tiers items tier = item :: rest ∧ item.providerPriceId ≠ [] := by
  obtain ⟨first, rest, hfirst, hprice, heq⟩ := (mem_linesOf hids hitems).1 hline
  obtain ⟨hmem, htier⟩ := mem_itemsAt.1 (hfirst ▸ mem_cons_self : first ∈
    itemsAt tiers items line.tierId)
  obtain ⟨hmem', htier'⟩ := mem_itemsAt.1 hitem
  have hid : first.providerItemId = item.providerItemId := by
    rw [heq] at hsame
    exact hsame
  obtain rfl := inj_on_of_nodup_map hids hmem hmem' hid
  cases htier'.symm.trans htier
  exact ⟨rest, hfirst, hprice⟩

section

variable (h : Built (linesOf tiers items) deltas priceByTier mutations)
  (hids : (items.map (·.providerItemId)).Nodup) (hitems : ∀ item ∈ items, Sellable tiers item)
include h hids hitems

theorem Built.updatedCount_rest {tier : Text} (hfirst : itemsAt tiers items tier = first :: rest) :
    (rest.map (updatedCount mutations)).sum = (rest.map count).sum := by
  refine congrArg List.sum (map_congr_left fun item hitem => ?_)
  have hmem : item ∈ itemsAt tiers items tier := hfirst ▸ mem_cons_of_mem first hitem
  have hnodup : (first :: rest).Nodup := by
    rw [← hfirst]
    exact (hids.of_map _).filter _
  rw [updatedCount, h.updateItem_of_unnamed fun line hline hsame => ?_]
  · rfl
  · obtain ⟨rest', hfirst', -⟩ := line_of_named hids hitems hmem hline hsame
    cases hfirst.symm.trans hfirst'
    exact (nodup_cons.1 hnodup).1 hitem

theorem Built.updatedCount_first {tier : Text}
    (hfirst : itemsAt tiers items tier = first :: rest) (hprice : first.providerPriceId ≠ []) :
    (updatedCount mutations first : ℤ) = total tiers items tier +
    (h.deltaByTier.get? tier).getD 0 := by
  have hline : (⟨first.providerItemId, first.providerPriceId, tier,
    total tiers items tier⟩ : SeatLine) ∈
      linesOf tiers items := (mem_linesOf hids hitems).2 ⟨first, rest, hfirst, hprice, rfl⟩
  obtain ⟨m, hm, hfind⟩ := h.find_eq_some (nodup_linesOf hids hitems) hline
  obtain ⟨hle, hmade⟩ := mutationForCurrentLine_eq_some hm
  dsimp only at hle hmade hfind
  rw [updatedCount, updateItem, hfind, hmade]
  by_cases hzero : (total tiers items tier : ℤ) + (h.deltaByTier.get? tier).getD 0 = 0
  · rw [if_pos hzero, hzero]
    rfl
  · rw [if_neg hzero]
    obtain ⟨n, hn⟩ := Int.eq_ofNat_of_zero_le hle
    rw [hn, Option.map_some, Option.getD_some, count]
    change (((Number.finite ((n : ℤ) : ℚ)).natural?.getD 0 : ℕ) : ℤ) = n
    rw [Int.cast_natCast, Number.natural?_natCast, Option.getD_some]

end

end

/-! ## The items that are added -/

/-- The price of a tier is of a product that maps to it. -/
def Catalog.Prices (c : Catalog) (tiers : List TierRow) (priceByTier : Map Text Text) : Prop :=
  ∀ tier price, priceByTier.get? tier = some price → tierOf tiers (c.productOf price) = some tier

/-- New items have ids of their own. -/
structure Catalog.Fresh (c : Catalog) (items : List ProviderSubscriptionItem) : Prop where
  injective : Function.Injective c.newItemId
  new : ∀ n, c.newItemId n ∉ items.map (·.providerItemId)

theorem natural?_intCast (q : ℤ) : ((Number.finite (q : ℚ)).natural?).getD 0 = q.toNat := by
  rw [Number.natural?]
  by_cases h : 0 ≤ q
  · rw [if_pos ⟨Rat.den_intCast q, by rw [Rat.num_intCast]; exact h⟩, Rat.num_intCast]
    rfl
  · rw [if_neg fun hq => h (by simpa using hq.2)]
    simp only [Option.getD_none]
    omega

/-- The seats of a tier among those that an entry adds. -/
def addedAt (c : Catalog) (tiers : List TierRow) (tier : Text) (e : Text × ℤ) : ℕ :=
  if tierOf tiers (c.productOf e.1) = some tier then e.2.toNat else 0

theorem total_newItem (c : Catalog) (tiers : List TierRow) (tier : Text) (l : List (Text × ℤ)) :
    total tiers (l.zipIdx.map c.newItem) tier = (l.map (addedAt c tiers tier)).sum := by
  have hmap : l.zipIdx.map (fun e => addedAt c tiers tier e.1) = l.map (addedAt c tiers tier) := by
    have hfst := congrArg (List.map (addedAt c tiers tier)) (zipIdx_map_fst 0 l)
    rw [map_map] at hfst
    exact hfst
  rw [total_eq_sum, map_map, ← hmap]
  refine congrArg List.sum (map_congr_left fun e _ => ?_)
  simp only [Function.comp_apply, Catalog.newItem, addedAt, count, natural?_intCast]

section

variable {c : Catalog} {tiers : List TierRow} {lines : List SeatLine} {deltas : List TierDelta}
  {priceByTier : Map Text Text} {mutations : List ItemMutation}

theorem Built.total_new (h : Built lines deltas priceByTier mutations)
    (hprices : c.Prices tiers priceByTier)
    (tier : Text) : (total tiers ((mutations.filterMap (·.added)).zipIdx.map c.newItem) tier : ℤ) =
      if tier ∈ lines.map (·.tierId) then 0 else (h.deltaByTier.get? tier).getD 0 := by
  have hentries : ((mutations.filterMap (·.added)).map (addedAt c tiers tier)).sum =
      ((h.deltaByTier.entries.filter fun e => !(lines.map (·.tierId)).contains e.1).map fun e =>
        if e.1 = tier then e.2.toNat else 0).sum := by
    rw [h.filterMap_added]
    have hnew := h.new
    revert hnew
    generalize h.added = added
    generalize (h.deltaByTier.entries.filter fun e =>
      !(lines.map (·.tierId)).contains e.1) = entries
    intro hnew
    induction hnew with
    | nil => rfl
    | @cons e m entries added hmade hrest ih =>
      rw [map_cons, sum_cons, ← ih]
      obtain ⟨hzero, rfl⟩ | ⟨hpos, price, hprice, rfl⟩ := mutationForNewTier_eq_some hmade
      · rw [hzero]
        simp
      · have htier : addedAt c tiers tier (price, e.2) = if e.1 = tier then e.2.toNat else 0 := by
          simp only [addedAt, hprices e.1 price hprice, Option.some.injEq]
        rw [← htier]
        rfl
  rw [total_newItem, hentries]
  by_cases hseen : tier ∈ lines.map (·.tierId)
  · rw [if_pos hseen, sum_eq_zero fun n hn => ?_, Nat.cast_zero]
    obtain ⟨e, he, rfl⟩ := mem_map.1 hn
    refine if_neg fun hkey => ?_
    have hnot := (mem_filter.1 he).2
    rw [hkey, contains_iff_mem.2 hseen] at hnot
    cases hnot
  · have hall : ((h.deltaByTier.entries.filter fun e =>
      !(lines.map (·.tierId)).contains e.1).map fun e =>
        if e.1 = tier then e.2.toNat
          else 0).sum = ((h.deltaByTier.get? tier).map Int.toNat).getD 0 := by
      rw [← sum_entries Int.toNat h.deltaByTier.nodup tier]
      have hfilter := sum_map_filter (fun e : Text × ℤ =>
        (!(lines.map (·.tierId)).contains e.1) = true)
        (fun e => if e.1 = tier then e.2.toNat else 0) h.deltaByTier.entries
      simp only [Bool.decide_eq_true] at hfilter
      rw [hfilter]
      refine congrArg List.sum (map_congr_left fun e _ => ?_)
      by_cases hkey : e.1 = tier
      · have hnot : (!(lines.map (·.tierId)).contains e.1) = true := by
          rw [hkey, Bool.not_eq_true', ← Bool.not_eq_true, contains_iff_mem]
          exact hseen
        rw [if_pos hnot]
      · rw [if_neg hkey, ite_self]
    rw [if_neg hseen, hall]
    cases hget : h.deltaByTier.get? tier with
    | none => rfl
    | some delta =>
      have hmem : (tier, delta) ∈ h.deltaByTier.entries.filter fun e =>
        !(lines.map (·.tierId)).contains e.1 := by
        refine mem_filter.2 ⟨Map.get?_eq_some_iff.1 hget, ?_⟩
        rw [Bool.not_eq_true', ← Bool.not_eq_true, contains_iff_mem]
        exact hseen
      obtain ⟨m, -, hmade⟩ := exists_right_of_mem h.new hmem
      have hle : 0 ≤ delta := by
        obtain ⟨hzero, -⟩ | ⟨hpos, -⟩ := mutationForNewTier_eq_some hmade
        · exact hzero.ge
        · exact hpos.le
      exact Int.toNat_of_nonneg hle

end

/-! ## One change of seats -/

/-- The seats that a projection folds into the first item of a tier, and an update does not reach.
-/
def foldedAway (tiers : List TierRow) (items : List ProviderSubscriptionItem) (tier : Text) : ℕ :=
  match itemsAt tiers items tier with
  | [] => 0
  | first :: rest => if first.providerPriceId = [] then 0 else (rest.map count).sum

/-- Where the first item of a tier has a price, the others have no seats. -/
def OneItemATier (tiers : List TierRow) (items : List ProviderSubscriptionItem) : Prop :=
  ∀ tier first rest, itemsAt tiers items tier = first :: rest → first.providerPriceId ≠ [] →
    ∀ item ∈ rest, item.quantity = 0

section

variable {c : Catalog} {tiers : List TierRow} {items : List ProviderSubscriptionItem}
  {deltas : List TierDelta}
  {priceByTier : Map Text Text} {mutations : List ItemMutation}

theorem mem_tiers_linesOf (hids : (items.map (·.providerItemId)).Nodup)
    (hitems : ∀ item ∈ items, Sellable tiers item)
    {tier : Text} : tier ∈ (linesOf tiers items).map (·.tierId) ↔
      ∃ first rest, itemsAt tiers items tier = first :: rest ∧ first.providerPriceId ≠ [] := by
  constructor
  · intro h
    obtain ⟨line, hline, rfl⟩ := mem_map.1 h
    obtain ⟨first, rest, hfirst, hprice, -⟩ := (mem_linesOf hids hitems).1 hline
    exact ⟨first, rest, hfirst, hprice⟩
  · rintro ⟨first, rest, hfirst, hprice⟩
    exact mem_map.2 ⟨⟨first.providerItemId, first.providerPriceId, tier, total tiers items tier⟩,
      (mem_linesOf hids hitems).2 ⟨first, rest, hfirst, hprice, rfl⟩, rfl⟩

/-- **What a tier has after the update**: its seats, the delta, and once more what was folded away.
-/
theorem Built.total_update (h : Built (linesOf tiers items) deltas priceByTier mutations)
    (hids : (items.map (·.providerItemId)).Nodup) (hitems : ∀ item ∈ items, Sellable tiers item)
    (hprices : c.Prices tiers priceByTier) (tier : Text) :
    (total tiers (c.update items mutations) tier : ℤ) =
      total tiers items tier + (h.deltaByTier.get? tier).getD 0 + foldedAway tiers items tier := by
  rw [Catalog.update, total_append, total_updateItem, Nat.cast_add, h.total_new hprices]
  cases hfirst : itemsAt tiers items tier with
  | nil =>
    have hnot : tier ∉ (linesOf tiers items).map (·.tierId) := by
      rw [mem_tiers_linesOf hids hitems]
      rintro ⟨first, rest, heq, -⟩
      cases hfirst.symm.trans heq
    rw [if_neg hnot, total, foldedAway, hfirst]
    simp
  | cons first rest =>
    rw [map_cons, sum_cons, h.updatedCount_rest hids hitems hfirst, Nat.cast_add]
    by_cases hprice : first.providerPriceId = []
    · have hnot : tier ∉ (linesOf tiers items).map (·.tierId) := by
        rw [mem_tiers_linesOf hids hitems]
        rintro ⟨first', rest', heq, hprice'⟩
        cases hfirst.symm.trans heq
        exact hprice' hprice
      have hkept : updatedCount mutations first = count first := by
        rw [updatedCount, h.updateItem_of_unnamed fun line hline hsame => ?_]
        · rfl
        · obtain ⟨_, -, hprice'⟩ := line_of_named hids hitems (hfirst ▸ mem_cons_self) hline hsame
          exact hprice' hprice
      rw [if_neg hnot, hkept, total, foldedAway, hfirst]
      simp [hprice]
    · have hmem : tier ∈ (linesOf tiers items).map (·.tierId) :=
        (mem_tiers_linesOf hids hitems).2 ⟨first, rest, hfirst, hprice⟩
      rw [if_pos hmem, h.updatedCount_first hids hitems hfirst hprice, foldedAway, hfirst]
      simp [hprice]

theorem foldedAway_eq_zero_iff (hitems : ∀ item ∈ items, Sellable tiers item) :
    (∀ tier, foldedAway tiers items tier = 0) ↔ OneItemATier tiers items := by
  have hzero : ∀ item ∈ items, count item = 0 ↔ item.quantity = 0 := by
    intro item hitem
    obtain ⟨-, n, hn⟩ := hitems item hitem
    rw [count, hn, Number.natural?_natCast, Option.getD_some, Nat.cast_eq_zero]
  constructor
  · intro h tier first rest hfirst hprice item hitem
    have hsum := h tier
    rw [foldedAway, hfirst] at hsum
    simp only [if_neg hprice] at hsum
    have hmem : item ∈ itemsAt tiers items tier := hfirst ▸ mem_cons_of_mem first hitem
    exact (hzero item (mem_itemsAt.1 hmem).1).1 (sum_eq_zero_iff.1 hsum _ (mem_map_of_mem hitem))
  · intro h tier
    rw [foldedAway]
    cases hfirst : itemsAt tiers items tier with
    | nil => rfl
    | cons first rest =>
      dsimp only
      split
      · rfl
      · rename_i hprice
        refine sum_eq_zero fun n hn => ?_
        obtain ⟨item, hitem, rfl⟩ := mem_map.1 hn
        have hmem : item ∈ itemsAt tiers items tier := hfirst ▸ mem_cons_of_mem first hitem
        exact (hzero item (mem_itemsAt.1 hmem).1).2 (h tier first rest hfirst hprice item hitem)

theorem nodup_update (hids : (items.map (·.providerItemId)).Nodup) (hfresh : c.Fresh items) :
    ((c.update items mutations).map (·.providerItemId)).Nodup := by
  have hkept : ∀ l : List ProviderSubscriptionItem,
      ((l.filterMap (updateItem mutations)).map (·.providerItemId)).Sublist
        (l.map (·.providerItemId)) := by
    intro l
    induction l with
    | nil => exact List.Sublist.slnil
    | cons item rest ih =>
      cases hitem : updateItem mutations item with
      | none =>
        rw [filterMap_cons_none hitem]
        exact ih.cons _
      | some item' =>
        rw [filterMap_cons_some hitem, map_cons, map_cons, (updateItem_eq_some hitem).1]
        exact ih.cons_cons _
  have hnew : (((mutations.filterMap (·.added)).zipIdx.map c.newItem).map (·.providerItemId)) =
      (((mutations.filterMap (·.added)).zipIdx.map Prod.snd).map c.newItemId) := by
    rw [map_map, map_map]
    rfl
  rw [Catalog.update, map_append, hnew, zipIdx_map_snd]
  refine nodup_append.2 ⟨hids.sublist (hkept items), ?_, ?_⟩
  · exact List.Nodup.map hfresh.injective nodup_range'
  · rintro id hid _ hid' rfl
    obtain ⟨n, -, rfl⟩ := mem_map.1 hid'
    exact hfresh.new n ((hkept items).subset hid)

section

variable (h : Built (linesOf tiers items) deltas priceByTier mutations)
include h

theorem Built.update_nonneg {id : Text} {quantity : ℤ}
    (hm : .update id quantity ∈ mutations) : 0 ≤ quantity := by
  rw [h.eq] at hm
  obtain hm | hm := mem_append.1 hm
  · obtain ⟨line, -, hmade⟩ := exists_left_of_mem h.current hm
    obtain ⟨hle, heq⟩ := mutationForCurrentLine_eq_some hmade
    split at heq
    · cases heq
    · cases heq
      exact hle
  · cases h.itemId_new hm

theorem Built.added_of_mem {e : Text × ℤ}
    (he : e ∈ mutations.filterMap (·.added)) : 0 < e.2 ∧ ∃ tier,
    priceByTier.get? tier = some e.1 := by
  rw [h.filterMap_added] at he
  obtain ⟨m, hm, hadded⟩ := mem_filterMap.1 he
  obtain ⟨m', hm', rfl⟩ := mem_filterMap.1 hm
  obtain ⟨entry, -, hmade⟩ := exists_left_of_mem h.new hm'
  obtain ⟨-, hnone⟩ | ⟨hpos, price, hprice, hsome⟩ := mutationForNewTier_eq_some hmade
  · cases hnone
  · cases hsome
    cases hadded
    exact ⟨hpos, entry.1, hprice⟩

theorem Built.sellable_update
    (hitems : ∀ item ∈ items, Sellable tiers item) (hprices : c.Prices tiers priceByTier) :
    ∀ item ∈ c.update items mutations, Sellable tiers item := by
  intro item hitem
  obtain hkept | hnew := mem_append.1 hitem
  · obtain ⟨old, hold, hupdate⟩ := mem_filterMap.1 hkept
    obtain ⟨htier, n, hn⟩ := hitems old hold
    refine ⟨(updateItem_eq_some hupdate).2 ▸ htier, ?_⟩
    rw [updateItem] at hupdate
    split at hupdate
    · rename_i id quantity hfind
      cases hupdate
      obtain ⟨n', hn'⟩ := Int.eq_ofNat_of_zero_le (h.update_nonneg (mem_of_find?_eq_some hfind))
      exact ⟨n', by rw [hn']; exact Int.cast_natCast n'⟩
    · cases hupdate
    · cases hupdate
      exact ⟨n, hn⟩
  · obtain ⟨e, he, rfl⟩ := mem_map.1 hnew
    have hmem : e.1 ∈ mutations.filterMap (·.added) := by
      rw [(mem_zipIdx' he).2]
      exact getElem_mem _
    obtain ⟨hpos, tier, hprice⟩ := h.added_of_mem hmem
    obtain ⟨n, hn⟩ := Int.eq_ofNat_of_zero_le hpos.le
    refine ⟨⟨tier, hprices tier e.1.1 hprice⟩, n, ?_⟩
    change ((e.1.2 : ℤ) : ℚ) = n
    rw [hn]
    exact Int.cast_natCast n

end

/-- **One change of seats.** Project the items, build the mutation from the lines of the seats,
apply it, and project again: every tier has its seats and the sum of its deltas exactly when no tier
whose first item has a price has seats in a second item. -/
theorem seat_change_iff {lines : List SeatLine} {after : List ProviderSubscriptionItem}
    (hids : (items.map (·.providerItemId)).Nodup) (hitems : ∀ item ∈ items, Sellable tiers item)
    (hprices : c.Prices tiers priceByTier) (hfresh : c.Fresh items)
    (hlines : (seatLinesFromState (replaceSubscriptionItems tiers items).1).lines = lines)
    (hbuild : buildItemMutation lines deltas priceByTier = some mutations)
    (hafter : after.Perm (c.update items mutations)) :
    (∀ tier, (seatQuantity (replaceSubscriptionItems tiers after).1 tier : ℚ) =
      seatQuantity (replaceSubscriptionItems tiers items).1 tier + deltaAt deltas tier) ↔
      OneItemATier tiers items := by
  subst hlines
  obtain ⟨h⟩ := buildItemMutation_eq_some hbuild
  have hids' : (after.map (·.providerItemId)).Nodup :=
    (hafter.map _).nodup_iff.2 (nodup_update hids hfresh)
  have hitems' : ∀ item ∈ after, Sellable tiers item := fun item hitem =>
    Built.sellable_update h hitems hprices item (hafter.subset hitem)
  have htotal : ∀ tier, (seatQuantity (replaceSubscriptionItems tiers after).1 tier : ℚ) =
      seatQuantity (replaceSubscriptionItems tiers items).1 tier + deltaAt deltas tier + foldedAway
          tiers items tier := by
    intro tier
    rw [seatQuantity_replaceSubscriptionItems hids' hitems',
      seatQuantity_replaceSubscriptionItems hids hitems,
      total_perm hafter, ← sumDeltasByTier_eq_some h.sums]
    exact_mod_cast Built.total_update h hids hitems hprices tier
  rw [← foldedAway_eq_zero_iff hitems]
  refine forall_congr' fun tier => ?_
  rw [htotal]
  constructor
  · intro heq
    exact_mod_cast add_eq_left.1 heq
  · intro hzero
    rw [hzero, Nat.cast_zero, add_zero]

end

/-! ## Two prices of one product -/

/-- One tier, sold as one product. -/
def starter : List TierRow := [⟨"starter".toList, some "prod_s".toList⟩]

/-- An item at a retired price, and one at the live one. -/
def twoPrices : List ProviderSubscriptionItem :=
  [⟨"si_1".toList, "price_old".toList, "prod_s".toList, 2⟩,
    ⟨"si_2".toList, "price_new".toList, "prod_s".toList, 3⟩]

def oneMore : List TierDelta := [⟨"starter".toList, 1⟩]

def onlyStarter : Catalog where
  productOf _ := "prod_s".toList
  newItemId n := "si_new".toList ++ List.replicate n 'x'

theorem sellable_starter (hproduct : item.providerProductId = "prod_s".toList) {n : ℕ}
    (hquantity : item.quantity = n) :
    Sellable starter item := by
  refine ⟨⟨"starter".toList, ?_⟩, n, hquantity⟩
  rw [hproduct]
  decide +kernel

/-- The seats of a second item are added to the first, and stay. -/
theorem second_item_counts_twice :
    (twoPrices.map (·.providerItemId)).Nodup ∧ (∀ item ∈ twoPrices, Sellable starter item) ∧
      buildItemMutation (seatLinesFromState (replaceSubscriptionItems starter twoPrices).1).lines
      oneMore Map.empty =
        some [.update "si_1".toList 6] ∧
      (seatQuantity (replaceSubscriptionItems starter
        (onlyStarter.update twoPrices [.update "si_1".toList 6])).1 "starter".toList : ℚ) ≠
        seatQuantity (replaceSubscriptionItems starter twoPrices).1 "starter".toList +
          deltaAt oneMore "starter".toList := by
  refine ⟨by decide, fun item hitem => ?_, by decide +kernel, ?_⟩
  · simp only [twoPrices, mem_cons, not_mem_nil, or_false] at hitem
    obtain rfl | rfl := hitem
    · exact sellable_starter (n := 2) rfl rfl
    · exact sellable_starter (n := 3) rfl rfl
  · have hbefore : seatQuantity (replaceSubscriptionItems starter twoPrices).1
      "starter".toList = 5 := by
      decide +kernel
    have hafter : seatQuantity (replaceSubscriptionItems starter
        (onlyStarter.update twoPrices [.update "si_1".toList 6])).1 "starter".toList = 9 := by
      decide +kernel
    have hdelta : deltaAt oneMore "starter".toList = 1 := by decide +kernel
    rw [hbefore, hafter, hdelta]
    norm_num

/-- Two tiers with an item each, and one that is sold at a new price. -/
def threeTiers : List TierRow :=
  ⟨"growth".toList, some "prod_g".toList⟩ :: ⟨"team".toList, some "prod_t".toList⟩ :: starter

def twoItems : List ProviderSubscriptionItem :=
  [⟨"si_1".toList, "price_s".toList, "prod_s".toList, 2⟩,
    ⟨"si_2".toList, "price_g".toList, "prod_g".toList, 3⟩]

def threeChanges : List TierDelta :=
    [⟨"starter".toList, -2⟩, ⟨"growth".toList, 2⟩, ⟨"team".toList, 1⟩]

def newTeam : Catalog := { onlyStarter with productOf := fun _ => "prod_t".toList }

theorem seat_change_three_tiers : ∃ mutations,
    buildItemMutation (seatLinesFromState (replaceSubscriptionItems threeTiers twoItems).1).lines
    threeChanges
      (Map.empty.set "team".toList "price_t".toList) = some mutations ∧
    ∀ tier, (seatQuantity (replaceSubscriptionItems threeTiers
    (newTeam.update twoItems mutations)).1 tier : ℚ) =
      seatQuantity (replaceSubscriptionItems threeTiers twoItems).1 tier +
      deltaAt threeChanges tier := by
  have hstarter : tierOf threeTiers "prod_s".toList = some "starter".toList := by decide +kernel
  have hgrowth : tierOf threeTiers "prod_g".toList = some "growth".toList := by decide +kernel
  have hitems : ∀ item ∈ twoItems, Sellable threeTiers item := by
    intro item hitem
    simp only [twoItems, mem_cons, not_mem_nil, or_false] at hitem
    obtain rfl | rfl := hitem
    · exact ⟨⟨_, hstarter⟩, 2, rfl⟩
    · exact ⟨⟨_, hgrowth⟩, 3, rfl⟩
  have hfresh : newTeam.Fresh twoItems := by
    refine ⟨fun m n h => ?_, fun n h => ?_⟩
    · have hlength := congrArg List.length h
      simp only [newTeam, onlyStarter, length_append, length_replicate] at hlength
      omega
    · have hmem : newTeam.newItemId n = "si_1".toList ∨ newTeam.newItemId n = "si_2".toList := by
        simpa [twoItems] using h
      obtain hmem | hmem := hmem <;>
      · have hchar := congrArg (fun t => t[3]?) hmem
        simp [newTeam, onlyStarter] at hchar
  have hone : OneItemATier threeTiers twoItems := by
    intro tier first rest hfirst _ item hitem
    by_cases htier : tier = "starter".toList
    · subst htier
      have hitems : itemsAt threeTiers twoItems "starter".toList = twoItems.take 1 := by
        decide +kernel
      cases hitems.symm.trans hfirst
      cases hitem
    · rw [itemsAt, twoItems, filter_cons_of_neg
        (by rw [hstarter]; simpa using Ne.symm htier)] at hfirst
      have hlength := (congrArg List.length hfirst).ge.trans (length_filter_le _ _)
      have hrest : rest = [] :=
        length_eq_zero_iff.1 (Nat.le_zero.1 (Nat.succ_le_succ_iff.1 hlength))
      rw [hrest] at hitem
      cases hitem
  have hprices : newTeam.Prices threeTiers (Map.empty.set "team".toList "price_t".toList) := by
    intro tier price h
    rw [Map.get?_set] at h
    split at h
    · rename_i htier
      subst htier
      exact (show tierOf threeTiers "prod_t".toList = some "team".toList by decide +kernel)
    · cases h
  have hbuild : buildItemMutation
    (seatLinesFromState (replaceSubscriptionItems threeTiers twoItems).1).lines
      threeChanges (Map.empty.set "team".toList "price_t".toList) =
        some [.delete "si_1".toList, .update "si_2".toList 5, .add "price_t".toList 1] := by
    decide +kernel
  exact ⟨_, hbuild, (seat_change_iff (by decide) hitems hprices hfresh rfl hbuild
    (List.Perm.refl _)).2 hone⟩

end TurboPanel.SeatChange
