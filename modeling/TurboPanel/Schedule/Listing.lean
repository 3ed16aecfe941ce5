import TurboPanel.Data.Updates
import TurboPanel.Schedule.Placement

/-!
# The hosts of a service, slot after slot

Which host a slot is drawn to depends on the service's own input and on the hosts of the slots
before it: the server recorded for the slot, where it is below the cap, and else the host with room
that ranks first, by the spread of labels, the preferred server and the id (`Draws`). A list of
hosts is a `Listing` when each of them is drawn after those before it. The loop of `placeService`
goes through the one listing of its length (`placeSlots_listing`, `Listing.unique`).
-/

namespace TurboPanel.Schedule

open Option Js List

variable {c : Collation} {p : PlaceParams}

/-! ## Drawing a host -/

/-- The label values of the hosts, for each of the spread keys. -/
def spreadTokens (keys : List String) (order : List FleetServer) : List String :=
  order.flatMap fun host => keys.map (spreadToken host)

/-- How often the hosts have the label values of the server. -/
def scoreAfter (keys : List String) (order : List FleetServer) (server : FleetServer) : ℕ :=
  (keys.map fun key => (spreadTokens keys order).count (spreadToken server key)).sum

/-- The comparison of two servers by a score, the preferred server and the id. -/
def rankBy (c : Collation) (score : FleetServer → ℕ) (preferredId : Option String) (a b : FleetServer) :
    Ordering :=
  let preference := fun row : FleetServer => if some row.id = preferredId then 0 else 1
  (compare (score a) (score b)).then ((compare (preference a) (preference b)).then (c.compare a.id b.id))

/-- The place of a server among the hosts. -/
def placeOf (p : PlaceParams) (server : FleetServer) : ℕ := (p.eligible.map (·.id)).idxOf server.id

/-- After the hosts `order`, `a` ranks before `b`; hosts that compare equal rank in the order of the
list. -/
def RanksBefore (c : Collation) (p : PlaceParams) (order : List FleetServer) (a b : FleetServer) : Prop :=
  let rank := rankBy c (scoreAfter p.service.spec.spreadKeys order) p.preferredId
  rank a b = .lt ∨ rank a b = .eq ∧ placeOf p a < placeOf p b

instance (order : List FleetServer) (a b : FleetServer) : Decidable (RanksBefore c p order a b) :=
  inferInstanceAs (Decidable (_ ∨ _ ∧ _))

/-- The server has fewer of the places than the cap allows. -/
def BelowCap (p : PlaceParams) (order : List FleetServer) (server : FleetServer) : Prop :=
  ∀ cap ∈ p.service.spec.maxReplicasPerNode, ((order.map (·.id)).count server.id : ℤ) < cap

/-- The server is below the cap and, where a port is published, has none of the places. -/
def HasRoom (p : PlaceParams) (order : List FleetServer) (server : FleetServer) : Prop :=
  BelowCap p order server ∧ (p.requireEmptyHost = true → server.id ∉ order.map (·.id))

/-- The server ranks first of the hosts with room. -/
structure RanksFirst (c : Collation) (p : PlaceParams) (order : List FleetServer) (server : FleetServer) :
    Prop where
  eligible : server ∈ p.eligible
  room : HasRoom p order server
  first : ∀ other ∈ p.eligible, HasRoom p order other → ¬RanksBefore c p order other server

/-- The slot after the hosts `order` goes to the server: it is recorded for the slot and below the
cap, or none such is recorded and it ranks first. -/
def Draws (c : Collation) (p : PlaceParams) (order : List FleetServer) (server : FleetServer) : Prop :=
  (stickyServer p order.length = some server ∧ BelowCap p order server) ∨
    (∀ back ∈ stickyServer p order.length, ¬BelowCap p order back) ∧ RanksFirst c p order server

/-- Each host of the list is drawn after those before it. -/
def Listing (c : Collation) (p : PlaceParams) (order : List FleetServer) : Prop :=
  ∀ before server after, order = before ++ server :: after → Draws c p before server

variable {order : List FleetServer} {server : FleetServer}

theorem listing_concat :
    Listing c p (order ++ [server]) ↔ Listing c p order ∧ Draws c p order server := by
  constructor
  · refine fun h => ⟨fun before host after heq => h before host (after ++ [server]) ?_, h order server [] rfl⟩
    rw [heq, append_assoc, cons_append]
  · rintro ⟨h, hdraws⟩ before host after heq
    obtain ⟨-, rfl, rfl⟩ | ⟨after', -, rfl⟩ := concat_eq_append_cons heq
    · exact hdraws
    · exact h before host after' rfl

theorem Listing.draws (h : Listing c p order) {i : ℕ}
    (hserver : order[i]? = some server) : Draws c p (order.take i) server := by
  obtain ⟨hi, rfl⟩ := List.getElem?_eq_some_iff.1 hserver
  refine h _ _ (order.drop (i + 1)) ?_
  rw [← drop_eq_getElem_cons hi, take_append_drop]

theorem mem_of_stickyServer {slot : ℕ} (h : stickyServer p slot = some server) : server ∈ p.eligible := by
  obtain ⟨_, -, hfind⟩ := bind_eq_some_iff.1 h
  exact mem_of_find?_eq_some hfind

theorem Draws.eligible (h : Draws c p order server) : server ∈ p.eligible :=
  h.elim (fun h => mem_of_stickyServer h.1) fun h => h.2.eligible

theorem Draws.belowCap (h : Draws c p order server) : BelowCap p order server :=
  h.elim (fun h => h.2) fun h => h.2.room.1

theorem Listing.eligible (h : Listing c p order) : ∀ server ∈ order, server ∈ p.eligible := by
  intro server hserver
  obtain ⟨before, after, heq⟩ := append_of_mem hserver
  exact (h before server after heq).eligible

/-! ## The order of the hosts -/

instance transCmp_rankBy (score : FleetServer → ℕ) (preferredId : Option String) :
    Std.TransCmp (rankBy c score preferredId) := by
  have hcomap : ∀ {α : Type} (cmp : α → α → Ordering) [Std.TransCmp cmp] (f : FleetServer → α),
      Std.TransCmp fun a b => cmp (f a) (f b) := fun cmp _ f =>
    { eq_swap := fun {a b} => @Std.OrientedCmp.eq_swap _ cmp _ (f a) (f b)
      isLE_trans := fun {a b d} => @Std.TransCmp.isLE_trans _ cmp _ (f a) (f b) (f d) }
  have hscore := hcomap compare score
  have hpreference := hcomap compare fun row : FleetServer => if some row.id = preferredId then 0 else 1
  have hid := hcomap c.compare FleetServer.id
  exact inferInstanceAs (Std.TransCmp (compareLex _ (compareLex _ _)))

theorem rankBy_swap (score : FleetServer → ℕ) (preferredId : Option String) (a b : FleetServer) :
    rankBy c score preferredId b a = (rankBy c score preferredId a b).swap := Std.OrientedCmp.eq_swap

theorem rankBy_total (score : FleetServer → ℕ) (preferredId : Option String) (a b : FleetServer) :
    rankBy c score preferredId a b ≠ .gt ∨ rankBy c score preferredId b a ≠ .gt := by
  rw [rankBy_swap _ _ a b]
  cases rankBy c score preferredId a b <;> simp

theorem rankBy_trans (score : FleetServer → ℕ) (preferredId : Option String) (a b d : FleetServer)
    (h₁ : rankBy c score preferredId a b ≠ .gt) (h₂ : rankBy c score preferredId b d ≠ .gt) :
    rankBy c score preferredId a d ≠ .gt :=
  Ordering.isLE_iff_ne_gt.1
    (Std.TransCmp.isLE_trans (Ordering.isLE_iff_ne_gt.2 h₁) (Ordering.isLE_iff_ne_gt.2 h₂))

theorem RanksBefore.asymm {a b : FleetServer} (h : RanksBefore c p order a b) :
    ¬RanksBefore c p order b a := by
  rw [RanksBefore, rankBy_swap]
  obtain h | ⟨h, hplace⟩ := h
  · rw [h]
    simp
  · rw [h]
    simpa using hplace.le

theorem RanksBefore.total (hids : (p.eligible.map (·.id)).Nodup) {order : List FleetServer} {a b : FleetServer}
    (ha : a ∈ p.eligible) (hb : b ∈ p.eligible) (hne : a ≠ b) :
    RanksBefore c p order a b ∨ RanksBefore c p order b a := by
  have hplace : placeOf p a ≠ placeOf p b := fun heq =>
    hne (inj_on_of_nodup_map hids ha hb ((idxOf_inj (mem_map_of_mem ha)).1 heq))
  rw [RanksBefore, RanksBefore, rankBy_swap _ _ a b]
  cases rankBy c (scoreAfter p.service.spec.spreadKeys order) p.preferredId a b with
  | lt => exact .inl (.inl rfl)
  | gt => exact .inr (.inl rfl)
  | eq => exact (Nat.lt_or_gt_of_ne hplace).imp (fun hlt => .inr ⟨rfl, hlt⟩) fun hlt => .inr ⟨rfl, hlt⟩

variable {server' : FleetServer}

theorem RanksFirst.unique (hids : (p.eligible.map (·.id)).Nodup)
    (h : RanksFirst c p order server) (h' : RanksFirst c p order server') : server = server' := by
  by_contra hne
  obtain hbefore | hbefore := @RanksBefore.total c p hids order _ _ h.eligible h'.eligible hne
  · exact h'.first _ h.eligible h.room hbefore
  · exact h.first _ h'.eligible h'.room hbefore

theorem Draws.unique (hids : (p.eligible.map (·.id)).Nodup)
    (h : Draws c p order server) (h' : Draws c p order server') : server = server' := by
  obtain ⟨hback, hbelow⟩ | ⟨hnone, hfirst⟩ := h
  · obtain ⟨hback', -⟩ | ⟨hnone', -⟩ := h'
    · exact Option.some.inj (hback.symm.trans hback')
    · exact absurd hbelow (hnone' _ hback)
  · obtain ⟨hback', hbelow'⟩ | ⟨-, hfirst'⟩ := h'
    · exact absurd hbelow' (hnone _ hback')
    · exact hfirst.unique hids hfirst'

theorem Listing.unique (hids : (p.eligible.map (·.id)).Nodup) {order' : List FleetServer}
    (h : Listing c p order) (h' : Listing c p order') (hlen : order.length = order'.length) :
    order = order' := by
  induction order using List.reverseRecOn generalizing order' with
  | nil => exact (length_eq_zero_iff.1 hlen.symm).symm
  | append_singleton order server ih =>
    obtain rfl | ⟨order', server', rfl⟩ := eq_nil_or_concat order'
    · simp at hlen
    · rw [concat_eq_append] at h' hlen ⊢
      rw [listing_concat] at h h'
      obtain rfl := ih h.1 h'.1 (by simpa using hlen)
      rw [h.2.unique hids h'.2]

/-! ## The loop -/

/-- The loop has put the slots on these hosts, and has counted their label values. -/
structure Follows (p : PlaceParams) (st : PlaceState) (order : List FleetServer) : Prop where
  hosts : st.hosts = order.map (·.id)
  labels : ∀ token, (st.usedLabelValues.get? token).getD 0 =
    (spreadTokens p.service.spec.spreadKeys order).count token

theorem get?_recordSpread (server : FleetServer) (keys : List String) (used : Map String ℕ) (token : String) :
    ((recordSpread server keys used).get? token).getD 0 =
      (used.get? token).getD 0 + (keys.map (spreadToken server)).count token := by
  rw [recordSpread]
  induction keys generalizing used with
  | nil => rfl
  | cons key keys ih =>
    rw [foldl_cons, ih, Map.get?_set, map_cons, count_cons]
    by_cases h : token = spreadToken server key
    · simp [h, Nat.add_comm, Nat.add_assoc, Nat.add_left_comm]
    · simp [h, Ne.symm h]

section

variable {st : PlaceState} {order : List FleetServer} {n : ℕ}

theorem Follows.compareCandidates_eq (h : Follows p st order) : compareCandidates c (p.pickParams st) =
    rankBy c (scoreAfter p.service.spec.spreadKeys order) p.preferredId := by
  have hscore : (fun row => spreadScore row p.service.spec.spreadKeys st.usedLabelValues) =
      scoreAfter p.service.spec.spreadKeys order := by
    funext row
    rw [spreadScore, scoreAfter, sum_eq_foldl, foldl_map]
    simp only [h.labels]
  rw [← hscore]
  rfl

theorem Follows.underCap_iff (h : Follows p st order) (hinv : PlaceInv p n st) (server : FleetServer) :
    underCap st.perNodeCounts p.service.spec.maxReplicasPerNode server = true ↔ BelowCap p order server := by
  rw [BelowCap, ← h.hosts]
  unfold underCap
  cases p.service.spec.maxReplicasPerNode with
  | none => simp
  | some cap => simp [hinv.counts]

theorem Follows.mem_candidates (h : Follows p st order) (hinv : PlaceInv p n st) {server : FleetServer} :
    server ∈ candidates (p.pickParams st) ↔ server ∈ p.eligible ∧ HasRoom p order server := by
  rw [candidates, withCapacityRemaining, mem_filter, HasRoom, ← h.hosts,
    ← h.underCap_iff hinv]
  change server ∈ withPortRoom p.eligible st.occupied p.requireEmptyHost ∧ _ ↔ _
  rw [withPortRoom]
  split
  · rename_i hempty
    simp only [mem_filter, contains_eq_mem, hinv.occupied, hempty, PlaceParams.pickParams,
      Bool.not_eq_true', decide_eq_false_iff_not, true_implies]
    tauto
  · rename_i hempty
    simp [hempty, PlaceParams.pickParams]

theorem candidates_sublist (p : PlaceParams) (st : PlaceState) :
    (candidates (p.pickParams st)).Sublist p.eligible := by
  refine filter_sublist.trans ?_
  rw [withPortRoom]
  split
  · exact filter_sublist
  · exact List.Sublist.refl _

/-- The server that is picked ranks first. -/
theorem Follows.ranksFirst (h : Follows p st order) (hinv : PlaceInv p n st)
    (hids : (p.eligible.map (·.id)).Nodup) {server : FleetServer}
    (hpick : pickServer c (p.pickParams st) = some server) : RanksFirst c p order server := by
  rw [pickServer, h.compareCandidates_eq] at hpick
  obtain ⟨before, after, heq, hbefore, hafter⟩ := (head?_insertionSort (rankBy_total _ _)
    (rankBy_trans _ _)).1 hpick
  obtain ⟨heligible, hroom⟩ := (h.mem_candidates hinv).1 (heq ▸ mem_append_right _ mem_cons_self)
  refine ⟨heligible, hroom, fun other hother hroom' hranks => ?_⟩
  -- hosts that compare equal stand in the order of the list
  have hplaces : (candidates (p.pickParams st)).Pairwise fun a b => placeOf p a < placeOf p b := by
    refine List.Pairwise.sublist (candidates_sublist p st) ?_
    rw [pairwise_iff_getElem]
    intro i j hi hj hij
    have hplace : ∀ {k : ℕ} (hk : k < p.eligible.length), placeOf p p.eligible[k] = k := fun {k} hk => by
      have hidx := hids.idxOf_getElem k (by simpa using hk)
      rwa [getElem_map] at hidx
    rwa [hplace hi, hplace hj]
  have hmem := (h.mem_candidates hinv).2 ⟨hother, hroom'⟩
  rw [heq] at hmem hplaces
  rw [RanksBefore] at hranks
  obtain hmem | hmem := mem_append.1 hmem
  · have hgt := not_not.1 (hbefore other hmem)
    rw [hgt] at hranks
    simp at hranks
  · obtain rfl | hmem := mem_cons.1 hmem
    · exact (RanksBefore.asymm (c := c) (p := p) hranks) hranks
    · have hle := hafter other hmem
      have hlt := (pairwise_cons.1 (pairwise_append.1 hplaces).2.1).1 other hmem
      rw [rankBy_swap] at hranks
      cases hcase : rankBy c (scoreAfter p.service.spec.spreadKeys order) p.preferredId server other with
      | lt => simp [hcase] at hranks
      | gt => exact hle hcase
      | eq =>
        simp only [hcase, Ordering.swap_eq, reduceCtorEq, false_or, true_and] at hranks
        omega

theorem Follows.draws (h : Follows p st order) (hinv : PlaceInv p order.length st)
    (hids : (p.eligible.map (·.id)).Nodup) {chosen : FleetServer}
    (hchosen : chosenServer c p st order.length = some chosen) : Draws c p order chosen := by
  rw [chosenServer, or_eq_some_iff] at hchosen
  obtain hback | ⟨hnone, hpick⟩ := hchosen
  · obtain ⟨hsticky, hbelow⟩ := filter_eq_some_iff.1 hback
    exact .inl ⟨hsticky, (h.underCap_iff hinv chosen).1 hbelow⟩
  · refine .inr ⟨fun back hsticky hbelow => ?_, h.ranksFirst hinv hids hpick⟩
    exact filter_eq_none_iff.1 hnone back hsticky ((h.underCap_iff hinv back).2 hbelow)

end

/-- **The loop goes through the listing.** -/
theorem placeSlots_listing (hids : (p.eligible.map (·.id)).Nodup) {n : ℕ} {st : PlaceState}
    (h : placeSlots c p n = .ok st) : ∃ order, Listing c p order ∧ order.length = n ∧ Follows p st order := by
  induction n generalizing st with
  | zero =>
    cases h
    exact ⟨[], fun before host after heq => absurd heq (by simp), rfl, rfl, fun token => rfl⟩
  | succ n ih =>
    obtain ⟨st, chosen, hst, hchosen, rfl⟩ := placeSlots_succ.1 h
    obtain ⟨order, hlisting, rfl, hfollows⟩ := ih hst
    refine ⟨order ++ [chosen], listing_concat.2 ⟨hlisting, hfollows.draws (placeInv hst) hids hchosen⟩,
      length_append, ?_, fun token => ?_⟩
    · rw [hosts_place, hfollows.hosts, map_append]
      rfl
    · rw [spreadTokens, flatMap_append, flatMap_singleton, count_append]
      exact (get?_recordSpread _ _ _ _).trans (congrArg (· + _) (hfollows.labels token))

/-! ## Nothing to spread over -/

/-- The server is recorded for the slot, or none is and it ranks first of all hosts. -/
def Home (c : Collation) (p : PlaceParams) (slot : ℕ) (server : FleetServer) : Prop :=
  stickyServer p slot = some server ∨ stickyServer p slot = none ∧ RanksFirst c p [] server

theorem Home.unique (hids : (p.eligible.map (·.id)).Nodup) {slot : ℕ}
    (h : Home c p slot server) (h' : Home c p slot server') : server = server' := by
  obtain hback | ⟨hnone, hfirst⟩ := h
  · obtain hback' | ⟨hnone', -⟩ := h'
    · exact Option.some.inj (hback.symm.trans hback')
    · cases hback.symm.trans hnone'
  · obtain hback' | ⟨-, hfirst'⟩ := h'
    · cases hback'.symm.trans hnone
    · exact hfirst.unique hids hfirst'

theorem ranksBefore_iff (hspread : p.service.spec.spreadKeys = [])
    {a b : FleetServer} : RanksBefore c p order a b ↔ RanksBefore c p [] a b := by
  rw [RanksBefore, RanksBefore, hspread]
  rfl

/-- Without a port, labels to spread over and a host at the cap, each slot goes to its home. -/
theorem Draws.home (hspread : p.service.spec.spreadKeys = []) (hport : p.requireEmptyHost = false)
    (hbelow : ∀ host, BelowCap p order host)
    (h : Draws c p order server) : Home c p order.length server := by
  obtain ⟨hback, -⟩ | ⟨hnone, hfirst⟩ := h
  · exact .inl hback
  · have hport' : ¬p.requireEmptyHost = true := by simp [hport]
    refine .inr ⟨eq_none_iff_forall_ne_some.2 fun back hback => hnone back hback (hbelow back),
      hfirst.eligible, ⟨fun cap hcap => ?_, fun h => absurd h hport'⟩, fun other hother _ hranks => ?_⟩
    · refine lt_of_le_of_lt ?_ (hbelow server cap hcap)
      simp
    · exact hfirst.first other hother ⟨hbelow other, fun h => absurd h hport'⟩
        ((ranksBefore_iff hspread).2 hranks)

end TurboPanel.Schedule
