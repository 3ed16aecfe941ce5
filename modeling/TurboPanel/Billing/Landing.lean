import TurboPanel.Billing.Mutations
import TurboPanel.Tiers.LastSeat

/-!
# When a pending change lands

An intent that is parked behind a known period end is to leave the ledger when the projected period
end is later, when the subscription has ended, or when its license is restored; and a named server
is to move with it. The sync also takes a quantity at the lower tier that is below the one the
intent was written at for a sign that the intent has landed, whether the period end was known or
not. So an upgrade from the tier of an outstanding release drops it.

A step keeps the law exactly if the sync in it finds no such quantity (`leavesOnlyDue_iff`), and so
does a run (`landsOnlyWhenDue_iff`).
-/

namespace TurboPanel.PendingChanges

open Js List
open Tiers (ServerId TierId TierRow OrganizationSeat ServerRow Licenses moveNamedServerTier)

variable {o o' : Organization} {ledger : PendingChangeLedger} {intent : PendingIntent} {step : Step}

/-! ## The law -/

def Due (o : Organization) (intent : PendingIntent) : Prop :=
  o.ended = true ∨ periodRolledPast intent.landsAt o.currentPeriodEnd = true

instance (o : Organization) (intent : PendingIntent) : Decidable (Due o intent) := inferInstanceAs (Decidable (_ ∨ _))

/-- The licenses that a step takes back. -/
def Step.withdraws (o : Organization) : Step → List PendingIntent
  | .restoreSeats tierId count _ => (restorableReleases o.ledger tierId).take count
  | _ => []

/-- The server that an upgrade names. -/
def Step.upgrades : Step → Option ServerId
  | .upgradeTier _ _ serverId _ => serverId
  | _ => none

/-- The tier that a licensed server holds. -/
def Organization.tierOf (o : Organization) (serverId : ServerId) : Option TierId :=
  (o.licenses.find serverId).bind (·.assignedTierId)

/-- What a step may do to the outstanding changes. -/
structure LeavesOnlyDue (o : Organization) (step : Step) : Prop where
  intents : ∀ intent ∈ o.ledger.intents, intent.landsAt ≠ none → intent ∉ (step.apply o).ledger.intents →
    Due (step.apply o) intent ∨ intent ∈ step.withdraws o
  servers : ∀ serverId, (step.apply o).tierOf serverId ≠ o.tierOf serverId → step.upgrades = some serverId ∨
    ∃ intent ∈ o.ledger.intents, intent.kind = .downgrade ∧ intent.serverId = some serverId ∧
      (intent.landsAt ≠ none → periodRolledPast intent.landsAt (step.apply o).currentPeriodEnd = true)

/-- In every step of the run, an intent with a known period end leaves the ledger only when it is
due or withdrawn, and no server moves before that. -/
def LandsOnlyWhenDue (o : Organization) (steps : List Step) : Prop :=
  ∀ before step after, steps = before ++ step :: after → LeavesOnlyDue (run o before) step

/-! ## The condition -/

/-- The organization that the sync in a step reads, where there is one. -/
def Step.reads (o : Organization) : Step → Option Organization
  | .changeSeats tierId delta _ answer =>
    if 0 < delta ∧ changeSeatsRefusal o tierId delta = none then answer.reprojected o else none
  | .upgradeTier fromTier toTier serverId answer =>
    if upgradeTierRefusal o fromTier toTier serverId = none then answer.reprojected o else none
  | .sync => some o
  | _ => none

/-- The tier of an outstanding change that is not due has as many seats as when the change was
parked. -/
def SeatsNotBelow (o : Organization) : Prop :=
  ∀ intent ∈ o.ledger.intents, intent.landsAt ≠ none → ¬Due o intent →
    intent.fromQuantity ≤ seatsAt o intent.fromTierId

def MeetsSeats (o : Organization) (steps : List Step) : Prop :=
  ∀ before step after, steps = before ++ step :: after → ∀ read ∈ step.reads (run o before), SeatsNotBelow read

/-! ## The ledger -/

theorem ledger_writePendingChanges (h : ledger.providerSubscriptionId = o.row.providerSubscriptionId) :
    (writePendingChanges o ledger).ledger = ledger := by
  rw [Organization.ledger, readPendingChanges, writePendingChanges]
  dsimp only
  split
  · rename_i stored hstored
    split at hstored
    · cases hstored
    · cases hstored
      rw [if_pos h]
  · rename_i hstored
    split at hstored
    · rename_i hnil
      rw [emptyLedger, ← h, ← hnil]
    · cases hstored

theorem ledger_providerSubscriptionId (o : Organization) :
    o.ledger.providerSubscriptionId = o.row.providerSubscriptionId := by
  rw [Organization.ledger, readPendingChanges]
  split
  · split
    · assumption
    · rfl
  · rfl

/-- The identifiers of the outstanding changes were minted, each once. -/
structure Minted (o : Organization) : Prop where
  nodup : (o.ledger.intents.map (·.id)).Nodup
  lt : ∀ intent ∈ o.ledger.intents, intent.id < o.minted

theorem mem_withoutIntents {dropped : List PendingIntent} (hnodup : (ledger.intents.map (·.id)).Nodup)
    (hdropped : ∀ intent ∈ dropped, intent ∈ ledger.intents) :
    intent ∈ (withoutIntents ledger (dropped.map (·.id))).intents ↔ intent ∈ ledger.intents ∧ intent ∉ dropped := by
  rw [withoutIntents, mem_filter]
  refine and_congr_right fun hintent => ?_
  rw [Bool.not_eq_true', contains_eq_mem, decide_eq_false_iff_not, mem_map, not_iff_not]
  constructor
  · rintro ⟨other, hother, hid⟩
    exact inj_on_of_nodup_map hnodup (hdropped other hother) hintent hid ▸ hother
  · exact fun h => ⟨intent, h, rfl⟩

variable {intents : List PendingIntent}

theorem foldl_withIntent (hnodup : (intents.map (·.id)).Nodup)
    (hfresh : ∀ intent ∈ intents, ∀ old ∈ ledger.intents, old.id ≠ intent.id) :
    intents.foldl withIntent ledger = { ledger with intents := ledger.intents ++ intents } := by
  induction intents generalizing ledger with
  | nil => simp
  | cons intent intents ih =>
    obtain ⟨hnot, hnodup⟩ := nodup_cons.1 hnodup
    have hwith : withIntent ledger intent = { ledger with intents := ledger.intents ++ [intent] } := by
      have hfilter : (ledger.intents.filter fun i => decide (i.id ≠ intent.id)) = ledger.intents :=
        filter_eq_self.2 fun old hold => decide_eq_true (hfresh intent mem_cons_self old hold)
      rw [withIntent, hfilter]
    rw [foldl_cons, hwith, ih hnodup]
    · simp
    · intro later hlater old hold
      obtain hold | hold := mem_append.1 hold
      · exact hfresh later (mem_cons_of_mem _ hlater) old hold
      · obtain rfl := mem_singleton.1 hold
        exact fun heq => hnot (mem_map.2 ⟨later, hlater, heq.symm⟩)

/-! ## Parking and withdrawing -/

section

variable {intents : List PendingIntent} {answer : ProviderAnswer}

/-- New identifiers: those that are minted next. -/
def MintedNext (o : Organization) (intents : List PendingIntent) : Prop :=
  intents.map (·.id) = (List.range intents.length).map (o.minted + ·)

theorem MintedNext.nodup (h : MintedNext o intents) : (intents.map (·.id)).Nodup := by
  rw [h]
  exact nodup_range.map fun _ _ heq => Nat.add_left_cancel heq

theorem MintedNext.le_lt (h : MintedNext o intents) (hintent : intent ∈ intents) :
    o.minted ≤ intent.id ∧ intent.id < o.minted + intents.length := by
  have hid : intent.id ∈ intents.map (·.id) := mem_map.2 ⟨intent, hintent, rfl⟩
  rw [h, mem_map] at hid
  obtain ⟨i, hi, hid⟩ := hid
  have := mem_range.1 hi
  omega

theorem ledger_applyDeferred (ho : Minted o) (hnext : MintedNext o intents) :
    (applyDeferred o intents answer).ledger.intents =
      if answer.accepted then o.ledger.intents ++ intents else o.ledger.intents := by
  have hfresh : ∀ intent ∈ intents, ∀ old ∈ o.ledger.intents, old.id ≠ intent.id := by
    intro intent hintent old hold heq
    have := (hnext.le_lt hintent).1
    have := ho.lt old hold
    omega
  have hsubscription := ledger_providerSubscriptionId o
  rw [applyDeferred, foldl_withIntent hnext.nodup hfresh]
  split
  · rw [ledger_writePendingChanges]
    exact hsubscription
  · rw [ledger_writePendingChanges]
    · change (o.ledger.intents ++ intents).filter _ = o.ledger.intents
      rw [filter_append, filter_eq_self.2, filter_eq_nil_iff.2, append_nil]
      · intro intent hintent
        simpa using ⟨intent, hintent, rfl⟩
      · intro old hold
        simpa using fun intent hintent heq => hfresh intent hintent old hold heq.symm
    · exact hsubscription

theorem ledger_withdrawDeferred : (withdrawDeferred o intents answer).ledger.intents =
    if answer.accepted then (withoutIntents o.ledger (intents.map (·.id))).intents else o.ledger.intents := by
  have hsubscription := ledger_providerSubscriptionId o
  rw [withdrawDeferred]
  split
  · rw [ledger_writePendingChanges]
    exact hsubscription
  · rw [ledger_writePendingChanges]
    exact hsubscription

end

/-! ## The sync -/

theorem billing_moveNamedServerTier (s : Licenses) (serverId : ServerId) (fromTierId toTierId : TierId) :
    (moveNamedServerTier s serverId fromTierId toTierId).2.billing = s.billing := by
  rw [moveNamedServerTier]
  split
  · rfl
  · split
    · rfl
    · rfl

variable {serverId : ServerId}

theorem find_moveNamedServerTier (s : Licenses) {other : ServerId} (h : other ≠ serverId)
    (fromTierId toTierId : TierId) :
    (moveNamedServerTier s serverId fromTierId toTierId).2.find other = s.find other := by
  rw [moveNamedServerTier]
  split
  · rfl
  · split
    · exact Tiers.find_write_of_ne h
    · rfl

theorem ended_congr (h : o'.licenses.billing = o.licenses.billing) : o'.ended = o.ended := by
  rw [Organization.ended, Organization.ended, h]

theorem currentPeriodEnd_congr (h : o'.licenses.billing = o.licenses.billing) (hrow : o'.row = o.row) :
    o'.currentPeriodEnd = o.currentPeriodEnd := by
  rw [Organization.currentPeriodEnd, Organization.currentPeriodEnd, h, hrow]

theorem tierOf_congr (h : o'.licenses.find serverId = o.licenses.find serverId) :
    o'.tierOf serverId = o.tierOf serverId := by
  rw [Organization.tierOf, Organization.tierOf, h]

theorem landIntent_frame (o : Organization) (intent : PendingIntent) :
    landIntent o intent = { o with licenses := (landIntent o intent).licenses } ∧
      (landIntent o intent).licenses.billing = o.licenses.billing := by
  rw [landIntent]
  split
  · split
    · exact ⟨rfl, rfl⟩
    · exact ⟨rfl, billing_moveNamedServerTier _ _ _ _⟩
  · exact ⟨rfl, rfl⟩

theorem foldl_landIntent_frame (o : Organization) (landed : List PendingIntent) :
    landed.foldl landIntent o = { o with licenses := (landed.foldl landIntent o).licenses } ∧
      (landed.foldl landIntent o).licenses.billing = o.licenses.billing := by
  induction landed generalizing o with
  | nil => exact ⟨rfl, rfl⟩
  | cons intent landed ih =>
    obtain ⟨hframe, hbilling⟩ := landIntent_frame o intent
    obtain ⟨hframe', hbilling'⟩ := ih (landIntent o intent)
    rw [foldl_cons]
    refine ⟨?_, hbilling'.trans hbilling⟩
    rw [hframe', hframe]

theorem tierOf_landIntent (h : (landIntent o intent).tierOf serverId ≠ o.tierOf serverId) :
    intent.kind = .downgrade ∧ intent.serverId = some serverId := by
  rw [landIntent] at h
  split at h
  · rename_i named toTierId hkind hserver _
    split at h
    · exact absurd rfl h
    · refine ⟨hkind, ?_⟩
      by_contra hne
      have hne : serverId ≠ named := fun heq => hne (heq ▸ hserver)
      exact h (tierOf_congr (find_moveNamedServerTier o.licenses hne _ _))
  · exact absurd rfl h

theorem tierOf_foldl_landIntent {landed : List PendingIntent}
    (h : (landed.foldl landIntent o).tierOf serverId ≠ o.tierOf serverId) :
    ∃ intent ∈ landed, intent.kind = .downgrade ∧ intent.serverId = some serverId := by
  induction landed generalizing o with
  | nil => exact absurd rfl h
  | cons intent landed ih =>
    rw [foldl_cons] at h
    by_cases hfirst : (landIntent o intent).tierOf serverId = o.tierOf serverId
    · rw [← hfirst] at h
      obtain ⟨later, hlater, hnames⟩ := ih h
      exact ⟨later, mem_cons_of_mem _ hlater, hnames⟩
    · exact ⟨intent, mem_cons_self, tierOf_landIntent hfirst⟩

/-- The changes that the sync lands. -/
def Organization.landed (o : Organization) : List PendingIntent := landedIntents o.ledger o.landingContext

theorem mem_landed : intent ∈ o.landed ↔ intent ∈ o.ledger.intents ∧
    (Due o intent ∨ seatsAt o intent.fromTierId < intent.fromQuantity) := by
  rw [Organization.landed, landedIntents, Due]
  change intent ∈ (if o.ended then _ else _) ↔ _
  split
  · rename_i hended
    simp [hended]
  · rename_i hended
    rw [mem_filter]
    simp [hended, Organization.landingContext]

/-- What the sync leaves: the changes that have not landed, the rows as they were, and the servers
that no landed downgrade names. -/
structure Syncs (o o' : Organization) : Prop where
  intents : o'.ledger.intents = (withoutIntents o.ledger (o.landed.map (·.id))).intents
  minted : o'.minted = o.minted
  ended : o'.ended = o.ended
  currentPeriodEnd : o'.currentPeriodEnd = o.currentPeriodEnd
  servers : ∀ serverId, o'.tierOf serverId ≠ o.tierOf serverId → o.ended = false ∧
    ∃ intent ∈ o.landed, intent.kind = .downgrade ∧ intent.serverId = some serverId

theorem syncEntitlements_syncs (o : Organization) : Syncs o (syncEntitlements o) := by
  have hsubscription := ledger_providerSubscriptionId o
  rw [syncEntitlements]
  change Syncs o (if o.ended then _ else _)
  split
  · rename_i hended
    refine ⟨?_, rfl, rfl, rfl, fun _ h => absurd rfl h⟩
    have hnone : (withoutIntents o.ledger (o.landed.map (·.id))).intents = [] := by
      rw [Organization.landed, landedIntents]
      change (withoutIntents _ ((if o.ended then _ else _ : List PendingIntent).map _)).intents = []
      rw [if_pos hended, withoutIntents, filter_eq_nil_iff]
      intro intent hintent
      simpa using ⟨intent, hintent, rfl⟩
    rw [hnone]
    change (writePendingChanges o ⟨o.ledger.providerSubscriptionId, []⟩).ledger.intents = []
    rw [ledger_writePendingChanges]
    exact hsubscription
  · rename_i hended
    obtain ⟨hframe, hbilling⟩ := foldl_landIntent_frame o o.landed
    change Syncs o (writePendingChanges (o.landed.foldl landIntent o) (withoutIntents o.ledger (o.landed.map (·.id))))
    refine ⟨?_, ?_, ?_, ?_, fun serverId h => ?_⟩
    · rw [ledger_writePendingChanges]
      rw [hframe]
      exact hsubscription
    · rw [hframe]
      rfl
    · exact ended_congr hbilling
    · refine currentPeriodEnd_congr hbilling ?_
      rw [hframe]
      rfl
    · exact ⟨Bool.eq_false_iff.2 hended, tierOf_foldl_landIntent h⟩

/-! ## Steps -/

/-- What a step without a sync does: it parks new changes, or withdraws some. -/
structure Parks (o o' : Organization) (withdrawn : List PendingIntent) : Prop where
  intents : (∃ parked, MintedNext o parked ∧ o'.ledger.intents = o.ledger.intents ++ parked ∧
      o.minted + parked.length ≤ o'.minted) ∨
    (o'.ledger.intents = (withoutIntents o.ledger (withdrawn.map (·.id))).intents ∧ o'.minted = o.minted)
  servers : ∀ serverId, o'.tierOf serverId = o.tierOf serverId

theorem parks_refl (o : Organization) (withdrawn : List PendingIntent) : Parks o o withdrawn where
  intents := .inl ⟨[], rfl, (append_nil _).symm, le_rfl⟩
  servers _ := rfl

variable {answer : ProviderAnswer}

theorem applyDeferred_parks (ho : Minted o)
    (hnext : MintedNext o intents) (withdrawn : List PendingIntent) :
    Parks o (applyDeferred o intents answer) withdrawn where
  intents := by
    refine .inl ?_
    have hledger : (applyDeferred o intents answer).ledger.intents =
        if answer.accepted then o.ledger.intents ++ intents else o.ledger.intents := ledger_applyDeferred ho hnext
    have hminted : (applyDeferred o intents answer).minted = o.minted + intents.length := by
      rw [applyDeferred]
      split
      · rfl
      · rfl
    split at hledger
    · exact ⟨intents, hnext, hledger, hminted.ge⟩
    · exact ⟨[], rfl, hledger.trans (append_nil _).symm, by rw [hminted]; exact Nat.le_add_right _ _⟩
  servers _ := by
    rw [applyDeferred]
    split
    · rfl
    · rfl

theorem withdrawDeferred_parks : Parks o (withdrawDeferred o intents answer) intents where
  intents := by
    have hledger : (withdrawDeferred o intents answer).ledger.intents =
        if answer.accepted then (withoutIntents o.ledger (intents.map (·.id))).intents else o.ledger.intents :=
      ledger_withdrawDeferred
    have hminted : (withdrawDeferred o intents answer).minted = o.minted := by
      rw [withdrawDeferred]
      split
      · rfl
      · rfl
    split at hledger
    · exact .inr ⟨hledger, hminted⟩
    · exact .inl ⟨[], rfl, hledger.trans (append_nil _).symm, hminted.ge⟩
  servers _ := by
    rw [withdrawDeferred]
    split
    · rfl
    · rfl

theorem releases_mintedNext (o : Organization) (tierId : TierId) (delta : ℤ) (nowMs : StripeProjection.Time) :
    MintedNext o (releases o tierId delta nowMs) := by
  rw [MintedNext, releases, map_map, length_map, length_range]
  rfl

/-- What the sync in a step reads is the organization before, with the rows that were projected. -/
structure Projects (o read : Organization) : Prop where
  ledger : read.ledger = o.ledger
  minted : read.minted = o.minted
  tierOf : ∀ serverId, read.tierOf serverId = o.tierOf serverId

theorem projects_project (o : Organization) (p : Projected) : Projects o (project o p) := ⟨rfl, rfl, fun _ => rfl⟩

theorem reprojected_projects {read : Organization}
    (h : answer.reprojected o = some read) : Projects o read := by
  rw [ProviderAnswer.reprojected] at h
  split at h
  · obtain ⟨p, -, rfl⟩ := Option.map_eq_some_iff.1 h
    exact projects_project o p
  · cases h

theorem step_cases (ho : Minted o) (step : Step) :
    (∃ read, step.reads o = some read ∧ step.withdraws o = [] ∧ Projects o read ∧
      ∃ synced, Syncs read synced ∧ (step.apply o).ledger = synced.ledger ∧ (step.apply o).minted = synced.minted ∧
        (step.apply o).ended = synced.ended ∧ (step.apply o).currentPeriodEnd = synced.currentPeriodEnd ∧
        ∀ serverId, (step.apply o).tierOf serverId ≠ synced.tierOf serverId → step.upgrades = some serverId) ∨
    (step.reads o = none ∧ Parks o (step.apply o) (step.withdraws o)) := by
  cases step with
  | changeSeats tierId delta nowMs answer =>
    rw [Step.reads, Step.apply, changeSeats]
    cases hrefusal : changeSeatsRefusal o tierId delta with
    | some refusal => exact .inr ⟨if_neg (fun h => nomatch h.2), parks_refl o _⟩
    | none =>
      by_cases hdelta : 0 < delta
      · rw [if_pos ⟨hdelta, rfl⟩]
        dsimp only
        rw [if_pos hdelta]
        cases hread : answer.reprojected o with
        | none => exact .inr ⟨rfl, parks_refl o _⟩
        | some read =>
          exact .inl ⟨read, rfl, rfl, reprojected_projects hread, _, syncEntitlements_syncs read, rfl, rfl, rfl, rfl,
            fun _ h => absurd rfl h⟩
      · rw [if_neg fun h => hdelta h.1]
        dsimp only
        rw [if_neg hdelta]
        exact .inr ⟨rfl, applyDeferred_parks ho (releases_mintedNext o tierId delta nowMs) _⟩
  | restoreSeats tierId count answer =>
    refine .inr ⟨rfl, ?_⟩
    rw [Step.apply, restoreSeats]
    dsimp only
    split
    · exact parks_refl o _
    · split
      · exact parks_refl o _
      · split
        · exact parks_refl o _
        · exact withdrawDeferred_parks
  | upgradeTier fromTier toTier serverId answer =>
    rw [Step.reads, Step.apply, upgradeTier]
    cases hrefusal : upgradeTierRefusal o fromTier toTier serverId with
    | some refusal => exact .inr ⟨if_neg nofun, parks_refl o _⟩
    | none =>
      rw [if_pos rfl]
      dsimp only
      cases hread : answer.reprojected o with
      | none => exact .inr ⟨rfl, parks_refl o _⟩
      | some read =>
        refine .inl ⟨read, rfl, rfl, reprojected_projects hread, _, syncEntitlements_syncs read, ?_⟩
        dsimp only
        split
        · rename_i named _
          have hbilling := billing_moveNamedServerTier (syncEntitlements read).licenses named fromTier.id toTier.id
          refine ⟨rfl, rfl, ended_congr hbilling, currentPeriodEnd_congr hbilling rfl, fun serverId h => ?_⟩
          by_contra hne
          have hne : serverId ≠ named := fun heq => hne (heq ▸ rfl)
          exact h (tierOf_congr (find_moveNamedServerTier _ hne _ _))
        · exact ⟨rfl, rfl, rfl, rfl, fun _ h => absurd rfl h⟩
  | downgradeTier fromTier toTier serverId nowMs answer =>
    refine .inr ⟨rfl, ?_⟩
    rw [Step.apply, downgradeTier]
    split
    · exact parks_refl o _
    · refine applyDeferred_parks ho ?_ _
      rfl
  | project p => exact .inr ⟨rfl, .inl ⟨[], rfl, (append_nil _).symm, le_rfl⟩, fun _ => rfl⟩
  | sync =>
    exact .inl ⟨o, rfl, rfl, ⟨rfl, rfl, fun _ => rfl⟩, _, syncEntitlements_syncs o, rfl, rfl, rfl, rfl,
      fun _ h => absurd rfl h⟩

theorem Minted.of_sublist (ho : Minted o) (hsublist : o'.ledger.intents.Sublist o.ledger.intents)
    (hminted : o.minted ≤ o'.minted) : Minted o' where
  nodup := ho.nodup.sublist (hsublist.map _)
  lt intent hintent := (ho.lt intent (hsublist.subset hintent)).trans_le hminted

theorem Minted.parks {withdrawn : List PendingIntent} (ho : Minted o) (h : Parks o o' withdrawn) : Minted o' := by
  obtain ⟨parked, hnext, hledger, hminted⟩ | ⟨hledger, hminted⟩ := h.intents
  · refine ⟨?_, fun intent hintent => ?_⟩
    · rw [hledger, map_append, nodup_append]
      refine ⟨ho.nodup, hnext.nodup, fun id hid id' hid' heq => ?_⟩
      obtain ⟨old, hold, rfl⟩ := mem_map.1 hid
      obtain ⟨new, hnew, rfl⟩ := mem_map.1 hid'
      have := ho.lt old hold
      have := (hnext.le_lt hnew).1
      omega
    · rw [hledger] at hintent
      obtain hold | hnew := mem_append.1 hintent
      · have := ho.lt intent hold
        omega
      · have := (hnext.le_lt hnew).2
        omega
  · refine ho.of_sublist ?_ hminted.ge
    rw [hledger, withoutIntents]
    exact filter_sublist

theorem Minted.after (ho : Minted o) (step : Step) : Minted (step.apply o) := by
  obtain ⟨read, -, -, hread, synced, hsync, hledger, hminted, -⟩ | ⟨-, hparks⟩ := step_cases ho step
  · refine ho.of_sublist ?_ (hminted.trans (hsync.minted.trans hread.minted)).ge
    rw [hledger, hsync.intents, hread.ledger, withoutIntents]
    exact filter_sublist
  · exact ho.parks hparks

theorem Minted.afterRun (ho : Minted o) (steps : List Step) : Minted (run o steps) := by
  induction steps generalizing o with
  | nil => exact ho
  | cons step steps ih => exact ih (ho.after step)

theorem minted_of_nil (h : o.pendingChanges = none) : Minted o := by
  have hledger : o.ledger.intents = [] := by
    rw [Organization.ledger, readPendingChanges, h]
    rfl
  refine ⟨?_, fun intent hintent => ?_⟩
  · rw [hledger]
    exact nodup_nil
  · rw [hledger] at hintent
    cases hintent

theorem due_congr (hended : o'.ended = o.ended) (hend : o'.currentPeriodEnd = o.currentPeriodEnd) :
    Due o' intent ↔ Due o intent := by
  rw [Due, Due, hended, hend]

theorem withdraws_subset (o : Organization) (step : Step) : ∀ intent ∈ step.withdraws o, intent ∈ o.ledger.intents := by
  intro intent hintent
  cases step with
  | restoreSeats tierId count answer =>
    have hmem := mem_of_mem_take hintent
    rw [restorableReleases, mem_insertionSort, mem_reverse] at hmem
    exact (mem_filter.1 hmem).1
  | changeSeats => cases hintent
  | upgradeTier => cases hintent
  | downgradeTier => cases hintent
  | project => cases hintent
  | sync => cases hintent

theorem leavesOnlyDue_iff (ho : Minted o) (step : Step) :
    LeavesOnlyDue o step ↔ ∀ read ∈ step.reads o, SeatsNotBelow read := by
  obtain ⟨read, hreads, hwithdraws, hread, synced, hsync, hledger, -, hended, hend, hservers⟩ | ⟨hreads, hparks⟩ :=
    step_cases ho step
  · have hlanded : ∀ intent ∈ read.landed, intent ∈ read.ledger.intents := fun intent h => (mem_landed.1 h).1
    have hnodup : (read.ledger.intents.map (·.id)).Nodup := hread.ledger ▸ ho.nodup
    have hmem : ∀ intent, intent ∈ (step.apply o).ledger.intents ↔
        intent ∈ read.ledger.intents ∧ intent ∉ read.landed := by
      intro intent
      rw [hledger, hsync.intents]
      exact mem_withoutIntents hnodup hlanded
    have hdue : ∀ intent, Due (step.apply o) intent ↔ Due read intent := fun intent =>
      due_congr (hended.trans hsync.ended) (hend.trans hsync.currentPeriodEnd)
    rw [hreads]
    constructor
    · rintro hkeeps _ ⟨⟩ intent hintent hknown hnotDue
      by_contra hbelow
      have hin : intent ∈ read.landed := mem_landed.2 ⟨hintent, .inr (not_le.1 hbelow)⟩
      obtain hdue' | hwithdrawn := hkeeps.intents intent (hread.ledger ▸ hintent) hknown
        fun hstays => ((hmem intent).1 hstays).2 hin
      · exact hnotDue ((hdue intent).1 hdue')
      · rw [hwithdraws] at hwithdrawn
        cases hwithdrawn
    · intro hmeets
      have hmeets := hmeets read rfl
      refine ⟨fun intent hintent hknown hleaves => .inl ?_, fun serverId hmoves => ?_⟩
      · rw [← hread.ledger] at hintent
        have hin : intent ∈ read.landed := by
          by_contra hnot
          exact hleaves ((hmem intent).2 ⟨hintent, hnot⟩)
        rw [hdue]
        by_contra hnotDue
        have := hmeets intent hintent hknown hnotDue
        obtain hdue' | hbelow := (mem_landed.1 hin).2
        · exact hnotDue hdue'
        · omega
      · by_cases hsynced : (step.apply o).tierOf serverId = synced.tierOf serverId
        · rw [hsynced, ← hread.tierOf] at hmoves
          obtain ⟨hlive, intent, hin, hkind, hnames⟩ := hsync.servers serverId hmoves
          refine .inr ⟨intent, hread.ledger ▸ hlanded intent hin, hkind, hnames, fun hknown => ?_⟩
          rw [hend, hsync.currentPeriodEnd]
          obtain ⟨hintent, hdue' | hbelow⟩ := mem_landed.1 hin
          · exact hdue'.resolve_left fun h => Bool.noConfusion (hlive.symm.trans h)
          · by_contra hnot
            have := hmeets intent hintent hknown fun hdue' =>
              hdue'.elim (fun h => Bool.noConfusion (hlive.symm.trans h)) hnot
            omega
        · exact .inl (hservers serverId hsynced)
  · rw [hreads]
    refine iff_of_true ⟨fun intent hintent _ hleaves => .inr ?_, fun serverId h => ?_⟩ nofun
    · obtain ⟨parked, -, hledger, -⟩ | ⟨hledger, -⟩ := hparks.intents
      · rw [hledger] at hleaves
        exact absurd (mem_append_left _ hintent) hleaves
      · rw [hledger, mem_withoutIntents ho.nodup (withdraws_subset o step), not_and_not_right] at hleaves
        exact hleaves hintent
    · exact absurd (hparks.servers serverId) h

/-! ## Runs -/

/-- **A pending change leaves the ledger only when it is due**, and no named server moves before
that, in every run from a subscription with nothing pending, exactly if no sync of the run finds
fewer seats at the tier of an outstanding change, whose period end is known and has not passed, than
when the change was parked. -/
theorem landsOnlyWhenDue_iff (ho : o.pendingChanges = none) (steps : List Step) :
    LandsOnlyWhenDue o steps ↔ MeetsSeats o steps := by
  refine forall_congr' fun before => forall_congr' fun step => forall_congr' fun after => ?_
  exact imp_congr_right fun _ => leavesOnlyDue_iff ((minted_of_nil ho).afterRun before) step

/-! ## An upgrade from the tier of a release -/

def smaller : TierRow := ⟨3, 3⟩

def larger : TierRow := ⟨4, 4⟩

/-- Three seats at the smaller tier, and no server yet. -/
def threeSeats : Organization where
  licenses := ⟨[], nodup_nil, ⟨some "active".toList, [⟨smaller, 3⟩], none⟩, []⟩
  row := ⟨1, some 100, none⟩
  pendingChanges := none
  tiers := [smaller, larger]
  activeLicenses := 0
  sellable _ := true
  minted := 0

/-- One seat is given back at the end of the period. -/
def releaseOne : Step := .changeSeats smaller.id (-1) 10 ⟨true, false, none⟩

/-- In the same period one of the others is upgraded. -/
def upgradeOne : Step := .upgradeTier smaller larger none
  ⟨true, false, some ⟨"active".toList, some 100, none, [⟨smaller, 2⟩, ⟨larger, 1⟩]⟩⟩

theorem meetsSeats_cons {step : Step} {rest : List Step} (hfirst : ∀ read ∈ step.reads o, SeatsNotBelow read)
    (hrest : MeetsSeats (step.apply o) rest) : MeetsSeats o (step :: rest) := by
  intro before step' after heq
  cases before with
  | nil =>
    cases heq
    exact hfirst
  | cons first before =>
    obtain ⟨rfl, htail⟩ := List.cons.inj heq
    exact hrest before step' after htail

/-- A sync before the period ends, and one after it. -/
def releaseLands : List Step :=
  [releaseOne, .sync, .project ⟨"active".toList, some 200, none, [⟨smaller, 2⟩]⟩, .sync]

theorem landsOnlyWhenDue_release :
    (run threeSeats (releaseLands.take 2)).ledger.intents.length = 1 ∧
      (run threeSeats releaseLands).ledger.intents = [] ∧ LandsOnlyWhenDue threeSeats releaseLands := by
  refine ⟨by decide, by decide, (landsOnlyWhenDue_iff rfl _).2 ?_⟩
  refine meetsSeats_cons nofun (meetsSeats_cons ?_ (meetsSeats_cons nofun (meetsSeats_cons ?_ ?_)))
  · rintro read ⟨⟩
    unfold SeatsNotBelow
    decide
  · rintro read ⟨⟩
    unfold SeatsNotBelow
    decide
  · exact fun _ _ _ heq => absurd heq.symm (append_ne_nil_of_right_ne_nil _ (cons_ne_nil _ _))

/-- An upgrade out of its tier drops a release that is not due. -/
theorem upgrade_drops_release :
    ¬∀ o : Organization, o.pendingChanges = none → ∀ steps, LandsOnlyWhenDue o steps := by
  intro h
  have hkeeps := h threeSeats rfl [releaseOne, upgradeOne] [releaseOne] upgradeOne [] rfl
  have hledger : (run threeSeats [releaseOne]).ledger.intents =
      [newDeferredIntent 0 .releaseSeat 3 none (some 100) 3 none 10] := by decide
  have hintent : newDeferredIntent 0 .releaseSeat 3 none (some 100) 3 none 10 ∈
      (run threeSeats [releaseOne]).ledger.intents := by
    rw [hledger]
    exact mem_singleton_self _
  have hafter : (upgradeOne.apply (run threeSeats [releaseOne])).ledger.intents = [] := by decide
  obtain (hended | hrolled) | hwithdrawn := hkeeps.intents _ hintent nofun (by rw [hafter]; exact not_mem_nil)
  · cases hended
  · cases hrolled
  · cases hwithdrawn

end TurboPanel.PendingChanges
