import TurboPanel.Fabric.PathState

/-!
# The hysteresis of path selection

`PathMove` says what one round does to the selected path and to the strikes, and `pathMove_next`
that every round is such a move. A history is the list of the rounds so far, latest first. The
strikes on the state say something of its latest rounds: `demote_pathAfter` counts the rounds since
a direct path was last confirmed, and `promote_pathAfter` finds the healthy round behind a strike
for promotion.
-/

namespace TurboPanel.Fabric

open Js List

/-! ## What the evidence says -/

/-- The evidence is healthy on a direct kind. -/
def FabricPathEvidence.HealthyDirect (evidence : FabricPathEvidence) : Prop :=
  isHealthyDirectKind evidence.health evidence.kind = true

/-- The probe of the peer succeeded on a NAT endpoint. -/
def FabricPathEvidence.ProvenNat (evidence : FabricPathEvidence) : Prop :=
  evidence.natProbeSucceeded = true ∧ (truthyString evidence.natEndpoint).isSome = true

instance (evidence : FabricPathEvidence) : Decidable evidence.HealthyDirect :=
  inferInstanceAs (Decidable (_ = true))

instance (evidence : FabricPathEvidence) : Decidable evidence.ProvenNat :=
  inferInstanceAs (Decidable (_ ∧ _))

variable {evidence : FabricPathEvidence} {earlier : List FabricPathRound} (peerServerId : String)

theorem FabricPathEvidence.HealthyDirect.healthy (h : evidence.HealthyDirect) :
    evidence.health = .healthy := by
  unfold FabricPathEvidence.HealthyDirect isHealthyDirectKind at h
  simp only [Bool.and_eq_true, decide_eq_true_eq] at h
  exact h.1

theorem provenNat_of_not_healthyDirect (h : ¬evidence.HealthyDirect) :
    (healthyDirectNatEvidence evidence && (truthyString evidence.natEndpoint).isSome) = true ↔
      evidence.ProvenNat := by
  unfold healthyDirectNatEvidence FabricPathEvidence.ProvenNat
  simp only [Bool.and_eq_true, Bool.or_eq_true, decide_eq_true_eq]
  constructor
  · rintro ⟨⟨hprobe, -⟩ | ⟨⟨hhealthy, hkind⟩, -⟩, hend⟩
    · exact ⟨hprobe, hend⟩
    · exact absurd (by simp [FabricPathEvidence.HealthyDirect, isHealthyDirectKind, hhealthy, hkind, isDirectKind]) h
  · rintro ⟨hprobe, hend⟩
    exact ⟨.inl ⟨hprobe, hend⟩, hend⟩

/-! ## The moves -/

/-- What a round does to the selected path and to the strikes. -/
inductive PathMove (previous : FabricPathState) (evidence : FabricPathEvidence) (next : FabricPathState) : Prop
  /-- A direct kind is observed as healthy, and is selected or is promoted. -/
  | observed (hhealthy : evidence.HealthyDirect) (hdirect : isDirectKind next.selected = true)
      (hready : isDirectKind previous.selected = true ∨ 1 ≤ previous.promoteStrikes)
      (hdegraded : next.degraded = false) (hdemote : next.demoteStrikes = 0) (hpromote : next.promoteStrikes = 0)
  /-- A direct kind that is not the selected one is healthy for the first time. -/
  | promoting (hhealthy : evidence.HealthyDirect) (hsame : next.selected = previous.selected)
      (hdemote : isDirectKind previous.selected = true → next.demoteStrikes = 0)
      (hpromote : next.promoteStrikes = 1)
  /-- A direct path is kept through an unhealthy round. -/
  | held (hunhealthy : evidence.health ≠ .healthy) (hdirect : isDirectKind previous.selected = true)
      (hsame : next.selected = previous.selected) (hdegraded : next.degraded = true)
      (hdemote : next.demoteStrikes = previous.demoteStrikes + 1) (hlt : next.demoteStrikes < 3)
      (hpromote : next.promoteStrikes = 0)
  /-- A NAT path is selected on the word of the probe. -/
  | probed (hproven : evidence.ProvenNat) (hselected : next.selected = .directNat)
      (hdegraded : next.degraded = false) (hdemote : next.demoteStrikes = 0) (hpromote : next.promoteStrikes = 0)
  /-- There is no direct path. -/
  | fell (hnot : ¬evidence.HealthyDirect) (hindirect : isDirectKind next.selected = false)
      (hleft : isDirectKind previous.selected = true → evidence.health = .healthy ∨ 3 ≤ previous.demoteStrikes + 1)
      (hpromote : next.promoteStrikes = 0)

theorem pathMove_fallback {previous previous' : FabricPathState} (hnot : ¬evidence.HealthyDirect)
    (hleft : isDirectKind previous.selected = true → evidence.health = .healthy ∨ 3 ≤ previous.demoteStrikes + 1)
    (policy : FabricPathPolicy) : PathMove previous evidence (fallbackPath previous' evidence policy) := by
  unfold fallbackPath
  split
  · rename_i hnat
    exact .probed ((provenNat_of_not_healthyDirect hnot).1 hnat) rfl rfl rfl rfl
  · split
    · exact .fell hnot rfl hleft rfl
    · split
      · exact .fell hnot rfl hleft rfl
      · exact .fell hnot rfl hleft rfl

theorem pathMove_demoteOrFallback (hnot : ¬evidence.HealthyDirect) (previous : FabricPathState)
    (policy : FabricPathPolicy) :
    PathMove previous evidence (demoteOrFallback previous evidence policy) := by
  unfold demoteOrFallback
  split
  · rename_i hnow
    simp only [Bool.or_eq_true, Bool.not_eq_true', decide_eq_true_eq] at hnow
    refine pathMove_fallback hnot (fun hdirect => .inl ?_) policy
    obtain hindirect | hhealthy := hnow
    · rw [hdirect] at hindirect
      cases hindirect
    · exact hhealthy
  · rename_i hwait
    simp only [Bool.or_eq_true, Bool.not_eq_true', decide_eq_true_eq, not_or, Bool.not_eq_false] at hwait
    obtain ⟨hdirect, hunhealthy⟩ := hwait
    dsimp only
    split
    · rename_i hlt
      exact .held hunhealthy hdirect rfl rfl rfl hlt rfl
    · rename_i hstruck
      refine pathMove_fallback hnot (fun _ => .inr ?_) policy
      unfold fabricPathDemoteStrikes at hstruck
      omega

theorem pathMove_holdOrPromote (hhealthy : evidence.HealthyDirect) {kind : RelayPathKind}
    (hkind : isDirectKind kind = true) (previous : FabricPathState) :
    PathMove previous evidence (holdOrPromoteDirect previous evidence kind) := by
  unfold holdOrPromoteDirect
  split
  · rename_i hsame
    exact .observed hhealthy hkind (.inl (hsame ▸ hkind)) rfl rfl rfl
  · dsimp only
    split
    · rename_i hstruck
      unfold fabricPathPromoteStrikes at hstruck
      exact .observed hhealthy hkind (.inr (by omega)) rfl rfl rfl
    · rename_i hfirst
      unfold fabricPathPromoteStrikes at hfirst
      have hzero : previous.promoteStrikes + 1 = 1 := by omega
      split
      · exact .promoting hhealthy rfl (fun _ => rfl) hzero
      · rename_i hindirect
        exact .promoting hhealthy rfl (fun hdirect => absurd hdirect hindirect) hzero

/-- **Every round is a move.** -/
theorem pathMove_next (previous : FabricPathState) (evidence : FabricPathEvidence) (policy : FabricPathPolicy) :
    PathMove previous evidence (nextFabricPathState previous evidence policy) := by
  unfold nextFabricPathState
  split
  · rename_i kind hkind
    split
    · rename_i hhealthy
      refine pathMove_holdOrPromote hhealthy ?_ previous
      simp only [isHealthyDirectKind, hkind, Option.any_some, Bool.and_eq_true] at hhealthy
      exact hhealthy.2
    · rename_i hnot
      exact pathMove_demoteOrFallback hnot previous policy
  · rename_i hkind
    refine pathMove_demoteOrFallback (fun hhealthy => ?_) previous policy
    simp [FabricPathEvidence.HealthyDirect, isHealthyDirectKind, hkind] at hhealthy

/-! ## Histories -/

structure FabricPathRound where
  evidence : FabricPathEvidence
  policy : FabricPathPolicy

/-- The state after the rounds of a history, latest first. -/
def pathAfter (peerServerId : String) : List FabricPathRound → FabricPathState
  | [] => initialFabricPathState peerServerId
  | round :: earlier => nextFabricPathState (pathAfter peerServerId earlier) round.evidence round.policy

theorem pathMove_pathAfter (round : FabricPathRound) (earlier : List FabricPathRound) :
    PathMove (pathAfter peerServerId earlier) round.evidence (pathAfter peerServerId (round :: earlier)) :=
  pathMove_next _ _ _

/-- The round confirmed a direct path: it was healthy on a direct kind, or it selected a NAT path on
the word of the probe, after which the state is not degraded. -/
def Confirmed (peerServerId : String) (round : FabricPathRound) (earlier : List FabricPathRound) : Prop :=
  round.evidence.HealthyDirect ∨
    round.evidence.ProvenNat ∧ (pathAfter peerServerId (round :: earlier)).selected = .directNat ∧
      (pathAfter peerServerId (round :: earlier)).degraded = false

instance (peerServerId : String) (round : FabricPathRound) (earlier : List FabricPathRound) :
    Decidable (Confirmed peerServerId round earlier) :=
  inferInstanceAs (Decidable (_ ∨ _ ∧ _ ∧ _))

/-- The number of rounds since the last one that confirmed a direct path. -/
def roundsSinceConfirmed (peerServerId : String) : List FabricPathRound → ℕ
  | [] => 0
  | round :: earlier =>
    if Confirmed peerServerId round earlier then 0 else roundsSinceConfirmed peerServerId earlier + 1

/-- The number of unhealthy rounds since the last one that was healthy on a direct kind. -/
def unhealthySinceHealthyDirect : List FabricPathRound → ℕ
  | [] => 0
  | round :: earlier =>
    if round.evidence.HealthyDirect then 0
    else if round.evidence.health ≠ .healthy then unhealthySinceHealthyDirect earlier + 1
    else unhealthySinceHealthyDirect earlier

/-- **The strikes for demotion**, while a direct kind is selected: they count the rounds since a
direct path was last confirmed, and each of these was unhealthy. -/
theorem demote_pathAfter : ∀ history : List FabricPathRound,
    isDirectKind (pathAfter peerServerId history).selected = true →
      (pathAfter peerServerId history).demoteStrikes = roundsSinceConfirmed peerServerId history ∧
        roundsSinceConfirmed peerServerId history ≤ history.length ∧
        ∀ round ∈ history.take (roundsSinceConfirmed peerServerId history), round.evidence.health ≠ .healthy := by
  intro history
  induction history with
  | nil => exact fun h => (nomatch h)
  | cons round earlier ih =>
    intro hdirect
    have hmove := pathMove_pathAfter peerServerId round earlier
    have hconfirmed : Confirmed peerServerId round earlier →
        (pathAfter peerServerId (round :: earlier)).demoteStrikes = 0 →
          (pathAfter peerServerId (round :: earlier)).demoteStrikes =
              roundsSinceConfirmed peerServerId (round :: earlier) ∧
            roundsSinceConfirmed peerServerId (round :: earlier) ≤ (round :: earlier).length ∧
            ∀ r ∈ (round :: earlier).take (roundsSinceConfirmed peerServerId (round :: earlier)),
              r.evidence.health ≠ .healthy := by
      intro hc hzero
      have hcount : roundsSinceConfirmed peerServerId (round :: earlier) = 0 := if_pos hc
      rw [hcount, hzero]
      exact ⟨rfl, Nat.zero_le _, fun r hr => absurd hr not_mem_nil⟩
    cases hmove with
    | observed hhealthy _ _ _ hdemote _ => exact hconfirmed (.inl hhealthy) hdemote
    | promoting hhealthy hsame hdemote _ =>
      exact hconfirmed (.inl hhealthy) (hdemote (hsame ▸ hdirect))
    | held hunhealthy hprevious hsame hdegraded hdemote hlt _ =>
      obtain ⟨hcount, hlen, hall⟩ := ih hprevious
      have hnot : ¬Confirmed peerServerId round earlier := by
        rintro (hhealthy | ⟨-, -, hclean⟩)
        · exact hunhealthy hhealthy.healthy
        · rw [hdegraded] at hclean
          cases hclean
      have hsucc : roundsSinceConfirmed peerServerId (round :: earlier) =
          roundsSinceConfirmed peerServerId earlier + 1 := if_neg hnot
      rw [hsucc, hdemote, hcount]
      refine ⟨rfl, Nat.succ_le_succ hlen, fun r hr => ?_⟩
      rw [take_succ_cons] at hr
      obtain rfl | hr := mem_cons.1 hr
      · exact hunhealthy
      · exact hall r hr
    | probed hproven hselected hdegraded hdemote _ =>
      exact hconfirmed (.inr ⟨hproven, hselected, hdegraded⟩) hdemote
    | fell _ hindirect _ _ =>
      rw [hindirect] at hdirect
      cases hdirect

theorem promote_pathAfter (history : List FabricPathRound) (h : 1 ≤ (pathAfter peerServerId history).promoteStrikes) :
    ∃ round earlier, history = round :: earlier ∧ round.evidence.HealthyDirect := by
  cases history with
  | nil => cases h
  | cons round earlier =>
    refine ⟨round, earlier, rfl, ?_⟩
    cases pathMove_pathAfter peerServerId round earlier with
    | promoting hhealthy _ _ _ => exact hhealthy
    | observed _ _ _ _ _ hpromote => omega
    | held _ _ _ _ _ _ hpromote => omega
    | probed _ _ _ _ hpromote => omega
    | fell _ _ _ hpromote => omega

/-! ## The law of the paths -/

/-- **Leaving a direct path**: in a round that is healthy otherwise, or after three unhealthy
rounds. -/
theorem leave_direct {peerServerId : String} {round : FabricPathRound}
    (hbefore : isDirectKind (pathAfter peerServerId earlier).selected = true)
    (hafter : isDirectKind (pathAfter peerServerId (round :: earlier)).selected = false) :
    round.evidence.health = .healthy ∧ ¬round.evidence.HealthyDirect ∨
      ∃ second first rest, earlier = second :: first :: rest ∧ ¬round.evidence.HealthyDirect ∧
        ¬second.evidence.HealthyDirect ∧ ¬first.evidence.HealthyDirect := by
  cases pathMove_pathAfter peerServerId round earlier with
  | observed _ hdirect _ _ _ _ => simp [hdirect] at hafter
  | promoting _ hsame _ _ => simp [hsame, hbefore] at hafter
  | held _ _ hsame _ _ _ _ => simp [hsame, hbefore] at hafter
  | probed _ hselected _ _ _ =>
    rw [hselected] at hafter
    cases hafter
  | fell hnot _ hleft _ =>
    obtain hhealthy | hstruck := hleft hbefore
    · exact .inl ⟨hhealthy, hnot⟩
    · obtain ⟨hcount, hlen, hall⟩ := demote_pathAfter peerServerId earlier hbefore
      match earlier, hcount, hlen, hall with
      | [], hcount, hlen, _ | [_], hcount, hlen, _ =>
        simp only [length_cons, length_nil] at hlen
        omega
      | second :: first :: rest, hcount, _, hall =>
        have htwo : 2 ≤ roundsSinceConfirmed peerServerId (second :: first :: rest) := by omega
        obtain ⟨n, hn⟩ := Nat.exists_eq_add_of_le' htwo
        rw [hn, take_succ_cons, take_succ_cons] at hall
        refine .inr ⟨second, first, rest, rfl, hnot, fun h => ?_, fun h => ?_⟩
        · exact hall second mem_cons_self h.healthy
        · exact hall first (mem_cons_of_mem _ mem_cons_self) h.healthy

/-- **Returning to a direct path**: after two rounds healthy on a direct kind, or on the word of the
probe. -/
theorem enter_direct {peerServerId : String} {round : FabricPathRound}
    (hbefore : isDirectKind (pathAfter peerServerId earlier).selected = false)
    (hafter : isDirectKind (pathAfter peerServerId (round :: earlier)).selected = true) :
    (round.evidence.HealthyDirect ∧ ∃ previous rest, earlier = previous :: rest ∧ previous.evidence.HealthyDirect) ∨
      round.evidence.ProvenNat := by
  cases pathMove_pathAfter peerServerId round earlier with
  | observed hhealthy _ hready _ _ _ =>
    obtain hdirect | hstruck := hready
    · simp [hdirect] at hbefore
    · exact .inl ⟨hhealthy, promote_pathAfter peerServerId earlier hstruck⟩
  | promoting _ hsame _ _ => simp [hsame, hbefore] at hafter
  | held _ hdirect _ _ _ _ _ => simp [hdirect] at hbefore
  | probed hproven _ _ _ _ => exact .inr hproven
  | fell _ hindirect _ _ => simp [hindirect] at hafter

/-- **Path hysteresis.** In every run, a direct path is left and returned to only so, and the
strikes for demotion count the unhealthy rounds since a direct path was last confirmed. -/
theorem path_hysteresis (peerServerId : String) (history : List FabricPathRound) :
    (∀ round earlier, history = round :: earlier →
      isDirectKind (pathAfter peerServerId earlier).selected = true →
      isDirectKind (pathAfter peerServerId history).selected = false →
        round.evidence.health = .healthy ∧ ¬round.evidence.HealthyDirect ∨
          ∃ second first rest, earlier = second :: first :: rest ∧ ¬round.evidence.HealthyDirect ∧
            ¬second.evidence.HealthyDirect ∧ ¬first.evidence.HealthyDirect) ∧
    (∀ round earlier, history = round :: earlier →
      isDirectKind (pathAfter peerServerId earlier).selected = false →
      isDirectKind (pathAfter peerServerId history).selected = true →
        (round.evidence.HealthyDirect ∧
            ∃ previous rest, earlier = previous :: rest ∧ previous.evidence.HealthyDirect) ∨
          round.evidence.ProvenNat) ∧
    (isDirectKind (pathAfter peerServerId history).selected = true →
      (pathAfter peerServerId history).demoteStrikes = roundsSinceConfirmed peerServerId history ∧
        ∀ round ∈ history.take (roundsSinceConfirmed peerServerId history), round.evidence.health ≠ .healthy) := by
  refine ⟨?_, ?_, fun hdirect => ?_⟩
  · rintro round earlier rfl hbefore hafter
    exact leave_direct hbefore hafter
  · rintro round earlier rfl hbefore hafter
    exact enter_direct hbefore hafter
  · obtain ⟨hcount, -, hall⟩ := demote_pathAfter peerServerId history hdirect
    exact ⟨hcount, hall⟩

/-- A round that is healthy on the LAN. -/
def lanRound : FabricPathRound where
  evidence := { health := .healthy, kind := some .directLan }
  policy := { orgAllowRelay := false, relayAllowRelay := none }

/-- A round without a handshake. -/
def staleRound : FabricPathRound where
  evidence := { health := .stale }
  policy := { orgAllowRelay := false, relayAllowRelay := none }

/-- A round without a handshake, whose probe reached the peer behind a NAT. -/
def natRound : FabricPathRound where
  evidence := { health := .stale, natEndpoint := some "203.0.113.50:48172", natProbeSucceeded := true }
  policy := { orgAllowRelay := false, relayAllowRelay := none }

theorem path_hysteresis_three_stale :
    isDirectKind (pathAfter "peer" [staleRound, staleRound, staleRound, lanRound, lanRound]).selected = false ∧
      (staleRound.evidence.health = .healthy ∧ ¬staleRound.evidence.HealthyDirect ∨
        ∃ second first rest, [staleRound, staleRound, lanRound, lanRound] = second :: first :: rest ∧
          ¬staleRound.evidence.HealthyDirect ∧ ¬second.evidence.HealthyDirect ∧ ¬first.evidence.HealthyDirect) :=
  ⟨rfl, (path_hysteresis "peer" [staleRound, staleRound, staleRound, lanRound, lanRound]).1 _ _ rfl rfl rfl⟩

/-- A proven NAT endpoint makes a path after a third stale round. -/
theorem nat_path_without_strikes :
    isDirectKind (pathAfter "peer" [natRound, staleRound, staleRound, lanRound, lanRound]).selected = true ∧
      (pathAfter "peer" [natRound, staleRound, staleRound, lanRound, lanRound]).demoteStrikes = 0 ∧
      unhealthySinceHealthyDirect [natRound, staleRound, staleRound, lanRound, lanRound] = 3 := by
  refine ⟨rfl, rfl, ?_⟩
  decide

end TurboPanel.Fabric
