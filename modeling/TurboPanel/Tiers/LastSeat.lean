import TurboPanel.Tiers.Assignment

/-!
# The last seat of a tier

The two writers that hold the row lock count the free seats before they take one. The move of a
named server does not: a seat that its owner has just bought may be taken by another server before
the named one moves, and then both hold it (`bought_seat_is_taken_twice`). A run is safe exactly if
each write that does not count would have found a free seat (`neverTakenTwice_iff`).
-/

namespace TurboPanel.Tiers

open Js Interleaving List

abbrev Choices := List (Choice Env Call)

/-! ## The claim -/

def holders (s : Licenses) (tierId : TierId) : ℕ :=
  s.servers.countP fun entry => decide (entry.assignedTierId = some tierId)

/-- The holders and the seats that unused keys hold are no more than was bought. -/
def Covered (s : Licenses) (tierId : TierId) : Prop :=
  (holders s tierId + reservedAt s.heldKeys tierId : ℤ) ≤ boughtAt (tierQuantitiesFromState s.billing) tierId

instance (s : Licenses) (tierId : TierId) : Decidable (Covered s tierId) := by
  unfold Covered
  infer_instance

/-- The tier that a step assigns to. -/
def assignsTo : (o : Op) × Ans o → Option TierId
  | ⟨.assignServerTier _ _, .ok tierId⟩ => tierId
  | ⟨.applyAddServerTierAtEnroll _ tierId, .assigned⟩ => some tierId
  | ⟨.moveNamedServerTier _ _ toTierId, true⟩ => some toTierId
  | _ => none

def names : Op → Option ServerId
  | .assignServerTier serverId _ => some serverId
  | .applyAddServerTierAtEnroll serverId _ => some serverId
  | .moveNamedServerTier serverId _ _ => some serverId
  | .loadView => none
  | .getTiersByIds _ => none
  | .applyImmediate _ _ => none

/-- After the step, the tier it assigns to is covered, and a server that it does not name has the
tier it had. -/
structure StepKeeps (s s' : Licenses) (ev : (o : Op) × Ans o) : Prop where
  covered : ∀ tierId ∈ assignsTo ev, Covered s' tierId
  others : ∀ serverId, names ev.1 ≠ some serverId →
    (s'.find serverId).map (·.assignedTierId) = (s.find serverId).map (·.assignedTierId)

/-- What the choice does: nothing, or a step that keeps the seats. -/
def ChoiceKeeps (w w' : World Op Ans Licenses) : Prop :=
  w' = w ∨ ∃ ev, w'.log = w.log ++ [ev] ∧ StepKeeps w.state w'.state ⟨ev.op, ev.ans⟩

/-- Every step of the run keeps the seats. -/
def KeptFrom (c : Config Op Ans Licenses) (choices : Choices) : Prop :=
  ∀ now choice later, choices = now ++ choice :: later →
    ChoiceKeeps (c.run machine body now).world ((c.run machine body now).next machine body choice).world

def NeverTakenTwice (s : Licenses) (choices : Choices) : Prop := KeptFrom (Config.init s) choices

/-- A server that is given the tier it holds, and one that moves, would have found a free seat. -/
def FindsSeat (_ : ℕ) (w : World Op Ans Licenses) : Op → Prop
  | .assignServerTier serverId (some tierId) =>
    ∀ row ∈ w.state.find serverId, row.assignedTierId = some tierId → 1 ≤ w.state.freeFor tierId serverId
  | .moveNamedServerTier serverId fromTierId toTierId =>
    ∀ row ∈ w.state.find serverId, row.assignedTierId = some fromTierId → 1 ≤ w.state.freeFor toTierId serverId
  | _ => True

/-! ## The write of one server -/

section

variable {s : Licenses} {serverId : ServerId} {tierId : TierId} {preferredTierId : Option TierId}

theorem countP_write (servers : List ServerRow) :
    (servers.map (ServerRow.write serverId (some tierId) preferredTierId)).countP
        (fun entry => decide (entry.assignedTierId = some tierId)) =
      servers.countP (fun entry => decide (entry.serverId = serverId)) + heldByOthers servers tierId serverId := by
  induction servers with
  | nil => rfl
  | cons row servers ih =>
    rw [heldByOthers] at ih ⊢
    rw [map_cons, countP_cons, countP_cons, countP_cons, ih, ServerRow.write]
    by_cases hid : row.serverId = serverId
    · simp [hid]
      omega
    · simp [hid]
      omega

theorem countP_serverId (h : (s.find serverId).isSome) :
    s.servers.countP (fun entry => decide (entry.serverId = serverId)) = 1 := by
  rw [Licenses.find, find?_isSome] at h
  obtain ⟨row, hrow, hid⟩ := h
  have hmem : serverId ∈ s.servers.map (·.serverId) := mem_map.2 ⟨row, hrow, of_decide_eq_true hid⟩
  have hcount := count_eq_one_of_mem s.nodup hmem
  rw [List.count, countP_map] at hcount
  rw [← hcount]
  refine countP_congr fun entry _ => ?_
  rw [decide_eq_true_iff, Function.comp_apply, beq_iff_eq]

/-- **The write is safe exactly if there was a free seat.** -/
theorem covered_write_iff (h : (s.find serverId).isSome) :
    Covered (s.write serverId (some tierId) preferredTierId) tierId ↔ 1 ≤ s.freeFor tierId serverId := by
  rw [Covered, holders, Licenses.write, countP_write, countP_serverId h, Licenses.freeFor, freeAtTier]
  dsimp only
  push_cast
  omega

theorem find_write_of_ne {assignedTierId : Option TierId} {other : ServerId} (h : other ≠ serverId) :
    (s.write serverId assignedTierId preferredTierId).find other = s.find other := by
  rw [Licenses.find, Licenses.find, Licenses.write, find?_map]
  have hpred : (fun entry : ServerRow => decide (entry.serverId = other)) ∘
      ServerRow.write serverId assignedTierId preferredTierId = fun entry => decide (entry.serverId = other) := by
    funext entry
    rw [Function.comp_apply, ServerRow.write_serverId]
  rw [hpred]
  cases hfind : s.servers.find? fun entry => decide (entry.serverId = other) with
  | none => rfl
  | some row =>
    have hid := find?_some hfind
    rw [decide_eq_true_iff] at hid
    rw [Option.map_some, ServerRow.write, if_neg (hid.trans_ne h)]

end

/-! ## One step -/

section

variable {s s' : Licenses} {serverId : ServerId}

theorem stepKeeps_refl {ev : (o : Op) × Ans o} (h : assignsTo ev = none) : StepKeeps s s ev :=
  ⟨fun _ htier => (nomatch h.symm.trans htier), fun _ _ => rfl⟩

theorem stepKeeps_write {ev : (o : Op) × Ans o} {assignedTierId preferredTierId : Option TierId}
    (hnames : names ev.1 = some serverId) (h : ∀ tierId ∈ assignsTo ev,
      Covered (s.write serverId assignedTierId preferredTierId) tierId) :
    StepKeeps s (s.write serverId assignedTierId preferredTierId) ev where
  covered := h
  others other hother := by
    have hne : other ≠ serverId := by
      rintro rfl
      exact hother hnames
    rw [find_write_of_ne hne]

theorem assignServerTier_keeps_iff {tierId : Option TierId} (i : ℕ) (log : List (Event Op Ans)) :
    StepKeeps s (assignServerTier s serverId tierId).2
      ⟨.assignServerTier serverId tierId, (assignServerTier s serverId tierId).1⟩ ↔
        FindsSeat i ⟨s, log⟩ (.assignServerTier serverId tierId) := by
  rw [assignServerTier]
  cases hfind : s.find serverId with
  | none =>
    refine iff_of_true (stepKeeps_refl rfl) ?_
    cases tierId with
    | none => trivial
    | some tier =>
      intro row hrow
      cases hfind.symm.trans hrow
  | some mine =>
    cases tierId with
    | none => exact iff_of_true (stepKeeps_write rfl nofun) trivial
    | some tier =>
      dsimp only
      have hcovered : Covered (s.write serverId (some tier) (some tier)) tier ↔ 1 ≤ s.freeFor tier serverId :=
        covered_write_iff (Option.isSome_of_eq_some hfind)
      split
      · rename_i hfull
        refine iff_of_true (stepKeeps_refl rfl) ?_
        intro row hrow hheld
        cases hfind.symm.trans hrow
        exact absurd hheld.symm hfull.1
      · rename_i hfree
        constructor
        · intro hkeeps _ _ _
          exact hcovered.1 (hkeeps.covered tier rfl)
        · intro hseat
          refine stepKeeps_write rfl ?_
          rintro _ ⟨⟩
          refine hcovered.2 ?_
          by_cases hheld : mine.assignedTierId = some tier
          · exact hseat mine hfind hheld
          · have := not_and.1 hfree (Ne.symm hheld)
            omega

theorem applyAddServerTierAtEnroll_keeps {tierId : TierId} :
    StepKeeps s (applyAddServerTierAtEnroll s serverId tierId).2
      ⟨.applyAddServerTierAtEnroll serverId tierId, (applyAddServerTierAtEnroll s serverId tierId).1⟩ := by
  rw [applyAddServerTierAtEnroll]
  cases hfind : s.find serverId with
  | none => exact stepKeeps_refl rfl
  | some row =>
    dsimp only
    split
    · exact stepKeeps_refl rfl
    · split
      · rename_i hfree
        refine stepKeeps_write rfl ?_
        rintro _ ⟨⟩
        exact (covered_write_iff (Option.isSome_of_eq_some hfind)).2 hfree
      · exact stepKeeps_write rfl nofun

theorem moveNamedServerTier_keeps_iff {fromTierId toTierId : TierId} (i : ℕ) (log : List (Event Op Ans)) :
    StepKeeps s (moveNamedServerTier s serverId fromTierId toTierId).2
      ⟨.moveNamedServerTier serverId fromTierId toTierId, (moveNamedServerTier s serverId fromTierId toTierId).1⟩ ↔
        FindsSeat i ⟨s, log⟩ (.moveNamedServerTier serverId fromTierId toTierId) := by
  rw [moveNamedServerTier]
  cases hfind : s.find serverId with
  | none =>
    refine iff_of_true (stepKeeps_refl rfl) ?_
    intro row hrow
    cases hfind.symm.trans hrow
  | some row =>
    have hcovered : Covered (s.write serverId (some toTierId) (some toTierId)) toTierId ↔
        1 ≤ s.freeFor toTierId serverId := covered_write_iff (Option.isSome_of_eq_some hfind)
    dsimp only
    split
    · rename_i hheld
      constructor
      · intro hkeeps _ _ _
        exact hcovered.1 (hkeeps.covered toTierId rfl)
      · intro hseat
        refine stepKeeps_write rfl ?_
        rintro _ ⟨⟩
        exact hcovered.2 (hseat row hfind hheld)
    · rename_i hmoved
      refine iff_of_true (stepKeeps_refl rfl) ?_
      intro found hfound hheld
      cases hfind.symm.trans hfound
      exact absurd hheld hmoved

/-- **A step keeps the seats exactly if it finds one.** -/
theorem exec_keeps_iff {e : Env} {o : Op} {ans : Ans o} (h : exec e o s = (ans, s')) (i : ℕ)
    (log : List (Event Op Ans)) : StepKeeps s s' ⟨o, ans⟩ ↔ FindsSeat i ⟨s, log⟩ o := by
  obtain rfl : (exec e o s).1 = ans := congrArg Prod.fst h
  obtain rfl : (exec e o s).2 = s' := congrArg Prod.snd h
  cases o with
  | assignServerTier serverId tierId => exact assignServerTier_keeps_iff i log
  | applyAddServerTierAtEnroll serverId tierId => exact iff_of_true applyAddServerTierAtEnroll_keeps trivial
  | loadView => exact iff_of_true (stepKeeps_refl rfl) trivial
  | getTiersByIds tierIds => exact iff_of_true (stepKeeps_refl rfl) trivial
  | applyImmediate lower higher =>
    refine iff_of_true ⟨nofun, fun other _ => ?_⟩ trivial
    rw [exec]
    dsimp only
    split
    · rfl
    · rfl
  | moveNamedServerTier serverId fromTierId toTierId => exact moveNamedServerTier_keeps_iff i log

end

/-! ## Runs -/

/-- What a choice must meet. -/
def ChoiceMeets (c : Config Op Ans Licenses) (choice : Choice Env Call) : Prop :=
  ∀ i e o next, choice = .step i e → c.threads[i]? = some (.op o next) → FindsSeat i c.world o

theorem choiceKeeps_iff (c : Config Op Ans Licenses) (choice : Choice Env Call) :
    ChoiceKeeps c.world (c.next machine body choice).world ↔ ChoiceMeets c choice := by
  cases choice with
  | call x => exact iff_of_true (.inl rfl) nofun
  | crash i => exact iff_of_true (.inl rfl) nofun
  | step i e =>
    rw [Config.next]
    split
    · rename_i o next hthread
      have hmeets : ChoiceMeets c (.step i e) ↔ FindsSeat i c.world o := by
        constructor
        · exact fun h => h i e o next rfl hthread
        · intro h i' e' o' next' heq hthread'
          cases heq
          cases hthread.symm.trans hthread'
          exact h
      rw [hmeets, ← exec_keeps_iff (Prod.mk.eta : ((exec e o c.world.state).1, _) = _).symm i c.world.log]
      constructor
      · rintro (hsame | ⟨ev, hlog, hkeeps⟩)
        · have hlog := congrArg World.log hsame
          simp [World.push, machine] at hlog
        · cases append_cancel_left hlog
          exact hkeeps
      · exact fun hkeeps => .inr ⟨_, rfl, hkeeps⟩
    · rename_i hdone
      refine iff_of_true (.inl rfl) ?_
      intro i' e' o' next' heq hthread
      cases heq
      exact absurd hthread (hdone o' next')

theorem keptFrom_cons {c : Config Op Ans Licenses} {choice : Choice Env Call} {choices : Choices} :
    KeptFrom c (choice :: choices) ↔
      ChoiceKeeps c.world (c.next machine body choice).world ∧ KeptFrom (c.next machine body choice) choices := by
  constructor
  · intro h
    refine ⟨h [] choice choices rfl, ?_⟩
    rintro now next later rfl
    exact h (choice :: now) next later rfl
  · rintro ⟨hfirst, hrest⟩ now next later heq
    cases now with
    | nil =>
      cases heq
      exact hfirst
    | cons first now =>
      cases heq
      exact hrest now next later rfl

theorem keptFrom_iff (c : Config Op Ans Licenses) (choices : Choices) :
    KeptFrom c choices ↔ Meets machine body FindsSeat c choices := by
  induction choices generalizing c with
  | nil =>
    refine iff_of_true ?_ trivial
    intro now choice later heq
    exact absurd heq.symm (append_ne_nil_of_right_ne_nil _ (cons_ne_nil _ _))
  | cons choice choices ih => rw [keptFrom_cons, choiceKeeps_iff, ih, Meets, ChoiceMeets]

/-- **The last seat is never taken twice, exactly if each write that does not count would have found
one.** -/
theorem neverTakenTwice_iff (s : Licenses) (choices : Choices) :
    NeverTakenTwice s choices ↔ Meets machine body FindsSeat (Config.init s) choices :=
  keptFrom_iff (Config.init s) choices

/-! ## A bought seat -/

/-- One seat at each of three tiers, two of them held, and a server without a tier. -/
def spareSeat : Licenses where
  servers := [⟨1, some 1, some 1, none⟩, ⟨2, some 2, some 2, none⟩, ⟨3, none, none, none⟩]
  nodup := by decide
  billing := ⟨some "active".toList, [⟨⟨1, 1⟩, 1⟩, ⟨⟨2, 2⟩, 1⟩, ⟨⟨3, 3⟩, 1⟩], none⟩
  heldKeys := []

def landed : Env := ⟨.landed, [], 0, []⟩

/-- The upgrade of the first server passes its gates and lands; the third server is assigned to the
tier; the first one moves. -/
def assignBeforeMove : Choices :=
  [.call (.upgradeTier ⟨1, 1⟩ ⟨2, 2⟩ 1), .step 0 landed, .step 0 landed, .step 0 landed,
    .call (.assignServerTier 3 (some 2)), .step 1 landed]

theorem covered_spareSeat (tierId : TierId) : Covered spareSeat tierId := by
  have hbought : tierQuantitiesFromState spareSeat.billing = [⟨1, 1, 1⟩, ⟨2, 2, 1⟩, ⟨3, 3, 1⟩] := by decide
  by_cases h₁ : tierId = 1
  · subst h₁
    decide
  · by_cases h₂ : tierId = 2
    · subst h₂
      decide
    · rw [Covered, hbought]
      by_cases h₃ : tierId = 3
      · subst h₃
        decide
      · simp [holders, reservedAt, boughtAt, spareSeat, Ne.symm h₁, Ne.symm h₂, Ne.symm h₃]

/-- The seat of one upgrade covers two servers. -/
theorem bought_seat_is_taken_twice : ¬∀ s : Licenses, (∀ tierId, Covered s tierId) → ∀ choices,
    NeverTakenTwice s choices := by
  intro h
  have hkept := h spareSeat covered_spareSeat (assignBeforeMove ++ [.step 0 landed]) assignBeforeMove (.step 0 landed)
    [] rfl
  rcases hkept with hsame | ⟨ev, hlog, hkeeps⟩
  · exact absurd (congrArg (fun w => w.log.length) hsame) (by decide)
  · have hmove : ev = ⟨0, .moveNamedServerTier 1 1 2, true⟩ := by
      cases append_cancel_left hlog
      rfl
    subst hmove
    exact absurd (hkeeps.covered 2 rfl) (by decide)

end TurboPanel.Tiers
