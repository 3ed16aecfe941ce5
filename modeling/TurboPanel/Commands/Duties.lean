import TurboPanel.Commands.Consumer

/-!
# What the calls on commands do

One contract covers every call (`body_obeys`). A command is given up only by a call that saw it
open, and did not record its success since. It is marked as sent only by a call that claimed it. A
claim is of a command that the call read, for the server of that command, and one that is not quick
comes right after a look under the lock that found the server free. A plan is settled only after the
command ended, and a sign of life writes back the plan that was read for it.
-/

namespace TurboPanel.CommandRecords

open Interleaving
open Interleaving.Prog (call foldEach)

/-! ## Events -/

/-- The operation read the row of an open command. -/
def Reads (record : CommandRow) : (o : Op) × Ans o → Prop
  | ⟨.getCommandRecord _, some row⟩ => row = record ∧ row.status.terminal = false
  | _ => False

/-- The operation showed a command open. -/
def SeesOpen (id : String) : (o : Op) × Ans o → Prop
  | ⟨.getCommandRecord _, some row⟩ => row.key.id = id ∧ row.status.terminal = false
  | ⟨.selectCandidates _ _, rows⟩ => ∃ row ∈ rows, row.key.id = id
  | _ => False

/-- The operation recorded that a command succeeded. -/
def RecordsSuccess (id : String) : (o : Op) × Ans o → Prop
  | ⟨.transitionCommand id' patch _, _⟩ => id' = id ∧ patch.status = .succeeded
  | ⟨.flipTimedOut id' _ _, .flipped _⟩ => id' = id
  | _ => False

/-- The operation ended a command. -/
def Ends (id : String) : (o : Op) × Ans o → Prop
  | ⟨.transitionCommand id' patch _, some _⟩ => id' = id ∧ patch.status.terminal = true
  | ⟨.cancelCommandWhen id' _ _, some _⟩ => id' = id
  | ⟨.flipTimedOut id' _ _, .flipped _⟩ => id' = id
  | _ => False

/-- The operation claimed a command, with what was read of it. -/
def Claims (input : ServerTurnInput) : (o : Op) × Ans o → Prop
  | ⟨.markClaimed input' _, true⟩ => input' = input
  | ⟨.commitClaim input' _, true⟩ => input' = input
  | _ => False

/-- The transaction began at this time. -/
def Begins (txNow : ℤ) : (o : Op) × Ans o → Prop
  | ⟨.beginTurn, now⟩ => now = txNow
  | _ => False

/-- The operation found the server free. -/
def SeesFree (input : ServerTurnInput) : (o : Op) × Ans o → Prop
  | ⟨.turnBlocked _ input', false⟩ => input' = input
  | _ => False

/-- The operation looked at the clock. -/
def Idle : (o : Op) × Ans o → Prop
  | ⟨.clock, _⟩ => True
  | _ => False

/-- The operation read the plan for a sign of life. -/
def ReadsAlive (row : CommandRow) : (o : Op) × Ans o → Prop
  | ⟨.readAlive _ _, some row'⟩ => row' = row
  | _ => False

def IsAliveRead : (o : Op) × Ans o → Prop
  | ⟨.readAlive _ _, _⟩ => True
  | _ => False

/-! ## The contract -/

/-- The call saw the command open, and did not record its success since. -/
def SawOpen (id : String) (h : Trace Op Ans) : Prop :=
  Since (SeesOpen id) (fun x => ¬RecordsSuccess id x) h

/-- The call read the command as open, and did not record its success since. -/
def Saw (record : CommandRow) (h : Trace Op Ans) : Prop :=
  Since (Reads record) (fun x => ¬RecordsSuccess record.key.id x) h

/-- There was such an operation. -/
def Once (p : (o : Op) × Ans o → Prop) (h : Trace Op Ans) : Prop := Since p (fun _ => True) h

/-- The call read the command that it claims. -/
def ReadFor (input : ServerTurnInput) (h : Trace Op Ans) : Prop :=
  ∃ record, Once (Reads record) h ∧ record.key.id = input.commandId ∧
    record.key.serverId = input.serverId ∧ record.key.type = input.type

/-- What a transition sets. -/
def PatchFor (id : String) (h : Trace Op Ans) (patch : CommandTransitionPatch) : Prop :=
  patch.dispatchStartedAt = none ∧ patch.sentAt = none ∧
    ((patch.status = .sent ∧ ∃ input, input.commandId = id ∧ Once (Claims input) h) ∨
      patch.status = .succeeded ∨ (patch.status.terminal = true ∧ SawOpen id h))

/-- What a call makes, after what it made before. -/
def Contract (h : Trace Op Ans) : Op → Prop
  | .transitionCommand id patch _ => PatchFor id h patch
  | .settleProgress id _ _ _ => Once (Ends id) h
  | .correctProgress id _ => Once (Ends id) h
  | .storeAlive id _ progress _ => ∃ row, row.key.id = id ∧
    Since (ReadsAlive row) (fun x => ¬IsAliveRead x) h ∧
      progress.map StoredCommandProgress.frame = row.progress.map StoredCommandProgress.frame
  | .markClaimed input _ => input.type.quick = true ∧ ReadFor input h
  | .turnBlocked txNow _ => Once (Begins txNow) h
  | .commitClaim input _ => ReadFor input h ∧ Since (SeesFree input) Idle h
  | .createCommand row => ∃ key expiresAt, row = newCommand key expiresAt
  | _ => True

/-- What the store answers. -/
def Answers : (o : Op) → Ans o → Prop
  | .getCommandRecord id, some row => row.key.id = id
  | .readAlive id _, some row => row.key.id = id
  | .selectCandidates _ _, rows => ∀ row ∈ rows, row.status.terminal = false
  | _, _ => True

variable {s : CommandStore} {row : CommandRow}

theorem row?_of_filter {id : String} {p : CommandRow → Bool}
    (h : (s.row? id).filter p = some row) : s.row? id = some row ∧ p row = true :=
  Option.filter_eq_some_iff.1 h

theorem mem_candidates {e : Env} {cutoff : ℤ} {limit : ℕ}
    (h : row ∈ (e.picked.filterMap (s.candidate? cutoff)).take limit) :
    row ∈ s.rows ∧ row.status.terminal = false := by
  obtain ⟨id, -, hid⟩ := List.mem_filterMap.1 (List.mem_of_mem_take h)
  obtain ⟨hrow, hopen⟩ := row?_of_filter hid
  rw [Bool.and_eq_true, Bool.not_eq_true'] at hopen
  exact ⟨(CommandStore.row?_eq_some.1 hrow).1, hopen.1⟩

theorem answers_of_exec {i : ℕ} {e : Env} {o : Op} {s' : CommandStore} {ans : Ans o}
    (h : exec i e o s = some (ans, s')) : Answers o ans := by
  obtain ⟨-, hans, -⟩ := exec_eq_some h
  cases o with
  | getCommandRecord id =>
    cases ans with
    | none => trivial
    | some row => exact (CommandStore.row?_eq_some.1 hans.symm).2
  | readAlive id serverId =>
    cases ans with
    | none => trivial
    | some row => exact (CommandStore.row?_eq_some.1 (row?_of_filter hans.symm).1).2
  | selectCandidates cutoff limit =>
    intro row hrow
    rw [hans] at hrow
    exact (mem_candidates hrow).2
  | _ => trivial

/-! ## Facts about the trace -/

variable {h : Trace Op Ans}

theorem Once.append {p : (o : Op) × Ans o → Prop} (hp : Once p h)
    (x : (o : Op) × Ans o) : Once p (h ++ [x]) :=
  since_concat.2 (.inr ⟨hp, trivial⟩)

theorem once_concat {p : (o : Op) × Ans o → Prop} (h : Trace Op Ans) {x : (o : Op) × Ans o} (hx : p x) :
    Once p (h ++ [x]) :=
  since_concat.2 (.inl hx)

variable {record : CommandRow}

theorem Saw.append (hsaw : Saw record h) {x : (o : Op) × Ans o}
    (hx : ¬RecordsSuccess record.key.id x) : Saw record (h ++ [x]) :=
  since_concat.2 (.inr ⟨hsaw, hx⟩)

theorem Saw.sawOpen (hsaw : Saw record h) : SawOpen record.key.id h := by
  refine hsaw.mono (fun x hx => ?_) fun _ hx => hx
  obtain ⟨o, ans⟩ := x
  cases o with
  | getCommandRecord id =>
    cases ans with
    | none => exact hx.elim
    | some row => exact ⟨congrArg (fun row => row.key.id) hx.1, hx.2⟩
  | _ => exact hx.elim

theorem Saw.readFor (hsaw : Saw record h)
    {envelope : CommandEnvelope} (hserver : record.key.serverId = envelope.serverId) :
    ReadFor (turnInput record envelope) h :=
  ⟨record, hsaw.mono (fun _ hx => hx) fun _ _ => trivial, rfl, hserver, rfl⟩

/-! ## The calls keep the contract -/

/-- The judgement of the contract. -/
abbrev Proc.Sat {α : Type} (p : Proc α) (Q : Trace Op Ans → α → Prop) (h : Trace Op Ans) : Prop :=
  Prog.Sat Answers Contract Q p h

/-- An operation that a call may make at any time, and that records no success. -/
def Free (o : Op) : Prop :=
  (∀ h, Contract h o) ∧ ∀ id ans, ¬RecordsSuccess id ⟨o, ans⟩

/-- A fact about the trace that only the record of a success can end. -/
def KeptByFree (K : Trace Op Ans → Prop) : Prop :=
  ∀ h (x : (o : Op) × Ans o), (∀ id, ¬RecordsSuccess id x) → K h → K (h ++ [x])

theorem keptByFree_saw (record : CommandRow) : KeptByFree (Saw record) :=
  fun _ _ hx hsaw => hsaw.append (hx record.key.id)

theorem KeptByFree.and {K K' : Trace Op Ans → Prop} (hK : KeptByFree K) (hK' : KeptByFree K') :
    KeptByFree fun h => K h ∧ K' h :=
  fun h x hx hh => ⟨hK h x hx hh.1, hK' h x hx hh.2⟩

theorem keptByFree_once (p : (o : Op) × Ans o → Prop) : KeptByFree (Once p) :=
  fun _ x _ hp => hp.append x

section

variable {K : Trace Op Ans → Prop} (hK : KeptByFree K) {h : Trace Op Ans}

include hK

variable {id : String}

theorem finalizeStoredCommandProgress_sat (status : CommandStatus)
    (progress : Option StoredCommandProgress) (at_ : Stamp) (hh : K h) (hends : Once (Ends id) h) :
    Proc.Sat (finalizeStoredCommandProgress id status progress at_) (fun h _ => K h) h := by
  unfold finalizeStoredCommandProgress
  split
  · exact hh
  · split
    · exact hh
    · rename_i stored _ finalized _
      refine ⟨hends, fun written _ => ?_⟩
      have hwritten := hK h ⟨.settleProgress id stored.updatedAt.text finalized at_.time, written⟩
        (fun _ => not_false) hh
      cases written with
      | true => exact hwritten
      | false => exact ⟨trivial, fun progress _ => hK _ ⟨.storedProgressOf id, progress⟩ (fun _ => not_false) hwritten⟩

theorem transitionCommand_sat {patch : CommandTransitionPatch}
    (hpatch : ∀ h, K h → PatchFor id h patch) (hsuccess : patch.status ≠ .succeeded) (hh : K h) :
    Proc.Sat (transitionCommand id patch) (fun h _ => K h) h := by
  have hclock : ∀ now : Stamp, K (h ++ [⟨.clock, now⟩]) := fun now => hK h ⟨.clock, now⟩ (fun _ => not_false) hh
  refine ⟨trivial, fun now _ => ⟨hpatch _ (hclock now), fun row? _ => ?_⟩⟩
  have hwritten := hK _ ⟨.transitionCommand id patch now.time, row?⟩ (fun _ hrecords => hsuccess hrecords.2)
    (hclock now)
  cases row? with
  | none => exact hwritten
  | some row =>
    simp only [Prog.bind]
    split
    · rename_i hterminal
      exact (finalizeStoredCommandProgress_sat hK patch.status row.progress now hwritten
        (once_concat _ ⟨rfl, hterminal⟩)).bind fun _ _ hh => hh
    · exact hwritten

theorem giveUp_sat {status : CommandStatus} (hsaw : ∀ h, K h → SawOpen id h)
    (hterminal : status.terminal = true) (hsuccess : status ≠ .succeeded) (hh : K h) :
    Proc.Sat (giveUp id status) (fun h _ => K h) h := by
  refine (transitionCommand_sat hK (fun h hh => ?_) hsuccess hh).bind fun _ _ hh => hh
  exact ⟨rfl, rfl, .inr (.inr ⟨hterminal, hsaw h hh⟩)⟩

theorem KeptByFree.sat {α : Type} {p : Proc α} (hp : p.Only Free fun _ => True) (hh : K h) :
    Proc.Sat p (fun h _ => K h) h :=
  (hp.sat (K := K) (fun h _ hfree _ => hfree.1 h) (fun h o ans hfree hh => hK h ⟨o, ans⟩ (hfree.2 · ans) hh)
    hh).mono fun _ _ hh => hh.1

end

theorem recordSuccess_sat (id : String) {patch : CommandTransitionPatch}
    (hpatch : patch.dispatchStartedAt = none ∧ patch.sentAt = none ∧ patch.status = .succeeded)
    (h : Trace Op Ans) : Proc.Sat (transitionCommand id patch) (fun _ _ => True) h := by
  refine ⟨trivial, fun now _ => ⟨⟨hpatch.1, hpatch.2.1, .inr (.inl hpatch.2.2)⟩, fun row? _ => ?_⟩⟩
  cases row? with
  | none => trivial
  | some row =>
    have hterminal : patch.status.terminal = true := by rw [hpatch.2.2]; rfl
    have hkept : KeptByFree fun _ => True := fun _ _ _ _ => trivial
    simp only [Prog.bind, hterminal, if_true]
    exact (finalizeStoredCommandProgress_sat hkept patch.status row.progress now trivial
      (once_concat _ (by exact ⟨rfl, hterminal⟩))).bind fun _ _ hh => hh

theorem cancelCommandWhen_sat (id : String) (when_ : CancelWhen) (h : Trace Op Ans) :
    Proc.Sat (cancelCommandWhen id when_) (fun _ _ => True) h := by
  have hkept : KeptByFree fun _ => True := fun _ _ _ _ => trivial
  refine ⟨trivial, fun now _ => ⟨trivial, fun row? _ => ?_⟩⟩
  cases row? with
  | none => trivial
  | some row =>
    exact (finalizeStoredCommandProgress_sat hkept .cancelled row.progress now trivial
      (once_concat _ (by exact rfl))).bind fun _ _ hh => hh

/-! ## The turn of a server -/

section

variable {record : CommandRow} {envelope : CommandEnvelope} {h : Trace Op Ans}

theorem claimUnderLock_sat (hsaw : Saw record h) (hserver : record.key.serverId = envelope.serverId) :
    Proc.Sat (claimUnderLock (turnInput record envelope))
      (fun h turn => Saw record h ∧ (turn = .claimed → Once (Claims (turnInput record envelope)) h)) h := by
  refine ⟨trivial, fun txNow _ => ⟨trivial, fun locked _ => ?_⟩⟩
  have hlocked : Saw record (h ++ [⟨.beginTurn, txNow⟩] ++ [⟨.lockServer envelope.serverId, locked⟩]) :=
    (hsaw.append (by exact not_false)).append (by exact not_false)
  cases locked with
  | false => exact ⟨hlocked, fun hturn => (nomatch hturn)⟩
  | true =>
    refine ⟨(once_concat h (by exact rfl)).append _, fun blocked _ => ?_⟩
    have hblocked := hlocked.append (x := ⟨.turnBlocked txNow (turnInput record envelope), blocked⟩)
        (by exact not_false)
    cases blocked with
    | true => exact ⟨trivial, fun _ _ => ⟨hblocked.append (by exact not_false), fun hturn => (nomatch hturn)⟩⟩
    | false =>
      refine ⟨trivial, fun now _ => ⟨⟨(hblocked.append (by exact not_false)).readFor hserver, ?_⟩, fun claimed _ => ?_⟩⟩
      · rw [since_concat, since_concat]
        exact .inr ⟨.inl rfl, trivial⟩
      · refine ⟨(hblocked.append (by exact not_false)).append (by exact not_false), fun hturn => ?_⟩
        cases claimed with
        | true => exact once_concat _ (by exact rfl)
        | false => cases hturn

theorem claimServerTurn_sat (hsaw : Saw record h) (hserver : record.key.serverId = envelope.serverId) :
    Proc.Sat (claimServerTurn (turnInput record envelope))
      (fun h turn => Saw record h ∧ (turn = .claimed → Once (Claims (turnInput record envelope)) h)) h := by
  unfold claimServerTurn
  split
  · rename_i hquick
    refine ⟨trivial, fun now _ => ⟨⟨hquick, (hsaw.append (by exact not_false)).readFor hserver⟩, fun claimed _ => ?_⟩⟩
    refine ⟨(hsaw.append (by exact not_false)).append (by exact not_false), fun hturn => ?_⟩
    cases claimed with
    | true => exact once_concat _ (by exact rfl)
    | false => cases hturn
  · refine ⟨trivial, fun now _ => ⟨trivial, fun blocked _ => ?_⟩⟩
    have hblocked : Saw record (h ++ [⟨.clock, now⟩] ++
        [⟨.blockedAndStamped (turnInput record envelope) now.time, blocked⟩]) :=
      (hsaw.append (by exact not_false)).append (by exact not_false)
    cases blocked with
    | true => exact ⟨hblocked, fun hturn => (nomatch hturn)⟩
    | false =>
      refine (claimUnderLock_sat hblocked hserver).bind fun h turn hh => ?_
      cases turn with
      | busy =>
        refine ⟨trivial, fun now _ => ⟨trivial, fun _ _ => ⟨?_, fun hturn => (nomatch hturn)⟩⟩⟩
        exact (hh.1.append (by exact not_false)).append (by exact not_false)
      | claimed => exact hh
      | finished => exact hh

end

/-! ## The consumer -/

section

variable {record : CommandRow} {h : Trace Op Ans}

theorem Saw.giveUp_sat {status : CommandStatus} (hsaw : Saw record h) (hterminal : status.terminal = true)
    (hsuccess : status ≠ .succeeded) :
    Proc.Sat (giveUp record.key.id status) (fun h _ => Saw record h) h :=
  CommandRecords.giveUp_sat (keptByFree_saw record) (fun _ hsaw => hsaw.sawOpen) hterminal hsuccess hsaw

theorem sat_any {α : Type} {p : Proc α} {Q : Trace Op Ans → α → Prop} (hp : Proc.Sat p Q h) :
    Proc.Sat p (fun _ _ => True) h :=
  hp.mono fun _ _ _ => trivial

theorem loadOpenCommand_sat (envelope : CommandEnvelope) :
    Proc.Sat (loadOpenCommand envelope)
      (fun h open? => ∀ record ∈ open?, Saw record h ∧ record.key.serverId = envelope.serverId) h := by
  refine ⟨trivial, fun record? _ => ?_⟩
  cases record? with
  | none => exact fun _ hrecord => (nomatch hrecord)
  | some record =>
    simp only [Prog.bind]
    split
    · exact fun _ hrecord => (nomatch hrecord)
    · rename_i hopen
      have hsaw : Saw record (h ++ [⟨.getCommandRecord envelope.commandId, some record⟩]) :=
        since_concat.2 (.inl ⟨rfl, Bool.eq_false_iff.2 hopen⟩)
      refine ⟨trivial, fun now _ => ?_⟩
      have hclock := hsaw.append (x := ⟨.clock, now⟩) (by exact not_false)
      have hgiveUp : ∀ {h} (gone : Bool), Saw record h → Proc.Sat (do
          giveUp record.key.id (if gone then .failed else .timedOut)
          return none) (fun h open? => ∀ record ∈ open?, Saw record h ∧
            record.key.serverId = envelope.serverId) h := by
        intro h gone hsaw
        have hstatus : (if gone then CommandStatus.failed else .timedOut).terminal = true ∧
            (if gone then CommandStatus.failed else .timedOut) ≠ .succeeded := by
          cases gone <;> decide
        exact (hsaw.giveUp_sat hstatus.1 hstatus.2).bind fun _ _ _ _ hrecord => (nomatch hrecord)
      simp only [Prog.bind]
      split
      · split
        · refine ⟨trivial, fun gone _ => ?_⟩
          exact hgiveUp gone (hclock.append (by exact not_false))
        · exact hgiveUp false hclock
      · split
        · exact fun _ hrecord => (nomatch hrecord)
        · rename_i hserver
          intro record' hrecord'
          cases hrecord'
          exact ⟨hclock, not_not.1 hserver⟩

theorem attachDispatchPayload_sat {K : Trace Op Ans → Prop} (hK : KeptByFree K)
    (hsaw : ∀ h, K h → Saw record h) (hh : K h) :
    Proc.Sat (attachDispatchPayload record) (fun h _ => K h) h := by
  refine ⟨trivial, fun found _ => ?_⟩
  have hfound := hK h ⟨.hasDispatchPayload record.key.id, found⟩ (fun _ => not_false) hh
  cases found with
  | true => exact hfound
  | false =>
    exact Prog.Sat.bind (CommandRecords.giveUp_sat hK (fun h hh => (hsaw h hh).sawOpen) rfl (by decide)
      hfound) fun _ _ hh => hh

theorem applyPendingOutcome_sat (hsaw : Saw record h) (pending : PendingRequest) :
    Proc.Sat (applyPendingOutcome record pending) (fun _ _ => True) h := by
  have hsucceeds : ∀ {h}, Proc.Sat (do
      let _ ← transitionCommand record.key.id
        { status := .succeeded
          ackedAt := pending.ackAt <|> pending.finishedAt
          startedAt := pending.ackAt <|> pending.finishedAt
          finishedAt := pending.finishedAt }
      return ()) (fun _ _ => True) h :=
    (recordSuccess_sat record.key.id ⟨rfl, rfl, rfl⟩ _).bind fun _ _ _ => trivial
  have hgiveUp : ∀ {h} {status : CommandStatus}, Saw record h → status.terminal = true →
      status ≠ .succeeded → Proc.Sat (giveUp record.key.id status) (fun _ _ => True) h :=
    fun hsaw hterminal hsuccess => sat_any (hsaw.giveUp_sat hterminal hsuccess)
  unfold applyPendingOutcome
  split
  · exact hsucceeds
  · split
    · exact hsucceeds
    · split
      · exact hgiveUp hsaw rfl (by decide)
      · exact hgiveUp hsaw rfl (by decide)
  · split
    · exact ⟨trivial, fun _ _ => hgiveUp (hsaw.append (by exact not_false)) rfl (by decide)⟩
    · exact hgiveUp hsaw rfl (by decide)
  · exact hgiveUp hsaw rfl (by decide)

theorem awaitCommandOutcome_sat (hsaw : Saw record h) :
    Proc.Sat (awaitCommandOutcome record) (fun _ _ => True) h := by
  refine ⟨trivial, fun result _ => ?_⟩
  have hresult := hsaw.append (x := ⟨.awaitOutcome record.key.id, result⟩) (by exact not_false)
  cases result with
  | pending pending => exact applyPendingOutcome_sat hresult pending
  | handedOff => trivial
  | settled => trivial
  | timedOut => exact sat_any (hresult.giveUp_sat rfl (by decide))

theorem resumeIfSent_sat (hsaw : Saw record h) :
    Proc.Sat (resumeIfSent record) (fun h result => result ≠ .done → Saw record h) h := by
  unfold resumeIfSent
  split
  · refine (attachDispatchPayload_sat (keptByFree_saw record) (fun _ hsaw => hsaw) hsaw).bind
      fun h found hsaw => ?_
    cases found with
    | false => exact fun hdone => absurd rfl hdone
    | true =>
      refine ⟨trivial, fun request _ => ?_⟩
      have hrequest := hsaw.append (x := ⟨.getRequest record.key.id, request⟩) (by exact not_false)
      simp only [Prog.bind]
      split
      · split
        · exact Prog.Sat.bind (hrequest.giveUp_sat rfl (by decide)) fun _ _ _ hdone => absurd rfl hdone
        · exact fun _ => hrequest
      · exact Prog.Sat.bind (awaitCommandOutcome_sat hrequest) fun _ _ _ hdone => absurd rfl hdone
  · exact fun _ => hsaw

theorem failSupersededReseed_sat {K : Trace Op Ans → Prop} (hK : KeptByFree K)
    (hsaw : ∀ h, K h → Saw record h) (hh : K h) :
    Proc.Sat (failSupersededReseed record) (fun h _ => K h) h := by
  unfold failSupersededReseed
  split
  · refine ⟨trivial, fun superseded _ => ?_⟩
    have hasked := hK h ⟨.reseedSuperseded record.key.id, superseded⟩ (fun _ => not_false) hh
    cases superseded with
    | false => exact hasked
    | true =>
      exact Prog.Sat.bind (CommandRecords.giveUp_sat hK (fun h hh => (hsaw h hh).sawOpen) rfl (by decide)
        hasked) fun _ _ hh => hh
  · exact hh

theorem enqueueAndAwaitOutcome_sat {input : ServerTurnInput} (hid : input.commandId = record.key.id)
    (hsaw : Saw record h) (hclaims : Once (Claims input) h) :
    Proc.Sat (enqueueAndAwaitOutcome record) (fun _ _ => True) h := by
  have hK : KeptByFree fun h => Saw record h ∧ Once (Claims input) h :=
    (keptByFree_saw record).and (keptByFree_once _)
  refine ⟨trivial, fun online _ => ?_⟩
  have honline := hK h ⟨.serverOnline record.key.serverId, online⟩ (fun _ => not_false) ⟨hsaw, hclaims⟩
  cases online with
  | false => exact sat_any (honline.1.giveUp_sat rfl (by decide))
  | true =>
    refine ⟨trivial, fun _ _ => ?_⟩
    refine Prog.Sat.bind (transitionCommand_sat hK (fun h hh => ?_) (by decide)
      (hK _ ⟨.enqueueRequest record.key.id, ()⟩ (fun _ => not_false) honline))
      fun _ _ hh => awaitCommandOutcome_sat hh.1
    exact ⟨rfl, rfl, .inl ⟨rfl, input, hid, hh.2⟩⟩

theorem dispatchCommand_sat {input : ServerTurnInput} (hid : input.commandId = record.key.id)
    (hsaw : Saw record h) (hclaims : Once (Claims input) h) (loaded : Bool) :
    Proc.Sat (dispatchCommand record loaded) (fun _ _ => True) h := by
  have hK : KeptByFree fun h => Saw record h ∧ Once (Claims input) h :=
    (keptByFree_saw record).and (keptByFree_once _)
  refine (failSupersededReseed_sat hK (fun _ hh => hh.1) ⟨hsaw, hclaims⟩).bind fun h refused hh => ?_
  cases refused with
  | true => trivial
  | false =>
    cases loaded with
    | true => exact enqueueAndAwaitOutcome_sat hid hh.1 hh.2
    | false =>
      refine Prog.Sat.bind (attachDispatchPayload_sat hK (fun _ hh => hh.1) hh) fun h found hh => ?_
      cases found with
      | true => exact enqueueAndAwaitOutcome_sat hid hh.1 hh.2
      | false => trivial

end

theorem processCommandEnvelope_sat (envelope : CommandEnvelope) (h : Trace Op Ans) :
    Proc.Sat (processCommandEnvelope envelope) (fun _ _ => True) h := by
  refine (loadOpenCommand_sat envelope).bind fun h open? hopen => ?_
  cases open? with
  | none => trivial
  | some record =>
    obtain ⟨hsaw, hserver⟩ := hopen record rfl
    refine (resumeIfSent_sat hsaw).bind fun h resumed hresumed => ?_
    by_cases hdone : resumed = .done
    · rw [if_pos hdone]
      trivial
    · rw [if_neg hdone]
      refine (claimServerTurn_sat (hresumed hdone) hserver).bind fun h turn hturn => ?_
      by_cases hclaimed : turn = .claimed
      · rw [if_pos hclaimed]
        exact dispatchCommand_sat rfl hturn.1 (hturn.2 hclaimed) _
      · rw [if_neg hclaimed]
        trivial

theorem failCommandAfterRetries_sat (envelope : CommandEnvelope) (h : Trace Op Ans) :
    Proc.Sat (failCommandAfterRetries envelope) (fun _ _ => True) h := by
  refine (loadOpenCommand_sat envelope).bind fun h open? hopen => ?_
  cases open? with
  | none => trivial
  | some record =>
    refine (attachDispatchPayload_sat (keptByFree_saw record) (fun _ hsaw => hsaw)
      (hopen record rfl).1).bind fun h found hsaw => ?_
    cases found with
    | false => trivial
    | true =>
      simp only [if_true]
      split
      · trivial
      · refine ⟨trivial, fun taken _ => ?_⟩
        cases taken with
        | true => exact sat_any (Saw.giveUp_sat (hsaw.append (by exact not_false)) rfl (by decide))
        | false => trivial

/-! ## The other calls -/

theorem sweepCandidate_sat {K : Trace Op Ans → Prop} (hK : KeptByFree K) (nowMs graceMs : ℤ)
    (hsaw : ∀ h, K h → SawOpen row.key.id h) (hh : K h) :
    Proc.Sat (sweepCandidate nowMs graceMs row) (fun h _ => K h) h := by
  have hlook : ∀ {h} (recovery : Bool) (runCapMs : ℤ), K h → Proc.Sat
      (if isStaleCommand row recovery runCapMs nowMs graceMs then giveUp row.key.id .timedOut
        else return ()) (fun h _ => K h) h := by
    intro h recovery runCapMs hh
    split
    · exact giveUp_sat hK hsaw rfl (by decide) hh
    · exact hh
  unfold sweepCandidate
  by_cases hdeploy : row.key.type = .environmentDeploy
  · simp only [hdeploy, if_true]
    refine ⟨trivial, fun recovery _ => ⟨trivial, fun runCapMs _ => hlook recovery runCapMs ?_⟩⟩
    exact hK _ ⟨.loadDeployRunCapMs row.key.serverId, runCapMs⟩ (fun _ => not_false)
      (hK h ⟨.serverHasCommandRecovery row.key.serverId, recovery⟩ (fun _ => not_false) hh)
  · simp only [hdeploy, if_false]
    exact hlook false 0 hh

theorem sweepStaleCommands_sat (limit : ℕ) (nowMs graceMs : ℤ) (h : Trace Op Ans) :
    Proc.Sat (sweepStaleCommands limit nowMs graceMs) (fun _ _ => True) h := by
  refine ⟨trivial, fun candidates _ => ?_⟩
  let K := fun h : Trace Op Ans => ∀ row ∈ candidates, SawOpen row.key.id h
  have hK : KeptByFree K := fun h x hx hh row hrow =>
    since_concat.2 (.inr ⟨hh row hrow, hx row.key.id⟩)
  have hsaw : K (h ++ [⟨.selectCandidates (nowMs - graceMs) (min (max limit 1) 200), candidates⟩]) :=
    fun row hrow => since_concat.2 (.inl ⟨row, hrow, rfl⟩)
  refine sat_any (Prog.sat_foldEach (I := fun h _ => K h) hsaw fun h _ row hrow hh => ?_)
  exact sweepCandidate_sat hK nowMs graceMs (fun h hh => hh row hrow) hh

theorem correctTimedOutDeploy_sat (id : String) (outcome : LateOutcome) (h : Trace Op Ans) :
    Proc.Sat (correctTimedOutDeploy id outcome) (fun _ _ => True) h := by
  refine ⟨trivial, fun now _ => ⟨trivial, fun full _ => ?_⟩⟩
  cases full with
  | flipped progress => exact ⟨once_concat _ (by exact rfl), fun _ _ => trivial⟩
  | notTimedOut => trivial
  | refused =>
    refine ⟨trivial, fun bare _ => ?_⟩
    cases bare with
    | flipped progress => exact ⟨once_concat _ (by exact rfl), fun _ _ => trivial⟩
    | notTimedOut => trivial
    | refused => trivial

theorem keepLateStepNotes_only (serverId id : String) (progress : CommandProgress) (receivedAt : Stamp)
    (attempts : ℕ) : (keepLateStepNotes serverId id progress receivedAt attempts).Only Free
      (fun _ => True) := by
  have hread : ∀ {o : Op}, (∀ h, Contract h o) → (∀ id ans, ¬RecordsSuccess id ⟨o, ans⟩) → Free o :=
    fun h h' => ⟨h, h'⟩
  induction attempts with
  | zero => trivial
  | succ attempts ih =>
    refine ⟨hread (fun _ => trivial) (fun _ _ => not_false), fun row? => ?_⟩
    cases row? with
    | none => trivial
    | some row =>
      simp only [Prog.bind]
      split
      · split
        · trivial
        · split
          · trivial
          · refine ⟨hread (fun _ => trivial) (fun _ _ => not_false), fun written => ?_⟩
            cases written with
            | true => trivial
            | false => exact ih
      · trivial

theorem recordCommandProgress_only (serverId id : String) (frame : CommandProgress) :
    (recordCommandProgress serverId id frame).Only Free (fun _ => True) := by
  have hstore : ∀ (progress : CommandProgress) (receivedAt : Stamp),
      (do
        let stored ← ask (.storeFrame id serverId progress receivedAt.time)
        if stored then return ()
        else keepLateStepNotes serverId id progress receivedAt lateNoteAttempts : Proc Unit).Only Free
          (fun _ => True) := by
    intro progress receivedAt
    refine ⟨⟨fun _ => trivial, fun _ _ => not_false⟩, fun stored => ?_⟩
    cases stored with
    | true => trivial
    | false => exact keepLateStepNotes_only serverId id progress receivedAt lateNoteAttempts
  refine ⟨⟨fun _ => trivial, fun _ _ => not_false⟩, fun receivedAt => ?_⟩
  simp only [Prog.bind]
  split
  · exact ⟨⟨fun _ => trivial, fun _ _ => not_false⟩, fun previous => hstore _ receivedAt⟩
  · exact hstore _ receivedAt

theorem noteCommandAlive_sat (serverId id : String) (h : Trace Op Ans) :
    Proc.Sat (noteCommandAlive serverId id) (fun _ _ => True) h := by
  refine ⟨trivial, fun receivedAt _ => ⟨trivial, fun row? hanswer => ?_⟩⟩
  cases row? with
  | none => trivial
  | some row =>
    refine ⟨⟨row, hanswer, since_concat.2 (.inl rfl), ?_⟩, fun _ _ => trivial⟩
    cases row.progress with
    | none => rfl
    | some stored => exact congrArg some (aliveProgress_frame stored _ _)

/-- **Every call keeps the contract.** -/
theorem body_obeys (x : Call) : Proc.Sat (body x) (fun _ _ => True) [] := by
  have hkept : KeptByFree fun _ => True := fun _ _ _ _ => trivial
  cases x with
  | create key expiresAt => exact ⟨⟨key, expiresAt, rfl⟩, fun _ _ => trivial⟩
  | deliver envelope => exact processCommandEnvelope_sat envelope []
  | giveUp envelope => exact failCommandAfterRetries_sat envelope []
  | sweep limit nowMs graceMs => exact sweepStaleCommands_sat limit nowMs graceMs []
  | cancelQueued id => exact Prog.Sat.bind (cancelCommandWhen_sat id .queued []) fun _ _ _ => trivial
  | cancelNonTerminal id =>
    exact Prog.Sat.bind (cancelCommandWhen_sat id .nonTerminal []) fun _ _ _ => trivial
  | settle serverId id ok outcome =>
    refine ⟨trivial, fun record? _ => ?_⟩
    cases record? with
    | none => trivial
    | some record =>
      simp only [Prog.bind]
      split
      · exact correctTimedOutDeploy_sat id outcome _
      · trivial
  | progress serverId id frame => exact hkept.sat (recordCommandProgress_only serverId id frame) trivial
  | alive serverId id => exact noteCommandAlive_sat serverId id []
  | contactLost id lastHeardAt => exact ⟨trivial, fun _ _ => trivial⟩

end TurboPanel.CommandRecords
