import Mathlib.Tactic

/-!
# Live sessions

The model of the leases in `src/daemon/metrics/query/live-session.ts`, for one server: the marker
with the leases of the viewers and the buffered sample are entries of a cache, and each call reads
the marker and writes it back. The operations of the cache are atomic, and those of different calls
come in any order. An entry is there until its time to live is over, and may be longer.
-/

namespace TurboPanel.LiveSession

open List

/-! ## Leases -/

structure LiveSessionLease where
  id : String
  expiresAtMs : ℚ
  deriving DecidableEq

/-- The routes refuse an empty id. -/
abbrev LeaseId := { id : String // id ≠ "" }

/-- The leases of a marker that have not expired. -/
def parseLeases (marker : Option (List LiveSessionLease)) (nowMs : ℚ) : List LiveSessionLease :=
  (marker.getD []).filter fun lease => decide (lease.id ≠ "") && decide (nowMs < lease.expiresAtMs)

/-- `Math.max` of the times at which the leases expire. -/
def latest (leases : List LiveSessionLease) : ℚ :=
  match leases with
  | [] => 0
  | lease :: leases => leases.foldl (fun latest lease => max latest lease.expiresAtMs) lease.expiresAtMs

def ttlSecondsFor (leases : List LiveSessionLease) (nowMs : ℚ) : ℚ :=
  max 1 ⌈(latest leases - nowMs) / 1000⌉

/-- The calls of the viewers. -/
inductive Call
  | markServerLiveSessionActive (leaseId : LeaseId) (ttlSeconds : ℚ)
  | clearServerLiveSession (leaseId : LeaseId)
  deriving DecidableEq

def Call.leaseId : Call → LeaseId
  | markServerLiveSessionActive leaseId _ => leaseId
  | clearServerLiveSession leaseId => leaseId

/-- The lease that a call adds. -/
def Call.lease (nowMs : ℚ) : Call → List LiveSessionLease
  | markServerLiveSessionActive leaseId ttlSeconds => [⟨leaseId, nowMs + max 0 ttlSeconds * 1000⟩]
  | clearServerLiveSession _ => []

/-- The leases that a call writes back, from those that it has read. -/
def Call.leases (call : Call) (nowMs : ℚ) (read : List LiveSessionLease) : List LiveSessionLease :=
  (read.filter fun lease => lease.id ≠ call.leaseId.1) ++ call.lease nowMs

/-! ## The cache and the calls -/

structure Entry (α : Type) where
  value : α
  /-- Until when the entry is there. -/
  untilMs : ℚ
  deriving DecidableEq

/-- An entry past its time to live may be forgotten. -/
def Entry.get? {α : Type} (entry : Option (Entry α)) (nowMs : ℚ) (forgotten : Bool) : Option α :=
  entry.bind fun entry => if forgotten = true ∧ entry.untilMs ≤ nowMs then none else some entry.value

def metricsLiveIntervalSeconds : ℚ := 10
def metricsLive10sCacheTtlSeconds : ℚ := 5
def liveSampleCacheTtlSeconds : ℚ := metricsLiveIntervalSeconds + metricsLive10sCacheTtlSeconds

/-- How far a call is. -/
inductive Stage
  /-- It has taken the time. -/
  | reading (nowMs : ℚ)
  /-- It has read these leases. -/
  | writing (nowMs : ℚ) (read : List LiveSessionLease)
  /-- It has deleted the marker. -/
  | deleting
  | finished
  deriving DecidableEq

structure Running where
  call : Call
  stage : Stage
  deriving DecidableEq

/-- The cache of a server and the calls, with what the viewers were promised: the leases that a
finished call has marked and no call has cleared. -/
structure World (Sample : Type) where
  nowMs : ℚ
  session : Option (Entry (List LiveSessionLease))
  sample : Option (Entry Sample)
  calls : List Running
  promised : List LiveSessionLease
  deriving DecidableEq

inductive Event (Sample : Type)
  | tick (ms : ℚ)
  | begin (call : Call)
  | get (i : ℕ) (forgotten : Bool)
  | write (i : ℕ)
  | deleteSample (i : ℕ)
  | cacheLiveSample (sample : Sample)
  deriving DecidableEq

variable {Sample : Type}

def World.empty : World Sample := { nowMs := 0, session := none, sample := none, calls := [], promised := [] }

/-- A call goes on. -/
def World.goOn (w : World Sample) (i : ℕ) (call : Call) (stage : Stage) : World Sample :=
  { w with calls := w.calls.set i ⟨call, stage⟩ }

/-- The write of `writeLeases`: the marker with the leases, or the first of its two deletes. -/
def World.writeLeases (w : World Sample) (leases : List LiveSessionLease) (nowMs : ℚ) : World Sample :=
  if leases = [] then { w with session := none }
  else { w with session := some ⟨leases, w.nowMs + ttlSecondsFor leases nowMs * 1000⟩ }

/-- What is promised after a call has written. -/
def World.promise (w : World Sample) (call : Call) (nowMs : ℚ) : World Sample :=
  { w with promised := (w.promised.filter fun lease => lease.id ≠ call.leaseId.1) ++ call.lease nowMs }

def step (w : World Sample) : Event Sample → Option (World Sample)
  | .tick ms => if 0 ≤ ms then some { w with nowMs := w.nowMs + ms } else none
  | .begin call => some { w with calls := w.calls ++ [⟨call, .reading w.nowMs⟩] }
  | .get i forgotten =>
    match w.calls[i]? with
    | some ⟨call, .reading nowMs⟩ =>
      some (w.goOn i call (.writing nowMs (parseLeases (Entry.get? w.session w.nowMs forgotten) nowMs)))
    | _ => none
  | .write i =>
    match w.calls[i]? with
    | some ⟨call, .writing nowMs read⟩ =>
      let leases := call.leases nowMs read
      some (((w.goOn i call (if leases = [] then .deleting else .finished)).writeLeases leases
          nowMs).promise call nowMs)
    | _ => none
  | .deleteSample i =>
    match w.calls[i]? with
    | some ⟨call, .deleting⟩ => some { w.goOn i call .finished with sample := none }
    | _ => none
  | .cacheLiveSample sample =>
    some { w with sample := some ⟨sample, w.nowMs + liveSampleCacheTtlSeconds * 1000⟩ }

def run (w : World Sample) (events : List (Event Sample)) : Option (World Sample) := events.foldlM step w

/-- The answer to a call that took the time at `nowMs`. -/
def isServerLiveSessionActive (w : World Sample) (nowMs : ℚ) (forgotten : Bool) : Bool :=
  !(parseLeases (Entry.get? w.session w.nowMs forgotten) nowMs).isEmpty

/-! ## Promises -/

/-- The call whose event deletes the marker or the sample. -/
def deletes (w : World Sample) : Event Sample → Option Call
  | .write i =>
    match w.calls[i]? with
    | some ⟨call, .writing nowMs read⟩ => if call.leases nowMs read = [] then some call else none
    | _ => none
  | .deleteSample i =>
    match w.calls[i]? with
    | some ⟨call, .deleting⟩ => some call
    | _ => none
  | _ => none

/-- A promised lease that has not expired. -/
def World.Live (w : World Sample) (lease : LiveSessionLease) : Prop :=
  lease ∈ w.promised ∧ w.nowMs < lease.expiresAtMs

/-- The marker holds no unexpired lease of another viewer that the call has not read. -/
def HasRead (w : World Sample) (call : Call) (read : List LiveSessionLease) : Prop :=
  ∀ entry, w.session = some entry → ∀ lease ∈ entry.value, w.nowMs < lease.expiresAtMs →
    lease.id ≠ call.leaseId.1 → lease ∈ read

instance (w : World Sample) (call : Call) (read : List LiveSessionLease) : Decidable (HasRead w call read) :=
  inferInstanceAs (Decidable (∀ entry ∈ w.session, ∀ lease ∈ entry.value, w.nowMs < lease.expiresAtMs →
    lease.id ≠ call.leaseId.1 → lease ∈ read))

/-- What a call that is to write has read. -/
def Stage.read? : Stage → Option (List LiveSessionLease)
  | writing _ read => some read
  | _ => none

/-- A call that writes has read the leases of the other viewers, and one that deletes the sample
leaves none in the marker. -/
def UpToDate (w : World Sample) : Event Sample → Prop
  | .write i => ∀ running ∈ w.calls[i]?, ∀ read ∈ running.stage.read?, HasRead w running.call read
  | .deleteSample i => ∀ running ∈ w.calls[i]?, running.stage = .deleting → HasRead w running.call []
  | _ => True

instance (w : World Sample) : (event : Event Sample) → Decidable (UpToDate w event)
  | .write i => inferInstanceAs (Decidable (∀ running ∈ w.calls[i]?, ∀ read ∈ running.stage.read?,
      HasRead w running.call read))
  | .deleteSample i => inferInstanceAs (Decidable (∀ running ∈ w.calls[i]?, running.stage = .deleting →
      HasRead w running.call []))
  | .tick _ | .begin _ | .get _ _ | .cacheLiveSample _ => inferInstanceAs (Decidable True)

/-! ## The time to live -/

variable {lease : LiveSessionLease} {w : World Sample} {call : Call} {leases : List LiveSessionLease}
  {events : List (Event Sample)}

theorem le_latest (h : lease ∈ leases) :
    lease.expiresAtMs ≤ latest leases := by
  have hfold : ∀ (leases : List LiveSessionLease) (start : ℚ),
      start ≤ leases.foldl (fun latest lease => max latest lease.expiresAtMs) start ∧
        ∀ lease ∈ leases, lease.expiresAtMs ≤ leases.foldl (fun latest lease => max latest
            lease.expiresAtMs) start := by
    intro leases
    induction leases with
    | nil => exact fun start => ⟨le_rfl, fun _ h => nomatch h⟩
    | cons first leases ih =>
      intro start
      obtain ⟨hstart, hleases⟩ := ih (max start first.expiresAtMs)
      refine ⟨(le_max_left _ _).trans hstart, fun lease hlease => ?_⟩
      obtain rfl | hlease := mem_cons.1 hlease
      · exact (le_max_right _ _).trans hstart
      · exact hleases lease hlease
  cases leases with
  | nil => exact nomatch h
  | cons first leases =>
    obtain rfl | h := mem_cons.1 h
    · exact (hfold leases lease.expiresAtMs).1
    · exact (hfold leases first.expiresAtMs).2 lease h

theorem expires_le_until (h : lease ∈ leases) {nowMs writtenMs : ℚ} (hle : nowMs ≤ writtenMs) :
    lease.expiresAtMs ≤ writtenMs + ttlSecondsFor leases nowMs * 1000 := by
  have hlatest := le_latest h
  have hceil := Int.le_ceil ((latest leases - nowMs) / 1000)
  have hmax : (⌈(latest leases - nowMs) / 1000⌉ : ℚ) ≤ ttlSecondsFor leases nowMs := le_max_right _ _
  rw [div_le_iff₀ (by norm_num)] at hceil
  linarith

/-! ## One event -/

/-- When a call that has not written took the time. -/
def Stage.startedMs : Stage → Option ℚ
  | reading nowMs => some nowMs
  | writing nowMs _ => some nowMs
  | deleting => none
  | finished => none

/-- What a live lease can count on. -/
structure Inv (w : World Sample) : Prop where
  stored : ∀ lease, w.Live lease → lease.id ≠ "" ∧
    ∃ entry, w.session = some entry ∧ lease ∈ entry.value ∧ lease.expiresAtMs ≤ entry.untilMs
  started : ∀ running ∈ w.calls, ∀ nowMs, running.stage.startedMs = some nowMs → nowMs ≤ w.nowMs

theorem inv_empty : Inv (World.empty : World Sample) where
  stored := fun _ h => nomatch h.1
  started := fun _ h => nomatch h

theorem active_of_live (h : Inv w) (hlease : w.Live lease) {nowMs : ℚ} (hle : nowMs ≤ w.nowMs) (forgotten : Bool) :
    isServerLiveSessionActive w nowMs forgotten = true := by
  obtain ⟨hid, entry, hsession, hmem, huntil⟩ := h.stored lease hlease
  have hread : lease ∈ parseLeases (Entry.get? w.session w.nowMs forgotten) nowMs := by
    have hkept : ¬(forgotten = true ∧ entry.untilMs ≤ w.nowMs) := fun hgone =>
      absurd (hlease.2.trans_le huntil) (not_lt.2 hgone.2)
    rw [Entry.get?, hsession, Option.bind_some, if_neg hkept, parseLeases]
    simp [hmem, hid, hle.trans_lt hlease.2]
  rw [isServerLiveSessionActive]
  cases hleases : parseLeases (Entry.get? w.session w.nowMs forgotten) nowMs with
  | nil =>
    rw [hleases] at hread
    exact nomatch hread
  | cons => rfl

theorem Inv.of_same {w w' : World Sample} (h : Inv w) (hsession : w'.session = w.session)
    (hpromised : w'.promised = w.promised) (hnow : w.nowMs ≤ w'.nowMs)
    (hstarted : ∀ running ∈ w'.calls, ∀ nowMs, running.stage.startedMs = some nowMs → nowMs ≤ w'.nowMs) : Inv w' where
  stored := by
    intro lease hlease
    rw [World.Live, hpromised] at hlease
    rw [hsession]
    exact h.stored lease ⟨hlease.1, hnow.trans_lt hlease.2⟩
  started := hstarted

theorem Inv.started_goOn (h : Inv w) {i : ℕ} {stage : Stage}
    (hstage : ∀ nowMs, stage.startedMs = some nowMs → nowMs ≤ w.nowMs) :
    ∀ running ∈ (w.goOn i call stage).calls, ∀ nowMs, running.stage.startedMs = some nowMs → nowMs ≤ w.nowMs := by
  intro running hrunning
  obtain hold | rfl := mem_or_eq_of_mem_set hrunning
  · exact h.started running hold
  · exact hstage

/-- **A live lease of another viewer is written back.** -/
theorem mem_leases_of_live (h : Inv w) {read : List LiveSessionLease} (hread : HasRead w call read)
    (hlease : w.Live lease) (hid : lease.id ≠ call.leaseId.1) (nowMs : ℚ) : lease ∈ call.leases nowMs read := by
  obtain ⟨-, entry, hsession, hmem, -⟩ := h.stored lease hlease
  rw [Call.leases, mem_append, mem_filter]
  exact .inl ⟨hread entry hsession lease hmem hlease.2 hid, decide_eq_true hid⟩

theorem id_ne_of_mem_lease {nowMs : ℚ} (h : lease ∈ call.lease nowMs) :
    lease.id ≠ "" := by
  cases call with
  | markServerLiveSessionActive leaseId ttlSeconds =>
    rw [Call.lease, mem_singleton] at h
    rw [h]
    exact leaseId.2
  | clearServerLiveSession leaseId => exact nomatch h

/-- **The write of a call that has read the leases of the others keeps them.** -/
theorem Inv.write {w : World Sample} (h : Inv w) {i : ℕ} {call : Call} {nowMs : ℚ} {read : List LiveSessionLease}
    (hcall : w.calls[i]? = some ⟨call, .writing nowMs read⟩) (hread : HasRead w call read) :
    Inv (((w.goOn i call (if call.leases nowMs read = [] then .deleting else .finished)).writeLeases
      (call.leases nowMs read) nowMs).promise call nowMs) := by
  have hnow := h.started _ (mem_of_getElem? hcall) nowMs rfl
  have hwritten : ∀ lease ∈ (w.promised.filter fun lease => lease.id ≠ call.leaseId.1) ++ call.lease nowMs,
      w.nowMs < lease.expiresAtMs → lease.id ≠ "" ∧ lease ∈ call.leases nowMs read := by
    intro lease hlease hlive
    obtain hlease | hlease := mem_append.1 hlease
    · obtain ⟨hpromised, hid⟩ := mem_filter.1 hlease
      have hlease : w.Live lease := ⟨hpromised, hlive⟩
      exact ⟨(h.stored lease hlease).1, mem_leases_of_live h hread hlease (of_decide_eq_true hid) nowMs⟩
    · exact ⟨id_ne_of_mem_lease hlease, mem_append_right _ hlease⟩
  by_cases hempty : call.leases nowMs read = []
  · rw [World.writeLeases, if_pos hempty, if_pos hempty]
    refine ⟨fun lease hlease => ?_, h.started_goOn fun now hstage => nomatch hstage⟩
    have hmem := (hwritten lease hlease.1 hlease.2).2
    rw [hempty] at hmem
    exact nomatch hmem
  · rw [World.writeLeases, if_neg hempty, if_neg hempty]
    refine ⟨fun lease hlease => ?_, h.started_goOn fun now hstage => nomatch hstage⟩
    obtain ⟨hid, hmem⟩ := hwritten lease hlease.1 hlease.2
    exact ⟨hid, _, rfl, hmem, expires_le_until hmem hnow⟩

/-- **An event of a call that is up to date keeps the invariant.** -/
theorem Inv.step {w w' : World Sample} {event : Event Sample} (h : Inv w) (hevent : UpToDate w event)
    (hstep : step w event = some w') : Inv w' := by
  cases event with
  | tick ms =>
    rw [LiveSession.step, Option.ite_none_right_eq_some] at hstep
    obtain ⟨hms, hstep⟩ := hstep
    cases hstep
    have hnow : w.nowMs ≤ w.nowMs + ms := le_add_of_nonneg_right hms
    exact h.of_same rfl rfl hnow fun running hrunning nowMs hstage =>
      (h.started running hrunning nowMs hstage).trans hnow
  | begin call =>
    cases hstep
    refine h.of_same rfl rfl le_rfl fun running hrunning nowMs hstage => ?_
    obtain hold | hnew := mem_append.1 hrunning
    · exact h.started running hold nowMs hstage
    · rw [mem_singleton.1 hnew] at hstage
      exact (Option.some.inj hstage).ge
  | get i forgotten =>
    rw [LiveSession.step] at hstep
    split at hstep
    · rename_i call now hcall
      cases hstep
      refine h.of_same rfl rfl le_rfl (h.started_goOn fun nowMs hstage => ?_)
      cases hstage
      exact h.started _ (mem_of_getElem? hcall) now rfl
    · exact nomatch hstep
  | write i =>
    rw [LiveSession.step] at hstep
    split at hstep
    · rename_i call now read hcall
      cases hstep
      exact h.write hcall (hevent _ hcall read rfl)
    · exact nomatch hstep
  | deleteSample i =>
    rw [LiveSession.step] at hstep
    split at hstep
    · cases hstep
      exact h.of_same rfl rfl le_rfl (h.started_goOn fun nowMs hstage => nomatch hstage)
    · exact nomatch hstep
  | cacheLiveSample sample =>
    cases hstep
    exact h.of_same rfl rfl le_rfl h.started

/-- **Only a call for a live lease deletes the marker or the sample**, when it is up to date. -/
theorem Inv.deletes {event : Event Sample} (h : Inv w) (hevent : UpToDate w event)
    (hdeletes : deletes w event = some call) (hlease : w.Live lease) :
    lease.id = call.leaseId.1 := by
  by_contra hid
  cases event with
  | write i =>
    rw [LiveSession.deletes] at hdeletes
    split at hdeletes
    · rename_i call' nowMs read hcall
      split_ifs at hdeletes with hempty
      cases hdeletes
      have hmem := mem_leases_of_live h (hevent _ hcall read rfl) hlease hid nowMs
      rw [hempty] at hmem
      exact nomatch hmem
    · exact nomatch hdeletes
  | deleteSample i =>
    rw [LiveSession.deletes] at hdeletes
    split at hdeletes
    · rename_i call' hcall
      cases hdeletes
      obtain ⟨-, entry, hsession, hmem, -⟩ := h.stored lease hlease
      exact nomatch hevent _ hcall rfl entry hsession lease hmem hlease.2 hid
    · exact nomatch hdeletes
  | tick ms => exact nomatch hdeletes
  | begin call => exact nomatch hdeletes
  | get i forgotten => exact nomatch hdeletes
  | cacheLiveSample sample => exact nomatch hdeletes

/-! ## Runs -/

/-- Each event of a run is up to date where it happens. -/
def RunUpToDate (w : World Sample) : List (Event Sample) → Prop
  | [] => True
  | event :: events => UpToDate w event ∧ ∀ w' ∈ step w event, RunUpToDate w' events

instance decidableRunUpToDate : (events : List (Event Sample)) → (w : World Sample) → Decidable (RunUpToDate w events)
  | [], _ => inferInstanceAs (Decidable True)
  | event :: events, w =>
    have : DecidablePred fun w' : World Sample => RunUpToDate w' events := decidableRunUpToDate events
    inferInstanceAs (Decidable (UpToDate w event ∧ ∀ w' ∈ step w event, RunUpToDate w' events))

theorem run_cons {w w' : World Sample} {event : Event Sample} :
    run w (event :: events) = some w' ↔ ∃ next, step w event = some next ∧ run next events = some w' := by
  rw [run, foldlM_cons]
  exact Option.bind_eq_some_iff

/-- **A run that is up to date keeps the invariant.** -/
theorem Inv.run {w w' : World Sample} (h : Inv w) (hevents : RunUpToDate w events) (hrun : run w events = some w') :
    Inv w' := by
  induction events generalizing w with
  | nil => exact Option.some.inj hrun ▸ h
  | cons event events ih =>
    obtain ⟨next, hstep, hrun⟩ := run_cons.1 hrun
    exact ih (h.step hevents.1 hstep) (hevents.2 next hstep) hrun

theorem RunUpToDate.append {front back : List (Event Sample)} (h : RunUpToDate w (front ++ back)) :
    RunUpToDate w front ∧ ∀ w', LiveSession.run w front = some w' → RunUpToDate w' back := by
  induction front generalizing w with
  | nil => exact ⟨trivial, fun w' hrun => Option.some.inj hrun ▸ h⟩
  | cons event front ih =>
    refine ⟨⟨h.1, fun next hstep => (ih (h.2 next hstep)).1⟩, fun w' hrun => ?_⟩
    obtain ⟨next, hstep, hrun⟩ := run_cons.1 hrun
    exact (ih (h.2 next hstep)).2 w' hrun

/-- No lease is lost to another viewer in a run: wherever there is a live lease the session is
active, and no event deletes the marker or the sample for another viewer. -/
def KeepsLeases (events : List (Event Sample)) : Prop :=
  ∀ front back, events = front ++ back → ∀ w, run World.empty front = some w → ∀ lease, w.Live lease →
    (∀ nowMs ≤ w.nowMs, ∀ forgotten, isServerLiveSessionActive w nowMs forgotten = true) ∧
    ∀ event ∈ back.head?, ∀ call, deletes w event = some call → lease.id = call.leaseId.1

/-- **In a run where each call that writes has read the leases of the other viewers, no lease is
lost.** -/
theorem keepsLeases_of_upToDate (events : List (Event Sample)) (hevents : RunUpToDate World.empty events) :
    KeepsLeases events := by
  rintro front back rfl w hrun lease hlease
  obtain ⟨hfront, hback⟩ := hevents.append
  have hinv := inv_empty.run hfront hrun
  refine ⟨fun nowMs hle forgotten => active_of_live hinv hlease hle forgotten, ?_⟩
  intro event hevent call hdeletes
  cases back with
  | nil => exact nomatch hevent
  | cons next back =>
    cases hevent
    exact hinv.deletes (hback w hrun).1 hdeletes hlease

/-! ## Two viewers -/

def leaseA : LeaseId := ⟨"a", by decide⟩
def leaseB : LeaseId := ⟨"b", by decide⟩

/-- Both viewers read the empty marker before either writes, and the second one stops. -/
def overlapping : List (Event ℕ) :=
  [.begin (.markServerLiveSessionActive leaseA 60), .begin (.markServerLiveSessionActive leaseB 60), .get 0 false,
    .get 1 false, .write 0, .write 1, .begin (.clearServerLiveSession leaseB), .get 2 false, .write 2]

def overlapped : World ℕ where
  nowMs := 0
  session := none
  sample := none
  calls := [⟨.markServerLiveSessionActive leaseA 60, .finished⟩, ⟨.markServerLiveSessionActive leaseB 60, .finished⟩,
    ⟨.clearServerLiveSession leaseB, .deleting⟩]
  promised := [⟨"a", 60000⟩]

/-- **A lease is lost when two marks overlap**: the second write leaves the first lease out, and the
stop of the second viewer ends the session. -/
theorem lease_lost : ¬ ∀ events : List (Event ℕ), KeepsLeases events := by
  intro h
  have hrun : run World.empty overlapping = some overlapped := by decide +kernel
  have hlive : overlapped.Live ⟨"a", 60000⟩ := ⟨mem_cons_self, by norm_num [overlapped]⟩
  have hactive := (h _ _ _ (append_nil overlapping).symm _ hrun _ hlive).1
  exact absurd (hactive 0 le_rfl false) Bool.false_ne_true

theorem keepsLeases_taking_turns : KeepsLeases ([.begin (.markServerLiveSessionActive leaseA 60),
    .get 0 false, .write 0,
    .begin (.markServerLiveSessionActive leaseB 60), .get 1 false, .write 1, .cacheLiveSample 64, .tick 1000,
    .begin (.clearServerLiveSession leaseB), .get 2 false, .write 2] : List (Event ℕ)) :=
  keepsLeases_of_upToDate _ (by decide +kernel)

end TurboPanel.LiveSession
