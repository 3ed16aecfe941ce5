import TurboPanel.Billing.Projection

/-!
# What the stored rows reflect

A write is ordered by the moment its read began. So the rows are those of one read, their stamp does
not decrease, and a projection that began after a change of the provider leaves rows that are no
older than the change (`projections_never_go_back`): provided that no read takes the stamp of one
that began before a change of the provider. The clock counts milliseconds, so this may happen, and
then the older read may be written last (`equal_stamps_go_back`).
-/

namespace TurboPanel.StripeProjection

open Option Js Interleaving List

abbrev Log := List (Event Op Ans)

/-! ## The provider over time -/

def changedTo (ev : Event Op Ans) : Option Provider :=
  match ev.op with
  | .changeProvider provider => some provider
  | _ => none

/-- What the provider holds after these events. -/
def providerAfter (initial : Provider) (log : Log) : Provider :=
    (log.filterMap changedTo).getLastD initial

def tiersSetBy (ev : Event Op Ans) : Option (List TierRow) :=
  match ev.op with
  | .changeTiers tiers => some tiers
  | _ => none

/-- The table of the tiers after these events. -/
def tiersAfter (initial : List TierRow) (log : Log) : List TierRow :=
    (log.filterMap tiersSetBy).getLastD initial

/-- The pages are a whole listing: each was asked for behind the last item of the one before, up to
the last page. -/
inductive Listing : Option Text → List (Option Text × ItemsPage) → Prop
  | last {startingAfter : Option Text} {page : ItemsPage} (hmore : page.hasMore = false) :
      Listing startingAfter [(startingAfter, page)]
  | more {startingAfter : Option Text} {page : ItemsPage} {last : Text}
  {rest : List (Option Text × ItemsPage)}
      (hmore : page.hasMore = true) (hlast : lastId page.data = some last)
      (hrest : Listing (some last) rest) :
      Listing startingAfter ((startingAfter, page) :: rest)

/-- The items that a pass writes: those in the subscription, or a listing. -/
inductive Items (sub : StripeObject) : List (Option Text × ItemsPage) → List StripeValue → Prop
  | embedded {data : List StripeValue} (h : embeddedItems sub = some data) : Items sub [] data
  | listed {pages : List (Option Text × ItemsPage)} (h : embeddedItems sub = none)
  (hpages : Listing none pages) :
      Items sub pages (pages.flatMap fun page => page.2.data)

/-- The events of a pass up to its write. -/
def readTrace (stamp : Time) (sub : StripeObject) (pages : List (Option Text × ItemsPage)) :
    Trace Op Ans :=
  ⟨.readClock, stamp⟩ :: ⟨.getSubscription, some sub⟩ ::
    pages.map fun page => ⟨.listItems page.1, some page.2⟩

/-- What is written is what one pass read, whose events are the trace. -/
def ReadIn (pass : Trace Op Ans) (sub : StripeObject) (pages : List (Option Text × ItemsPage))
    (input : ProjectionWrite) : Prop :=
  ∃ (items : List StripeValue) (head : Head),
    pass = readTrace input.readStartedAt sub pages ∧ Items sub pages items ∧
    readHead sub = .ok head ∧
    projectionWrite input.now input.readStartedAt sub head (items.filterMap isObject) = some input

/-- The statement wrote the rows. -/
def Applies (input : ProjectionWrite) (ev : (o : Op) × Ans o) : Prop :=
  ∃ id skipped, ev = ⟨.writeProjectionRows input, some ⟨id, some skipped⟩⟩

/-- The rows are those of the write, with these tiers. -/
def Shows (db : Database) (tiers : List TierRow) (input : ProjectionWrite) : Prop :=
  ∃ row, db.subscription = some row ∧ row.status = parseSubscriptionStatus input.status ∧
    row.providerStatus = input.status ∧ row.currentPeriodEnd = input.currentPeriodEnd ∧
    row.scheduleId = input.scheduleId ∧ row.updatedAt = input.readStartedAt ∧
    db.seats = (replaceSubscriptionItems tiers input.items).1

/-- The rows are what one pass read that began after the first `n` events: its thread took the
stamp, read the subscription and its items, each as the provider held it at that moment, and wrote
them, with the tiers of then. -/
def StoredSince (provider : Provider) (tiers : List TierRow) (log : Log) (n : ℕ)
    (db : Database) : Prop :=
  ∃ (before pass : Log) (write : Event Op Ans) (after : Log) (sub : StripeObject)
    (pages : List (Option Text × ItemsPage)) (input : ProjectionWrite),
    log = before ++ pass ++ write :: after ∧ n ≤ before.length ∧ Applies input ⟨write.op,
      write.ans⟩ ∧
    ReadIn (own write.thread pass) sub pages input ∧
    (∃ done rest, pass = done ++ rest ∧
      sub = (providerAfter provider (before ++ done)).subscription) ∧
    (∀ page ∈ pages, ∃ done rest, pass = done ++ rest ∧
      page.2 = (providerAfter provider (before ++ done)).page page.1) ∧
    Shows db (tiersAfter tiers (before ++ pass)) input

/-! ## The claim -/

/-- There is no row yet. -/
def start (provider : Provider) (payers : List PayerRow) (tiers : List TierRow)
    (clock : Time) : State where
  db := ⟨payers, none, [], tiers⟩
  provider := provider
  clock := clock

abbrev Choices := List (Choice Env Call)

/-- The configuration after the choices. -/
abbrev runFrom (s : State) (choices : Choices) : Config Op Ans State :=
    (Config.init s).run machine body choices

/-- The stored rows come from one read. -/
def OneRead (s : State) (w : World Op Ans State) : Prop :=
  (w.state.db.subscription = none ∧ w.state.db.seats = []) ∨
    StoredSince s.provider s.db.tiers w.log 0 w.state.db

/-- Once a projection that began after a change of the provider has answered that it is projected,
the stored rows reflect the change, or the provider after it. -/
def Fresh (s : State) (w : World Op Ans State) : Prop :=
  ∀ before change after i, w.log = before ++ change :: after → (changedTo change).isSome →
    (∀ ev ∈ before, ev.thread ≠ i) →
    (∃ id skipped, ⟨i, .finish (.projected id skipped), ()⟩ ∈ after) →
    StoredSince s.provider s.db.tiers w.log (before.length + 1) w.state.db

structure NeverGoesBack (s : State) (choices : Choices) : Prop where
  oneRead : ∀ now later, choices = now ++ later → OneRead s (runFrom s now).world
  stamps : ∀ now later rest, choices = now ++ later ++ rest →
    ∀ row ∈ (runFrom s now).world.state.db.subscription,
      ∃ row' ∈ (runFrom s (now ++ later)).world.state.db.subscription,
        row.updatedAt ≤ row'.updatedAt
  fresh : ∀ now later, choices = now ++ later → Fresh s (runFrom s now).world

/-- A pass does not take a stamp that a pass has which began before a change of the provider. -/
def LaterStamp (_ : ℕ) (w : World Op Ans State) : Op → Prop
  | .readClock => ∀ before change after, w.log = before ++ change :: after →
  (changedTo change).isSome →
      ∀ (i : ℕ) (stamp : Time), ⟨i, .readClock, stamp⟩ ∈ before → stamp < w.state.clock
  | _ => True

/-! ## What a call does -/

/-- The last events are those of a pass that read what is written. -/
def ReadBy (h : Trace Op Ans) (input : ProjectionWrite) : Prop :=
  ∃ earlier pass sub pages, h = earlier ++ pass ∧ ReadIn pass sub pages input

def Contract (h : Trace Op Ans) : Op → Prop
  | .writeProjectionRows input => ReadBy h input
  | .finish (.projected _ _) => ∃ input, ∃ ev ∈ h, Applies input ev
  | _ => True

/-- Nothing is asked of the answers. -/
abbrev Any (o : Op) (_ : Ans o) : Prop := True

theorem listAll_reads (pages : ℕ) (startingAfter : Option Text) (out : List StripeValue)
    (h : Trace Op Ans) :
    (listAll pages startingAfter out).Sat Any Contract
      (fun h' all => ∀ items ∈ all, ∃ listed : List (Option Text × ItemsPage),
      Listing startingAfter listed ∧
        h' = h ++ listed.map (fun page => ⟨.listItems page.1, some page.2⟩) ∧
          items = out ++ listed.flatMap fun page => page.2.data) h := by
  induction pages generalizing startingAfter out h with
  | zero => exact nofun
  | succ pages ih =>
    refine ⟨trivial, fun answer _ => ?_⟩
    cases answer with
    | none => exact nofun
    | some page =>
      change Prog.Sat _ _ _ (ite _ _ _) _
      split
      · rename_i hmore
        rintro items ⟨⟩
        exact ⟨[(startingAfter, page)], .last (by simpa using hmore),
          rfl, by rw [flatMap_singleton]⟩
      · rename_i hmore
        split
        · exact nofun
        · rename_i last hlast
          refine (ih (some last) (out ++ page.data) _).mono fun h' all hall items hitems => ?_
          obtain ⟨listed, hlisting, rfl, rfl⟩ := hall items hitems
          refine ⟨(startingAfter, page) :: listed,
            .more (by simpa using hmore) hlast hlisting, ?_, ?_⟩
          · rw [map_cons, append_assoc]
            rfl
          · rw [flatMap_cons, append_assoc]

theorem loadSubscriptionItems_reads (sub : StripeObject) (h : Trace Op Ans) :
    (loadSubscriptionItems sub).Sat Any Contract
      (fun h' all => ∀ items ∈ all, ∃ listed data, Items sub listed data ∧
        h' = h ++ listed.map (fun page => ⟨.listItems page.1, some page.2⟩) ∧
        items = data.filterMap isObject) h := by
  rw [loadSubscriptionItems]
  split
  · rename_i data hembedded
    rintro items ⟨⟩
    exact ⟨[], data, .embedded hembedded, (append_nil h).symm, rfl⟩
  · rename_i hembedded
    refine (listAll_reads stripeListMaxPages none [] h).bind fun h' all hall => ?_
    intro items hitems
    obtain ⟨found, hfound, rfl⟩ := map_eq_some_iff.1 hitems
    obtain ⟨listed, hlisting, rfl, rfl⟩ := hall found hfound
    exact ⟨listed, _, .listed hembedded hlisting, rfl, by rw [nil_append]⟩

/-- The outcome is backed by the trace. -/
def Backed (h : Trace Op Ans) (outcome : Outcome) : Prop := Contract h (.finish outcome)

theorem onePass_reads (now : Option Time) {again : Proc Outcome}
    (hagain : ∀ h, again.Sat Any Contract Backed h) (h : Trace Op Ans) :
    (onePass now again).Sat Any Contract Backed h := by
  refine ⟨trivial, fun stamp _ => ⟨trivial, fun answer _ => ?_⟩⟩
  cases answer with
  | none => trivial
  | some sub =>
    simp only [Prog.bind]
    split
    · trivial
    · rename_i head hhead
      refine (loadSubscriptionItems_reads sub _).bind fun h' items hitems => ?_
      split
      · trivial
      · rename_i input hinput
        obtain ⟨items, rfl, hwrite⟩ := bind_eq_some_iff.1 hinput
        obtain ⟨listed, data, hdata, rfl, rfl⟩ := hitems items rfl
        have htimes : input.readStartedAt = stamp ∧ input.now = now.getD stamp := by
          rw [projectionWrite] at hwrite
          obtain ⟨periodEnd, -, heq⟩ := bind_eq_some_iff.1 hwrite
          exact (Option.some.inj heq) ▸ ⟨rfl, rfl⟩
        refine ⟨⟨h, _, sub, listed, ?_, data, head, rfl, hdata, hhead, ?_⟩, fun written _ => ?_⟩
        · rw [htimes.1, readTrace, append_assoc, append_assoc]
          rfl
        · rw [htimes.1, htimes.2]
          exact hwrite
        · simp only [Prog.bind]
          split
          · trivial
          · exact hagain _
          · rename_i id skipped _
            have happlied : ∀ after : Trace Op Ans, ∃ input',
              ∃ ev ∈ ((((h ++ [⟨.readClock, stamp⟩]) ++
                [⟨.getSubscription, some sub⟩]) ++ listed.map fun page =>
                  ⟨.listItems page.1, some page.2⟩) ++
                [⟨.writeProjectionRows input, some ⟨id, some skipped⟩⟩]) ++ after,
                  Applies input' ev := by
              intro after
              refine ⟨input, _, mem_append_left _ (mem_append_right _ mem_cons_self), id,
                skipped, rfl⟩
            split
            · have hnow := happlied []
              rw [append_nil] at hnow
              exact hnow
            · refine ⟨trivial, fun synced _ => ?_⟩
              change Backed _ (ite _ _ _)
              split
              · exact happlied _
              · trivial

theorem threw_backed (h : Trace Op Ans) :
    (pure .threw : Proc Outcome).Sat Any Contract Backed h := trivial

theorem projectSubscriptionPass_reads (now : Option Time) (passesLeft : ℕ) (h : Trace Op Ans) :
    (projectSubscriptionPass now passesLeft).Sat Any Contract Backed h := by
  induction passesLeft generalizing h with
  | zero => exact onePass_reads now threw_backed h
  | succ passesLeft ih =>
    cases passesLeft with
    | zero => exact onePass_reads now threw_backed h
    | succ passesLeft => exact onePass_reads now ih h

theorem body_obeys (x : Call) : (body x).Sat Any Contract (fun _ _ => True) [] := by
  cases x with
  | projectSubscriptionById now =>
    refine (projectSubscriptionPass_reads now maxProjectionPasses []).bind fun h outcome hbacked =>
      ?_
    exact ⟨hbacked, fun _ _ => trivial⟩
  | changeProvider provider => exact ⟨trivial, fun _ _ => trivial⟩
  | changeTiers tiers => exact ⟨trivial, fun _ _ => trivial⟩
  | wait ms => exact ⟨trivial, fun _ _ => trivial⟩

/-! ## What a statement does -/

variable {input : ProjectionWrite}

theorem upsertSubscriptionFromProvider_applied {existing : Option SubscriptionRow}
    {payerId newId : Text}
    {row : SubscriptionRow}
    (h : upsertSubscriptionFromProvider existing payerId input newId = (row, true)) :
    (row.status = parseSubscriptionStatus input.status ∧ row.providerStatus = input.status ∧
      row.currentPeriodEnd = input.currentPeriodEnd ∧ row.scheduleId = input.scheduleId ∧
      row.updatedAt = input.readStartedAt) ∧ ∀ old ∈ existing,
      old.updatedAt ≤ input.readStartedAt := by
  cases existing with
  | none =>
    cases h
    exact ⟨⟨rfl, rfl, rfl, rfl, rfl⟩, fun old hold => absurd hold (not_mem_none old)⟩
  | some old =>
    rw [upsertSubscriptionFromProvider] at h
    split at h
    · rename_i hle
      cases h
      refine ⟨⟨rfl, rfl, rfl, rfl, rfl⟩, ?_⟩
      rintro _ ⟨⟩
      exact hle
    · cases (Prod.mk.inj h).2

theorem writeProjectionRows_rows {db db' : Database} {newPayerId newId : Text}
    {written : Written} (h : writeProjectionRows db input newPayerId newId = some (written, db')) :
    (written.replaced = none ∧ db'.subscription = db.subscription ∧ db'.seats = db.seats) ∨
      ((∃ skipped, written.replaced = some skipped) ∧ Shows db' db.tiers input ∧
        ∀ old ∈ db.subscription, old.updatedAt ≤ input.readStartedAt) := by
  rw [writeProjectionRows] at h
  obtain ⟨⟨payerId, payers⟩, -, h⟩ := bind_eq_some_iff.1 h
  dsimp only at h
  cases hupsert : upsertSubscriptionFromProvider db.subscription payerId input newId with
  | mk row applied =>
    rw [hupsert] at h
    cases applied with
    | false =>
      cases h
      exact .inl ⟨rfl, rfl, rfl⟩
    | true =>
      cases h
      obtain ⟨⟨hstatus, hprovider, hend, hschedule, hstamp⟩, hle⟩ :=
        upsertSubscriptionFromProvider_applied hupsert
      exact .inr ⟨⟨_, rfl⟩, ⟨row, rfl, hstatus, hprovider, hend, hschedule, hstamp, rfl⟩, hle⟩

variable {e : Env} {o : Op} {s s' : State}

theorem exec_rows {ans : Ans o} (h : exec e o s = (ans, s')) :
    (s'.db.subscription = s.db.subscription ∧ s'.db.seats = s.db.seats ∧ ∀ input,
    ¬Applies input ⟨o, ans⟩) ∨
      ∃ input, Applies input ⟨o, ans⟩ ∧ Shows s'.db s.db.tiers input ∧
        ∀ old ∈ s.db.subscription, old.updatedAt ≤ input.readStartedAt := by
  cases o with
  | writeProjectionRows input =>
    rw [exec] at h
    split at h
    · cases h
      refine .inl ⟨rfl, rfl, ?_⟩
      rintro input' ⟨id, skipped, heq⟩
      cases heq
    · rename_i written db hwrite
      cases h
      split at hwrite
      · obtain ⟨hnone, hrow, hseats⟩ | ⟨⟨skipped, hsome⟩, hshows, hle⟩ :=
          writeProjectionRows_rows hwrite
        · refine .inl ⟨hrow, hseats, ?_⟩
          rintro input' ⟨id, skipped, heq⟩
          cases heq
          cases hnone
        · refine .inr ⟨input, ⟨written.subscriptionId, skipped, ?_⟩, hshows, hle⟩
          rw [← hsome]
      · cases hwrite
  | _ =>
    cases h
    exact .inl ⟨rfl, rfl, fun input ⟨id, skipped, heq⟩ => Op.noConfusion (congrArg Sigma.fst heq)⟩

/-- The answer of the provider is what it holds. -/
def AnsweredBy (provider : Provider) : (o : Op) × Ans o → Prop
  | ⟨.getSubscription, some sub⟩ => sub = provider.subscription
  | ⟨.listItems startingAfter, some page⟩ => page = provider.page startingAfter
  | _ => True

theorem exec_answered {ans : Ans o} (h : exec e o s = (ans, s')) :
    AnsweredBy s.provider ⟨o, ans⟩ := by
  cases o with
  | getSubscription =>
    cases h
    cases e.up with
    | false => trivial
    | true => rfl
  | listItems startingAfter =>
    cases h
    cases e.up with
    | false => trivial
    | true => rfl
  | _ => trivial

theorem exec_provider {ans : Ans o} (h : exec e o s = (ans, s')) (i : ℕ) :
    s'.provider = (changedTo ⟨i, o, ans⟩).getD s.provider := by
  cases o with
  | writeProjectionRows input =>
    rw [exec] at h
    split at h <;> (obtain ⟨-, rfl⟩ := Prod.mk.inj h; rfl)
  | _ =>
    cases h
    rfl

theorem exec_tiers {ans : Ans o} (h : exec e o s = (ans, s')) (i : ℕ) :
    s'.db.tiers = (tiersSetBy ⟨i, o, ans⟩).getD s.db.tiers := by
  cases o with
  | writeProjectionRows input =>
    rw [exec] at h
    split at h
    · cases h
      rfl
    · rename_i written db hwrite
      cases h
      split at hwrite
      · rw [writeProjectionRows] at hwrite
        obtain ⟨⟨payerId, payers⟩, -, hwrite⟩ := bind_eq_some_iff.1 hwrite
        dsimp only at hwrite
        split at hwrite <;> (cases hwrite; rfl)
      · cases hwrite
  | _ =>
    cases h
    rfl

/-! ## What holds in every world -/

theorem tiersAfter_concat (initial : List TierRow) (log : Log) (ev : Event Op Ans) :
    tiersAfter initial (log ++ [ev]) = (tiersSetBy ev).getD (tiersAfter initial log) := by
  rw [tiersAfter, filterMap_append]
  cases hev : tiersSetBy ev with
  | none =>
    rw [filterMap_cons_none hev, filterMap_nil, append_nil]
    rfl
  | some tiers =>
    rw [filterMap_cons_some hev, filterMap_nil, getLastD_concat]
    rfl

theorem providerAfter_concat (initial : Provider) (log : Log) (ev : Event Op Ans) :
    providerAfter initial (log ++ [ev]) = (changedTo ev).getD (providerAfter initial log) := by
  rw [providerAfter, filterMap_append]
  cases hev : changedTo ev with
  | none =>
    rw [filterMap_cons_none hev, filterMap_nil, append_nil]
    rfl
  | some provider =>
    rw [filterMap_cons_some hev, filterMap_nil, getLastD_concat]
    rfl

structure Recorded (initial : Provider) (tiers : List TierRow) (w : World Op Ans State) : Prop where
  provider : w.state.provider = providerAfter initial w.log
  tierTable : w.state.db.tiers = tiersAfter tiers w.log
  /-- The provider answered with what it held. -/
  answers : ∀ before ev after, w.log = before ++ ev :: after →
    AnsweredBy (providerAfter initial before) ⟨ev.op, ev.ans⟩
  followed : Followed Contract w.log
  /-- The stamps after a change are later than those before it. -/
  stamps : ∀ before change after, w.log = before ++ change :: after → (changedTo change).isSome →
    ∀ (i j : ℕ) (stamp later : Time), ⟨i, .readClock, stamp⟩ ∈ before →
      ⟨j, .readClock, later⟩ ∈ after →
      stamp < later
  /-- The stored stamp is that of no earlier read than any that was written. -/
  applied : ∀ ev ∈ w.log, ∀ input, Applies input ⟨ev.op, ev.ans⟩ →
    ∃ row, w.state.db.subscription = some row ∧ input.readStartedAt ≤ row.updatedAt
  rows : (w.state.db.subscription = none ∧ w.state.db.seats = []) ∨
    ∃ before ev after input, w.log = before ++ ev :: after ∧ Applies input ⟨ev.op, ev.ans⟩ ∧
      Shows w.state.db (tiersAfter tiers before) input

theorem Shows.of_eq {db db' : Database} {tiers : List TierRow} (h : Shows db tiers input)
    (hrow : db'.subscription = db.subscription) (hseats : db'.seats = db.seats) :
    Shows db' tiers input := by
  obtain ⟨row, hsome, hfields⟩ := h
  refine ⟨row, hrow.trans hsome, ?_⟩
  rw [hseats]
  exact hfields

theorem Applies.unique {input' : ProjectionWrite} {ev : (o : Op) × Ans o} (h : Applies input ev)
    (h' : Applies input' ev) : input = input' := by
  obtain ⟨id, skipped, rfl⟩ := h
  obtain ⟨id', skipped', heq⟩ := h'
  cases heq
  rfl

theorem recorded_start (provider : Provider) (payers : List PayerRow) (tiers : List TierRow)
    (clock : Time) :
    Recorded provider tiers (Config.init (start provider payers tiers clock) : Config Op Ans
    State).world where
  provider := rfl
  tierTable := rfl
  answers before ev after heq := by
    exact absurd heq.symm (append_ne_nil_of_right_ne_nil _ (cons_ne_nil _ _))
  followed := followed_nil
  stamps before ev after heq := by
    exact absurd heq.symm (append_ne_nil_of_right_ne_nil _ (cons_ne_nil _ _))
  applied _ hev := nomatch hev
  rows := .inl ⟨rfl, rfl⟩

section

variable {initial : Provider} {tiers : List TierRow} {w : World Op Ans State} {i : ℕ} {e : Env}
  {o : Op} {ans : Ans o} {s' : State}

theorem Recorded.push_stamps (hw : Recorded initial tiers w) (hlater : LaterStamp i w o)
    (hexec : exec e o w.state = (ans, s')) {before : Log} {change : Event Op Ans} {after : Log}
    (heq : (w.push i o ans s').log = before ++ change :: after)
    (hchange : (changedTo change).isSome)
    {j k : ℕ} {stamp later : Time} (hstamp : ⟨j, .readClock, stamp⟩ ∈ before)
    (hafter : ⟨k, .readClock, later⟩ ∈ after) : stamp < later := by
  obtain ⟨rfl, -, -⟩ | ⟨after', rfl, hlog⟩ := concat_eq_append_cons heq
  · cases hafter
  · obtain hmem | hnew := mem_append.1 hafter
    · exact hw.stamps before change after' hlog hchange j k stamp later hstamp hmem
    · cases mem_singleton.1 hnew
      cases hexec
      exact hlater before change after' hlog hchange j stamp hstamp

theorem Recorded.push_applied (hw : Recorded initial tiers w) (hexec : exec e o w.state = (ans, s'))
    {ev : Event Op Ans} (hev : ev ∈ (w.push i o ans s').log) {input : ProjectionWrite}
    (happlies : Applies input ⟨ev.op, ev.ans⟩) :
    ∃ row, s'.db.subscription = some row ∧ input.readStartedAt ≤ row.updatedAt := by
  rw [World.push, mem_append, mem_singleton] at hev
  obtain ⟨hsame, -, hnot⟩ | ⟨written, hwritten, ⟨row, hrow, -, -, -, -, hstamp, -⟩, hle⟩ :=
    exec_rows hexec
  · obtain hev | rfl := hev
    · rw [hsame]
      exact hw.applied ev hev input happlies
    · exact absurd happlies (hnot input)
  · refine ⟨row, hrow, ?_⟩
    rw [hstamp]
    obtain hev | rfl := hev
    · obtain ⟨old, hold, hinput⟩ := hw.applied ev hev input happlies
      exact hinput.trans (hle old hold)
    · exact (happlies.unique hwritten) ▸ le_rfl

theorem Recorded.push (hw : Recorded initial tiers w) (hlater : LaterStamp i w o)
    (hcontract : Contract (own i w.log) o)
    (hexec : exec e o w.state = (ans, s')) : Recorded initial tiers (w.push i o ans s') where
  provider := by
    change s'.provider = providerAfter initial (w.log ++ [⟨i, o, ans⟩])
    rw [providerAfter_concat, exec_provider hexec i, hw.provider]
  tierTable := by
    change s'.db.tiers = tiersAfter tiers (w.log ++ [⟨i, o, ans⟩])
    rw [tiersAfter_concat, exec_tiers hexec i, hw.tierTable]
  answers before ev after heq := by
    obtain ⟨-, rfl, rfl⟩ | ⟨after', -, hlog⟩ := concat_eq_append_cons heq
    · rw [← hw.provider]
      exact exec_answered hexec
    · exact hw.answers before ev after' hlog
  followed := hw.followed.concat hcontract
  stamps _ _ _ heq hchange _ _ _ _ hstamp hafter :=
    hw.push_stamps hlater hexec heq hchange hstamp hafter
  applied _ hev _ happlies := hw.push_applied hexec hev happlies
  rows := by
    obtain ⟨hsame, hseats, -⟩ | ⟨input, happlies, hshows, -⟩ := exec_rows hexec
    · obtain ⟨hnone, hnil⟩ | ⟨before, ev, after, input, hlog, happlies, hshows⟩ := hw.rows
      · exact .inl ⟨hsame.trans hnone, hseats.trans hnil⟩
      · refine .inr ⟨before, ev, after ++ [⟨i, o, ans⟩], input, ?_, happlies,
          hshows.of_eq hsame hseats⟩
        rw [World.push, hlog, append_assoc, cons_append]
    · rw [hw.tierTable] at hshows
      exact .inr ⟨w.log, ⟨i, o, ans⟩, [], input, rfl, happlies, hshows⟩

end

/-! ## What the rows were read from -/

section

variable {initial : Provider} {tiers : List TierRow} {w : World Op Ans State}

theorem Recorded.answered_in (hw : Recorded initial tiers w) {a b c : Log}
    (hlog : w.log = a ++ b ++ c) {j : ℕ}
    {o : Op} {ans : Ans o} (hmem : ⟨o, ans⟩ ∈ own j b) :
    ∃ done rest, b = done ++ rest ∧ AnsweredBy (providerAfter initial (a ++ done)) ⟨o, ans⟩ := by
  obtain ⟨b₁, b₂, rfl⟩ := append_of_mem (mem_own.1 hmem)
  refine ⟨b₁, _, rfl, hw.answers (a ++ b₁) ⟨j, o, ans⟩ (b₂ ++ c) ?_⟩
  rw [hlog]
  simp only [append_assoc, cons_append]

variable {after : Log}

section

variable (hw : Recorded initial tiers w)
include hw

/-- **What was written was read from the provider after its stamp was taken.** -/
theorem Recorded.readBefore {start : Log} {ev : Event Op Ans}
    (hlog : w.log = start ++ ev :: after) {input : ProjectionWrite}
    (happlies : Applies input ⟨ev.op, ev.ans⟩) :
    ∃ before pass sub pages, start = before ++ pass ∧ ReadIn (own ev.thread pass) sub pages input ∧
      (∃ done rest, pass = done ++ rest ∧
      sub = (providerAfter initial (before ++ done)).subscription) ∧
      (∀ page ∈ pages, ∃ done rest, pass = done ++ rest ∧
        page.2 = (providerAfter initial (before ++ done)).page page.1) ∧
      ∃ rest, pass = ⟨ev.thread, .readClock, input.readStartedAt⟩ :: rest := by
  have hread := hw.followed start ev after hlog
  obtain ⟨j, o, ans⟩ := ev
  obtain ⟨id, skipped, heq⟩ := happlies
  cases heq
  obtain ⟨earlier, pass, sub, pages, hown, items, head, rfl, hitems, hhead, hwrite⟩ := hread
  obtain ⟨log₁, log₂, rfl, -, hpass⟩ := own_eq_append hown
  obtain ⟨skip, rest, rfl, hrest⟩ := own_eq_cons hpass
  -- the pass begins with the stamp
  have hcut : w.log = (log₁ ++ skip) ++ (⟨j, .readClock, input.readStartedAt⟩ :: rest) ++
      ⟨j, .writeProjectionRows input, some ⟨id, some skipped⟩⟩ :: after := by
    rw [hlog]
    simp only [append_assoc]
  have hown' : own j (⟨j, .readClock, input.readStartedAt⟩ :: rest) =
    readTrace input.readStartedAt sub pages := by
    rw [← singleton_append, own_append, own_self, hrest]
    rfl
  have hanswered : ∀ {o : Op} {ans : Ans o}, ⟨o, ans⟩ ∈ readTrace input.readStartedAt sub pages →
      ∃ done rest', ⟨j, .readClock, input.readStartedAt⟩ :: rest = done ++ rest' ∧
        AnsweredBy (providerAfter initial (log₁ ++ skip ++ done)) ⟨o, ans⟩ :=
    fun hmem => hw.answered_in hcut (hown' ▸ hmem)
  refine ⟨log₁ ++ skip, _, sub, pages, by rw [append_assoc],
    ⟨items, head, hown', hitems, hhead, hwrite⟩, ?_, ?_,
    rest, rfl⟩
  · exact hanswered (mem_cons_of_mem _ mem_cons_self)
  · intro page hpage
    exact hanswered (mem_cons_of_mem _ (mem_cons_of_mem _ (mem_map.2 ⟨page, hpage, rfl⟩)))

theorem Recorded.storedSince {start : Log} {ev : Event Op Ans}
    (hlog : w.log = start ++ ev :: after) {input : ProjectionWrite}
    (happlies : Applies input ⟨ev.op, ev.ans⟩)
    (hshows : Shows w.state.db (tiersAfter tiers start) input) {n : ℕ}
    (hn : ∀ before pass, start = before ++ ⟨ev.thread, .readClock, input.readStartedAt⟩ :: pass →
    n ≤ before.length) :
    StoredSince initial tiers w.log n w.state.db := by
  obtain ⟨before, pass, sub, pages, rfl, hread, hsub, hpages, rest, rfl⟩ :=
    hw.readBefore hlog happlies
  exact ⟨before, _, ev, after, sub, pages, input, hlog, hn before rest rfl, happlies, hread, hsub,
    hpages, hshows⟩

theorem Recorded.oneRead :
    (w.state.db.subscription = none ∧ w.state.db.seats = []) ∨
    StoredSince initial tiers w.log 0 w.state.db := by
  obtain hnone | ⟨start, ev, after, input, hlog, happlies, hshows⟩ := hw.rows
  · exact .inl hnone
  · exact .inr (hw.storedSince hlog happlies hshows fun before _ _ => Nat.zero_le before.length)

theorem Recorded.fresh {before : Log} {change : Event Op Ans} {i : ℕ}
    (hlog : w.log = before ++ change :: after) (hchange : (changedTo change).isSome)
    (hbefore : ∀ ev ∈ before, ev.thread ≠ i) {id : Text} {skipped : List Text}
    (hfinish : ⟨i, .finish (.projected id skipped), ()⟩ ∈ after) :
    StoredSince initial tiers w.log (before.length + 1) w.state.db := by
  have hmem : ∀ ev ∈ after, ev ∈ w.log := by
    intro ev hev
    rw [hlog]
    exact mem_append_right _ (mem_cons_of_mem _ hev)
  have hnot : ∀ (j : ℕ) (stamp : Time), change ≠ ⟨j, .readClock, stamp⟩ := by
    rintro j stamp rfl
    cases hchange
  -- The projection wrote the rows, and it took the stamp after the change.
  obtain ⟨l₁, l₂, hcut⟩ := append_of_mem (hmem _ hfinish)
  obtain ⟨own₁, ⟨o, ans⟩, hown, hown₁⟩ := hw.followed _ _ _ hcut
  have hwrite : (⟨i, o, ans⟩ : Event Op Ans) ∈ w.log := by
    rw [hcut]
    exact mem_append_left _ (mem_own.1 hown)
  obtain ⟨row, hrow, hle⟩ := hw.applied _ hwrite own₁ hown₁
  obtain ⟨start, later, hsplit⟩ := append_of_mem hwrite
  obtain ⟨earlier, _, _, _, hstart, -, -, -, rest, rfl⟩ := hw.readBefore hsplit hown₁
  have hstamp : (⟨i, .readClock, own₁.readStartedAt⟩ : Event Op Ans) ∈ after := by
    have hlogged : (⟨i, .readClock, own₁.readStartedAt⟩ : Event Op Ans) ∈
      before ++ change :: after := by
      rw [← hlog, hsplit, hstart]
      exact mem_append_left _ (mem_append_right _ mem_cons_self)
    rcases mem_append.1 hlogged with hearly | hlate
    · exact absurd rfl (hbefore _ hearly)
    · exact (mem_cons.1 hlate).resolve_left fun heq => hnot _ _ heq.symm
  -- The rows are those of a read with no earlier stamp, so it began after the change as well.
  obtain ⟨hnone, -⟩ | ⟨start', ev, after', input, hlog', happlies, hshows⟩ := hw.rows
  · rw [hrow] at hnone
    cases hnone
  · refine hw.storedSince hlog' happlies hshows fun before' pass hstart' => ?_
    obtain ⟨shown, hshown, -, -, -, -, hupdated, -⟩ := hshows
    cases hrow.symm.trans hshown
    by_contra hshort
    have hpast : before' ++ [⟨ev.thread, .readClock, input.readStartedAt⟩] <+: w.log := by
      rw [hlog', hstart']
      exact ⟨pass ++ ev :: after', by simp⟩
    have hchanged : before ++ [change] <+: w.log := ⟨after, by rw [hlog]; simp⟩
    have hearlier := (prefix_of_prefix_length_le hpast hchanged
      (by rw [length_append, length_append, length_singleton, length_singleton]; omega)).subset
      (mem_append_right before' mem_cons_self)
    obtain hearly | hlast := mem_append.1 hearlier
    · have hlt := hw.stamps before change after hlog hchange _ _ _ _ hearly hstamp
      rw [hupdated] at hle
      exact absurd hlt (not_lt.2 hle)
    · exact hnot _ _ (mem_singleton.1 hlast).symm

end

end

/-! ## Runs -/

theorem exec_stamp {ans : Ans o} (h : exec e o s = (ans, s')) :
    ∀ row ∈ s.db.subscription, ∃ row' ∈ s'.db.subscription, row.updatedAt ≤ row'.updatedAt := by
  intro row hrow
  obtain ⟨hsame, -, -⟩ | ⟨input, -, ⟨row', hrow', -, -, -, -, hstamp, -⟩, hle⟩ := exec_rows h
  · exact ⟨row, hsame ▸ hrow, le_rfl⟩
  · refine ⟨row', hrow', ?_⟩
    rw [hstamp]
    exact hle row hrow

/-- The stored stamp has not decreased. -/
def StampKept (w w' : World Op Ans State) : Prop :=
  ∀ row ∈ w.state.db.subscription, ∃ row' ∈ w'.state.db.subscription, row.updatedAt ≤ row'.updatedAt

theorem StampKept.trans {w₁ w₂ w₃ : World Op Ans State} (h : StampKept w₁ w₂)
    (h' : StampKept w₂ w₃) :
    StampKept w₁ w₃ := by
  intro row hrow
  obtain ⟨row', hrow', hle⟩ := h row hrow
  obtain ⟨row'', hrow'', hle'⟩ := h' row' hrow'
  exact ⟨row'', hrow'', hle.trans hle'⟩

theorem StampKept.refl (w : World Op Ans State) : StampKept w w := fun row hrow =>
    ⟨row, hrow, le_rfl⟩

section

variable {initial : Provider} {tiers : List TierRow} {c : Config Op Ans State}

theorem recorded_run (hc : Obeys Any Contract c) (hw : Recorded initial tiers c.world)
    {choices : Choices}
    (hmeets : Meets machine body LaterStamp c choices) :
    Obeys Any Contract (c.run machine body choices) ∧
    Recorded initial tiers (c.run machine body choices).world := by
  have hstep : ∀ {i e o w ans s'}, Recorded initial tiers w → LaterStamp i w o →
    Contract (own i w.log) o →
      machine.exec i e o w.state = some (ans, s') → Recorded initial tiers (w.push i o ans s') :=
    fun hw hlater hcontract hexec => hw.push hlater hcontract (Option.some.inj hexec)
  have hdrop : ∀ {i w}, Recorded initial tiers w →
      Recorded initial tiers { w with state := machine.drop i w.state } :=
    fun hw => ⟨hw.provider, hw.tierTable, hw.answers, hw.followed, hw.stamps, hw.applied, hw.rows⟩
  exact Config.run_inv hstep hdrop body_obeys (fun _ => trivial) hc hw hmeets

theorem stampKept_run (hc : Obeys Any Contract c) (choices : Choices) :
    StampKept c.world (c.run machine body choices).world := by
  have hstep : ∀ {i e o w ans s'}, (fun _ => True) w → (fun _ _ _ => True) i w o →
    Contract (own i w.log) o →
      machine.exec i e o w.state = some (ans, s') → (fun _ => True) (w.push i o ans s') ∧
        StampKept w (w.push i o ans s') := fun _ _ _ hexec =>
          ⟨trivial, exec_stamp (Option.some.inj hexec)⟩
  have hdrop : ∀ {i w}, (fun _ => True) w →
    (fun _ => True) { w with state := machine.drop i w.state } ∧
      StampKept w { w with state := machine.drop i w.state } := fun {_ w} _ =>
        ⟨trivial, StampKept.refl w⟩
  exact (Config.run_keeps hstep hdrop StampKept.refl body_obeys (fun _ => trivial)
    StampKept.trans hc trivial
    (meets_true _ _ _ _)).2.2

end

/-- **Projections never go back in time**, where no read takes the stamp of one that began before a
change. -/
theorem projections_never_go_back (provider : Provider) (payers : List PayerRow)
    (tiers : List TierRow) (clock : Time)
    (choices : Choices) (hstamps : Meets machine body LaterStamp
    (Config.init (start provider payers tiers clock))
      choices) : NeverGoesBack (start provider payers tiers clock) choices := by
  have hrun : ∀ now later, choices = now ++ later →
      Obeys Any Contract (runFrom (start provider payers tiers clock) now) ∧
        Recorded provider tiers (runFrom (start provider payers tiers clock) now).world := by
    rintro now later rfl
    exact recorded_run (obeys_init _) (recorded_start provider payers tiers clock)
      ((meets_append machine body).1 hstamps).1
  refine ⟨fun now later heq => (hrun now later heq).2.oneRead, ?_,
    fun now later heq before change after i hlog hchange
    hbefore ⟨_, _, hfinish⟩ => (hrun now later heq).2.fresh hlog hchange hbefore hfinish⟩
  intro now later rest heq
  rw [runFrom, runFrom, Config.run_append]
  exact stampKept_run (hrun now (later ++ rest) (by rw [heq, append_assoc])).1 later

/-! ## Two reads in one millisecond -/

/-- The subscription of a user, without items. -/
def providerWith (status : String) : Provider where
  subscription :=
    [("customer".toList, .object
      [("id".toList, .string "cus_1".toList), ("metadata".toList, .object
        [("turbopanel_user_id".toList, .string "00000000-0000-4000-8000-000000000001".toList)])]),
      ("status".toList, .string status.toList),
      ("items".toList, .object [("data".toList, .list [])])]
  page _ := ⟨[], false⟩

def up : Env := ⟨true, "p".toList, "s".toList⟩

/-- A projection reads; the provider changes; another projection reads, writes and answers; the
first one writes. -/
def secondWriteIsOlder : Choices :=
  [.call (.projectSubscriptionById none), .step 0 up, .step 0 up,
    .call (.changeProvider (providerWith "canceled")), .step 1 up,
    .call (.projectSubscriptionById none), .step 2 up, .step 2 up, .step 2 up,
      .step 2 up, .step 0 up]

abbrev afterBoth : Config Op Ans State :=
    runFrom (start (providerWith "active") [] [] 0) secondWriteIsOlder

theorem secondWriteIsOlder_log : ∃ after, afterBoth.world.log =
    [⟨0, .readClock, (0 : ℤ)⟩, ⟨0, .getSubscription, some (providerWith "active").subscription⟩] ++
      ⟨1, .changeProvider (providerWith "canceled"), ()⟩ :: after ∧ after.filterMap changedTo = [] ∧
      ⟨2, .finish (.projected "s".toList []), ()⟩ ∈ after :=
  ⟨_, rfl, rfl, .tail _ (.tail _ (.tail _ (.head _)))⟩

theorem secondWriteIsOlder_row : afterBoth.world.state.db.subscription.map (·.providerStatus) =
    some "active".toList := by rfl

theorem providerAfter_of_unchanged (initial : Provider) {before after long rest : Log}
    (hlog : before ++ after = long ++ rest) (hafter : after.filterMap changedTo = [])
    (hlength : before.length ≤ long.length) :
    providerAfter initial long = providerAfter initial before := by
  obtain ⟨more, rfl⟩ := prefix_of_prefix_length_le ⟨after, hlog⟩ ⟨rest, rfl⟩ hlength
  have hmore : more.filterMap changedTo = [] := by
    rw [append_assoc] at hlog
    rw [append_cancel_left hlog, filterMap_append] at hafter
    exact (append_eq_nil_iff.1 hafter).1
  rw [providerAfter, filterMap_append, hmore, append_nil]
  rfl

theorem status_of_projectionWrite {now stamp : Time} {sub : StripeObject} {head : Head}
    {items : List StripeObject}
    (h : projectionWrite now stamp sub head items = some input) : input.status = head.status := by
  rw [projectionWrite] at h
  obtain ⟨periodEnd, -, heq⟩ := bind_eq_some_iff.1 h
  exact (Option.some.inj heq) ▸ rfl

/-- An older read with the stamp of a later one writes over it. -/
theorem equal_stamps_go_back :
    ¬∀ (provider : Provider) (payers : List PayerRow) (tiers : List TierRow) (clock : Time)
    (choices : Choices), NeverGoesBack (start provider payers tiers clock) choices := by
  intro h
  obtain ⟨after, hlog, hunchanged, hfinish⟩ := secondWriteIsOlder_log
  have hfresh := (h (providerWith "active") [] [] 0 secondWriteIsOlder).fresh secondWriteIsOlder []
    (append_nil _).symm
  obtain ⟨before, pass, write, rest, sub, pages, input, hsplit, hn, -,
    ⟨items, head, -, -, hhead, hwrite⟩,
    ⟨done, more, rfl, rfl⟩, -, row, hrow, -, hstatus, -⟩ :=
      hfresh _ _ _ 2 hlog rfl (by simp) ⟨_, _, hfinish⟩
  have hprovider : providerAfter (providerWith "active")
    (before ++ done) = providerWith "canceled" := by
    have hends : ([⟨0, .readClock, (0 : ℤ)⟩,
      ⟨0, .getSubscription, some (providerWith "active").subscription⟩,
        ⟨1, .changeProvider (providerWith "canceled"), ()⟩] : Log) ++ after =
          (before ++ done) ++ (more ++ write :: rest) := by
      simpa only [append_assoc, cons_append, nil_append] using hlog.symm.trans hsplit
    refine (providerAfter_of_unchanged _ hends hunchanged ?_).trans rfl
    rw [length_append]
    exact hn.trans (Nat.le_add_right _ _)
  change readHead (providerAfter (providerWith "active") (before ++ done)).subscription = _ at hhead
  rw [hprovider] at hhead
  have hcanceled : head.status = "canceled".toList := by
    cases hhead
    rfl
  have hactive := secondWriteIsOlder_row
  change afterBoth.world.state.db.subscription = some row at hrow
  rw [hrow, map_some, hstatus, status_of_projectionWrite hwrite, hcanceled] at hactive
  cases hactive

/-- The stamp of an event. -/
def stampOf (ev : Event Op Ans) : Option Time :=
  match ev with
  | ⟨_, .readClock, stamp⟩ => some stamp
  | _ => none

/-- The clock is past every stamp so far. -/
def laterStampCheck (_ : ℕ) (w : World Op Ans State) : Op → Bool
  | .readClock => w.log.all fun ev => (stampOf ev).all fun stamp => decide (stamp < w.state.clock)
  | _ => true

theorem laterStamp_of_check (i : ℕ) (w : World Op Ans State) (o : Op)
    (h : laterStampCheck i w o = true) :
    LaterStamp i w o := by
  cases o with
  | readClock =>
    intro before change after hlog _ j stamp hmem
    have hlater := all_eq_true.1 h ⟨j, .readClock,
      stamp⟩ (by rw [hlog]; exact mem_append_left _ hmem)
    simpa [stampOf] using hlater
  | _ => trivial

/-- The subscription of a user, with one item on a page of its own. -/
def providerWithItem (status : String) (quantity : ℚ) : Provider where
  subscription :=
    [("customer".toList, .object
      [("id".toList, .string "cus_1".toList), ("metadata".toList, .object
        [("turbopanel_user_id".toList, .string "00000000-0000-4000-8000-000000000001".toList)])]),
      ("status".toList, .string status.toList)]
  page _ := ⟨[.object
    [("id".toList, .string "si_1".toList), ("quantity".toList, .number quantity),
      ("price".toList, .object
        [("id".toList, .string "price_1".toList), ("product".toList, .string "prod_1".toList)])]],
          false⟩

/-- A projection reads; the provider and then the tiers change; another projection reads, writes and
answers; the first one is refused, reads again and writes what the other one read. -/
def refusedProjection : Choices :=
  [.call (.projectSubscriptionById none), .step 0 up, .step 0 up, .step 0 up,
    .call (.changeProvider (providerWithItem "past_due" 3)), .step 1 up,
    .call (.changeTiers [⟨"tier_2".toList, some "prod_1".toList⟩]), .step 2 up,
      .call (.wait 1), .step 3 up,
    .call (.projectSubscriptionById none), .step 4 up, .step 4 up, .step 4 up,
      .step 4 up, .step 4 up,
    .step 0 up, .call (.wait 1), .step 5 up, .step 0 up, .step 0 up, .step 0 up,
      .step 0 up, .step 0 up]

/-- The provider and the tiers before the run. -/
abbrev refusedStart : State :=
  start (providerWithItem "active" 2) [] [⟨"tier_1".toList, some "prod_1".toList⟩] 0

theorem projections_never_go_back_refused : NeverGoesBack refusedStart refusedProjection ∧
    (runFrom refusedStart refusedProjection).world.state.db.seats =
      [⟨"tier_2".toList, "si_1".toList, "price_1".toList, 3⟩] :=
  ⟨projections_never_go_back _ _ _ _ _
    (meets_of_checks machine body laterStamp_of_check (by decide +kernel)),
    by decide +kernel⟩

end TurboPanel.StripeProjection
