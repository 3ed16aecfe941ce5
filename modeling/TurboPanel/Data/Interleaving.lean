import TurboPanel.Data.Updates

/-!
# Interleavings of calls on a shared state

A call is a program: a tree of operations on a shared state, where the rest depends on the answer
(`Prog`). An operation is atomic. A run is a list of choices: a call begins, a thread makes its next
operation, with what its environment answers, or a thread dies. The log keeps the operations that
were made, with the threads and the answers.

What a program does is said of its own operations: each of them meets a condition on those the
program made before (`Prog.Sat`), for all answers that there are. In a run, an operation of a thread
then meets it for the part of the log that is the thread's, and an invariant that each such
operation keeps holds in every world that is reached (`Config.run_keeps`).
-/

namespace TurboPanel.Interleaving

open List

/-! ## Since -/

section

variable {α : Type} {p q q' : α → Prop}

/-- There was a `p`, and since then there were only `q`. -/
def Since (p q : α → Prop) (l : List α) : Prop :=
  ∃ before x after, l = before ++ x :: after ∧ p x ∧ ∀ y ∈ after, q y

theorem not_since_nil : ¬Since p q [] := by
  rintro ⟨before, x, after, heq, -⟩
  exact absurd heq.symm (append_ne_nil_of_right_ne_nil _ (cons_ne_nil _ _))

variable {l : List α}

theorem since_concat {x : α} : Since p q (l ++ [x]) ↔ p x ∨ Since p q l ∧ q x := by
  constructor
  · rintro ⟨before, y, after, heq, hy, hafter⟩
    obtain ⟨rfl, rfl, rfl⟩ | ⟨after', rfl, rfl⟩ := concat_eq_append_cons heq
    · exact .inl hy
    · refine .inr ⟨⟨before, y, after', rfl, hy, fun w hw => ?_⟩, ?_⟩
      · exact hafter w (mem_append_left _ hw)
      · exact hafter x (mem_append_right _ mem_cons_self)
  · rintro (hx | ⟨⟨before, y, after, rfl, hy, hafter⟩, hx⟩)
    · exact ⟨l, x, [], rfl, hx, fun _ hy => nomatch hy⟩
    · refine ⟨before, y, after ++ [x], by simp, hy, fun z hz => ?_⟩
      obtain hz | hz := mem_append.1 hz
      · exact hafter z hz
      · exact mem_singleton.1 hz ▸ hx

theorem since_iff_foldl [DecidablePred p] [DecidablePred q] :
    Since p q l ↔ l.foldl (fun held x => decide (p x) || held && decide (q x)) false = true := by
  induction l using List.reverseRecOn with
  | nil => exact iff_of_false not_since_nil Bool.false_ne_true
  | append_singleton l x ih =>
    rw [since_concat, ih, foldl_append, foldl_cons, foldl_nil, Bool.or_eq_true, Bool.and_eq_true,
      decide_eq_true_iff, decide_eq_true_iff]

instance [DecidablePred p] [DecidablePred q] (l : List α) : Decidable (Since p q l) :=
  decidable_of_iff _ since_iff_foldl.symm

theorem Since.append {l' : List α} (h : Since p q l) (hl' : ∀ x ∈ l', q x) : Since p q (l ++ l') := by
  obtain ⟨before, x, after, rfl, hx, hafter⟩ := h
  refine ⟨before, x, after ++ l', by simp, hx, fun y hy => ?_⟩
  exact (mem_append.1 hy).elim (hafter y) (hl' y)

variable {p' : α → Prop}

theorem Since.mono (hp : ∀ x, p x → p' x) (hq : ∀ x, q x → q' x) (h : Since p q l) : Since p' q' l := by
  obtain ⟨before, x, after, heq, hx, hafter⟩ := h
  exact ⟨before, x, after, heq, hp x hx, fun y hy => hq y (hafter y hy)⟩

theorem Since.prepend {l' : List α} (h : Since p q l) : Since p q (l' ++ l) := by
  obtain ⟨before, x, after, rfl, hx, hafter⟩ := h
  exact ⟨l' ++ before, x, after, (append_assoc _ _ _).symm, hx, hafter⟩

theorem Since.mem_mono (h : Since p q l) (hp : ∀ x ∈ l, p x → p' x) : Since p' q l := by
  obtain ⟨before, x, after, rfl, hx, hafter⟩ := h
  exact ⟨before, x, after, rfl, hp x (mem_append_right _ mem_cons_self) hx, hafter⟩

theorem Since.and (h : Since p q l) (h' : Since p q' l) : Since p (fun x => q x ∧ q' x) l := by
  induction l using List.reverseRecOn with
  | nil => exact absurd h not_since_nil
  | append_singleton l x ih =>
    rw [since_concat] at h h' ⊢
    obtain hx | ⟨h, hx⟩ := h
    · exact .inl hx
    · obtain hx' | ⟨h', hx'⟩ := h'
      · exact .inl hx'
      · exact .inr ⟨ih h h', hx, hx'⟩

theorem Since.and_of_last (h : Since p q l) (h' : Since p' q' l)
    (hlast : ∀ x, q x → ¬p' x) : Since p (fun x => q x ∧ q' x) l := by
  induction l using List.reverseRecOn with
  | nil => exact absurd h not_since_nil
  | append_singleton l x ih =>
    rw [since_concat] at h h' ⊢
    obtain hx | ⟨h, hx⟩ := h
    · exact .inl hx
    · obtain hx' | ⟨h', hx'⟩ := h'
      · exact absurd hx' (hlast x hx)
      · exact .inr ⟨ih h h', hx, hx'⟩

end

/-! ## Programs -/

/-- A program: its result, or an operation and the rest for each answer. -/
inductive Prog (Op : Type) (Ans : Op → Type) (α : Type) : Type where
  | pure (a : α)
  | op (o : Op) (next : Ans o → Prog Op Ans α)

/-- The operations that were made, with their answers. -/
abbrev Trace (Op : Type) (Ans : Op → Type) := List ((o : Op) × Ans o)

namespace Prog

variable {Op : Type} {Ans : Op → Type} {α β σ : Type}

def bind : Prog Op Ans α → (α → Prog Op Ans β) → Prog Op Ans β
  | .pure a, f => f a
  | .op o next, f => .op o fun ans => (next ans).bind f

instance : Monad (Prog Op Ans) where
  pure := Prog.pure
  bind := Prog.bind

/-- The program that makes one operation. -/
def call (o : Op) : Prog Op Ans (Ans o) := .op o .pure

/-- One after the other, for each element, with what was gathered so far. -/
def foldEach (f : σ → β → Prog Op Ans σ) : List β → σ → Prog Op Ans σ
  | [], acc => .pure acc
  | b :: l, acc => (f acc b).bind fun acc => foldEach f l acc

/-! ## What a program does -/

/-- Every operation that the program may make meets `A`, and every result `Q`. -/
def Only (A : Op → Prop) (Q : α → Prop) : Prog Op Ans α → Prop
  | .pure a => Q a
  | .op o next => A o ∧ ∀ ans, (next ans).Only A Q

/-- Every operation that the program may make meets `P`, after those that it made before, and every
result `Q`, where the answers are such as `V` says. -/
def Sat (V : (o : Op) → Ans o → Prop) (P : Trace Op Ans → Op → Prop) (Q : Trace Op Ans → α → Prop) :
    Prog Op Ans α → Trace Op Ans → Prop
  | .pure a, h => Q h a
  | .op o next, h => P h o ∧ ∀ ans, V o ans → (next ans).Sat V P Q (h ++ [⟨o, ans⟩])

section

variable {A : Op → Prop} {Q : α → Prop} {R : β → Prop}

theorem Only.bind {p : Prog Op Ans α} (hp : p.Only A Q) {f : α → Prog Op Ans β}
    (hf : ∀ a, Q a → (f a).Only A R) : (p >>= f).Only A R := by
  induction p with
  | pure a => exact hf a hp
  | op o next ih => exact ⟨hp.1, fun ans => ih ans (hp.2 ans)⟩

theorem only_foldEach {f : σ → β → Prog Op Ans σ} {I : σ → Prop} {l : List β} {acc : σ}
    (hacc : I acc) (hf : ∀ acc b, b ∈ l → I acc → (f acc b).Only A I) : (foldEach f l acc).Only A I := by
  induction l generalizing acc with
  | nil => exact hacc
  | cons b l ih =>
    refine (hf acc b mem_cons_self hacc).bind fun acc hacc => ?_
    exact ih hacc fun acc b hb => hf acc b (mem_cons_of_mem _ hb)

end

section

variable {V : (o : Op) → Ans o → Prop} {P : Trace Op Ans → Op → Prop} {Q : Trace Op Ans → α → Prop}
  {R : Trace Op Ans → β → Prop} {h : Trace Op Ans}

variable {p : Prog Op Ans α}

theorem Sat.bind (hp : p.Sat V P Q h) {f : α → Prog Op Ans β}
    (hf : ∀ h a, Q h a → (f a).Sat V P R h) : (p >>= f).Sat V P R h := by
  induction p generalizing h with
  | pure a => exact hf h a hp
  | op o next ih => exact ⟨hp.1, fun ans hans => ih ans (hp.2 ans hans)⟩

@[simp] theorem sat_call_bind {o : Op} {f : Ans o → Prog Op Ans β} : (call o >>= f).Sat V P R h ↔
    P h o ∧ ∀ ans, V o ans → (f ans).Sat V P R (h ++ [⟨o, ans⟩]) := Iff.rfl

theorem Sat.mono {Q' : Trace Op Ans → α → Prop} (hQ : ∀ h a, Q h a → Q' h a)
    (hp : p.Sat V P Q h) : p.Sat V P Q' h := by
  induction p generalizing h with
  | pure a => exact hQ h a hp
  | op o next ih => exact ⟨hp.1, fun ans hans => ih ans (hp.2 ans hans)⟩

theorem Sat.grows (hp : p.Sat V P Q h) : p.Sat V P (fun h' a => Q h' a ∧ h <+: h') h := by
  induction p generalizing h with
  | pure a => exact ⟨hp, prefix_rfl⟩
  | op o next ih =>
    refine ⟨hp.1, fun ans hans => (ih ans (hp.2 ans hans)).mono fun h' a hh' => ⟨hh'.1, ?_⟩⟩
    exact (prefix_append _ _).trans hh'.2

theorem sat_foldEach {f : σ → β → Prog Op Ans σ} {I : Trace Op Ans → σ → Prop} {l : List β} {acc : σ}
    (hacc : I h acc) (hf : ∀ h acc b, b ∈ l → I h acc → (f acc b).Sat V P I h) :
    (foldEach f l acc).Sat V P I h := by
  induction l generalizing acc h with
  | nil => exact hacc
  | cons b l ih =>
    refine (hf h acc b mem_cons_self hacc).bind fun h acc hacc => ?_
    exact ih hacc fun h acc b hb => hf h acc b (mem_cons_of_mem _ hb)

/-- **Frame.** A program that is judged by its operations alone keeps a fact about the trace that
these operations keep. -/
theorem Only.sat {A : Op → Prop} {Q : α → Prop} {K : Trace Op Ans → Prop}
    (hP : ∀ h o, A o → K h → P h o) (hK : ∀ h o ans, A o → K h → K (h ++ [⟨o, ans⟩]))
    (hp : p.Only A Q) (hh : K h) : p.Sat V P (fun h a => K h ∧ Q a) h := by
  induction p generalizing h with
  | pure a => exact ⟨hh, hp⟩
  | op o next ih => exact ⟨hP h o hp.1 hh, fun ans _ => ih ans (hp.2 ans) (hK h o ans hp.1 hh)⟩

end

end Prog

/-! ## Runs -/

section

variable (Op : Type) (Ans : Op → Type) (State Env Call : Type)

/-- What an operation does: its answer and the state after it, from the thread that makes it and
what the environment answers. An operation that fails has neither, and its thread goes no further.
-/
structure Machine where
  exec : ℕ → Env → (o : Op) → State → Option (Ans o × State)
  /-- What the death of a thread does to the state. -/
  drop : ℕ → State → State

/-- An operation that was made. -/
structure Event where
  thread : ℕ
  op : Op
  ans : Ans op

structure World where
  state : State
  log : List (Event Op Ans)

structure Config where
  world : World Op Ans State
  threads : List (Prog Op Ans Unit)

/-- What happens next: a call begins, a thread makes its next operation, or it dies. -/
inductive Choice where
  | call (x : Call)
  | step (i : ℕ) (e : Env)
  | crash (i : ℕ)

end

variable {Op : Type} {Ans : Op → Type} {State Env Call : Type}

/-- The part of the log that is a thread's. -/
def own (i : ℕ) (log : List (Event Op Ans)) : Trace Op Ans :=
  (log.filter fun ev => decide (ev.thread = i)).map fun ev => ⟨ev.op, ev.ans⟩

theorem own_append (i : ℕ) (log log' : List (Event Op Ans)) :
    own i (log ++ log') = own i log ++ own i log' := by
  rw [own, own, own, filter_append, map_append]

theorem own_self (i : ℕ) (o : Op) (ans : Ans o) : own i [⟨i, o, ans⟩] = [⟨o, ans⟩] := by
  rw [own, filter_cons_of_pos (by simp)]
  rfl

variable {i : ℕ}

theorem own_of_ne {j : ℕ} (h : j ≠ i) (o : Op) (ans : Ans o) : own i [⟨j, o, ans⟩] = [] := by
  rw [own, filter_cons_of_neg (by simpa using h)]
  rfl

variable {log : List (Event Op Ans)} {c : Config Op Ans State}

theorem own_eq_nil (h : ∀ ev ∈ log, ev.thread ≠ i) : own i log = [] := by
  rw [own, filter_eq_nil_iff.2 fun ev hev => by simpa using h ev hev, map_nil]

theorem mem_own {o : Op} {ans : Ans o} : ⟨o, ans⟩ ∈ own i log ↔ ⟨i, o, ans⟩ ∈ log := by
  rw [own, mem_map]
  constructor
  · rintro ⟨⟨j, o', ans'⟩, hev, heq⟩
    obtain ⟨hmem, hj⟩ := mem_filter.1 hev
    obtain rfl := of_decide_eq_true hj
    cases heq
    exact hmem
  · exact fun hmem => ⟨⟨i, o, ans⟩, mem_filter.2 ⟨hmem, decide_eq_true rfl⟩, rfl⟩

theorem own_eq_append {before after : Trace Op Ans} (h : own i log = before ++ after) :
    ∃ log₁ log₂, log = log₁ ++ log₂ ∧ own i log₁ = before ∧ own i log₂ = after := by
  rw [own, map_eq_append_iff] at h
  obtain ⟨l₁, l₂, hfilter, hbefore, hafter⟩ := h
  obtain ⟨log₁, log₂, rfl, rfl, rfl⟩ := filter_eq_append_iff.1 hfilter
  exact ⟨log₁, log₂, rfl, hbefore, hafter⟩

theorem own_eq_cons {o : Op} {ans : Ans o} {rest : Trace Op Ans} (h : own i log = ⟨o, ans⟩ :: rest) :
    ∃ skip log', log = skip ++ ⟨i, o, ans⟩ :: log' ∧ own i log' = rest := by
  rw [own, map_eq_cons_iff] at h
  obtain ⟨⟨j, o', ans'⟩, tail, hfilter, hev, htail⟩ := h
  obtain ⟨skip, log', rfl, -, hj, rfl⟩ := filter_eq_cons_iff.1 hfilter
  obtain rfl := of_decide_eq_true hj
  cases hev
  exact ⟨skip, log', rfl, htail⟩

theorem own_getLast? {before after : List (Event Op Ans)} {ev : Event Op Ans}
    (hafter : ∀ ev' ∈ after, ev'.thread ≠ ev.thread) :
    (own ev.thread (before ++ ev :: after)).getLast? = some ⟨ev.op, ev.ans⟩ := by
  rw [← singleton_append, own_append, own_append, own_eq_nil hafter, append_nil, own_self]
  exact List.getLast?_concat

theorem since_of_own {p q : (o : Op) × Ans o → Prop} (h : Since p q (own i log)) :
    Since (fun ev => ev.thread = i ∧ p ⟨ev.op, ev.ans⟩)
      (fun ev => ev.thread = i → q ⟨ev.op, ev.ans⟩) log := by
  induction log using List.reverseRecOn with
  | nil => exact absurd h not_since_nil
  | append_singleton log ev ih =>
    obtain ⟨j, o, ans⟩ := ev
    rw [since_concat]
    rw [own_append] at h
    by_cases hj : j = i
    · subst hj
      rw [own_self, since_concat] at h
      obtain hp | ⟨h, hq⟩ := h
      · exact .inl ⟨rfl, hp⟩
      · exact .inr ⟨ih h, fun _ => hq⟩
    · rw [own_of_ne hj, append_nil] at h
      exact .inr ⟨ih h, fun hi => absurd hi hj⟩

/-- Each event of the log met the contract of its thread. -/
def Followed (P : Trace Op Ans → Op → Prop) (log : List (Event Op Ans)) : Prop :=
  ∀ before ev after, log = before ++ ev :: after → P (own ev.thread before) ev.op

variable {P : Trace Op Ans → Op → Prop}

theorem followed_nil : Followed P [] := by
  intro before ev after heq
  exact absurd heq.symm (append_ne_nil_of_right_ne_nil _ (cons_ne_nil _ _))

theorem Followed.concat (h : Followed P log) {o : Op} {ans : Ans o}
    (ho : P (own i log) o) : Followed P (log ++ [⟨i, o, ans⟩]) := by
  intro before ev after heq
  obtain ⟨-, rfl, rfl⟩ | ⟨after', -, hlog⟩ := concat_eq_append_cons heq
  · exact ho
  · exact h before ev after' hlog

def World.push (w : World Op Ans State) (i : ℕ) (o : Op) (ans : Ans o) (s : State) :
    World Op Ans State :=
  ⟨s, w.log ++ [⟨i, o, ans⟩]⟩

/-- The configuration in which no call has begun. -/
def Config.init (s : State) : Config Op Ans State := ⟨⟨s, []⟩, []⟩

section

variable (M : Machine Op Ans State Env) (body : Call → Prog Op Ans Unit)

/-- The configuration after a choice; one that is not possible changes nothing. -/
def Config.next (c : Config Op Ans State) : Choice Env Call → Config Op Ans State
  | .call x => { c with threads := c.threads ++ [body x] }
  | .step i e =>
    match c.threads[i]? with
    | some (.op o next) =>
      match M.exec i e o c.world.state with
      | some (ans, s) => ⟨c.world.push i o ans s, c.threads.set i (next ans)⟩
      | none => c
    | _ => c
  | .crash i => ⟨{ c.world with state := M.drop i c.world.state }, c.threads.set i (.pure ())⟩

def Config.run (c : Config Op Ans State) (choices : List (Choice Env Call)) : Config Op Ans State :=
  choices.foldl (Config.next M body) c

/-- Each operation of the run meets `ok`, which speaks of the thread, the world before it and the
operation. -/
def Meets (ok : ℕ → World Op Ans State → Op → Prop) :
    Config Op Ans State → List (Choice Env Call) → Prop
  | _, [] => True
  | c, choice :: rest =>
    (∀ i e o next, choice = .step i e → c.threads[i]? = some (.op o next) → ok i c.world o) ∧
      Meets ok (c.next M body choice) rest

theorem Config.run_append (c : Config Op Ans State) (l l' : List (Choice Env Call)) :
    c.run M body (l ++ l') = (c.run M body l).run M body l' := foldl_append

variable {ok : ℕ → World Op Ans State → Op → Prop}

theorem meets_append {c : Config Op Ans State}
    {l l' : List (Choice Env Call)} : Meets M body ok c (l ++ l') ↔
      Meets M body ok c l ∧ Meets M body ok (c.run M body l) l' := by
  induction l generalizing c with
  | nil => exact (and_iff_right trivial).symm
  | cons choice l ih =>
    rw [cons_append, Meets, Meets, ih, and_assoc]
    rfl

theorem meets_true (c : Config Op Ans State) (l : List (Choice Env Call)) :
    Meets M body (fun _ _ _ => True) c l := by
  induction l generalizing c with
  | nil => trivial
  | cons choice l ih => exact ⟨fun _ _ _ _ _ _ => trivial, ih _⟩

theorem meets_call {c : Config Op Ans State} {x : Call}
    {rest : List (Choice Env Call)} (h : Meets M body ok (c.next M body (.call x)) rest) :
    Meets M body ok c (.call x :: rest) :=
  ⟨fun _ _ _ _ hstep => (nomatch hstep), h⟩

theorem meets_step {c : Config Op Ans State} {i : ℕ} {e : Env}
    {o : Op} {next : Ans o → Prog Op Ans Unit} {rest : List (Choice Env Call)}
    (hthread : c.threads[i]? = some (.op o next)) (hok : ok i c.world o)
    (h : Meets M body ok (c.next M body (.step i e)) rest) : Meets M body ok c (.step i e :: rest) := by
  refine ⟨fun i' e' o' next' hstep hthread' => ?_, h⟩
  cases hstep
  obtain ⟨rfl, -⟩ := Prog.op.inj (Option.some.inj (hthread.symm.trans hthread'))
  exact hok

/-- A test of each operation of the run, which a run of fixed choices passes by computation. -/
def checks (check : ℕ → World Op Ans State → Op → Bool) :
    Config Op Ans State → List (Choice Env Call) → Bool
  | _, [] => true
  | c, choice :: rest =>
    (match choice with
      | .step i _ =>
        match c.threads[i]? with
        | some (.op o _) => check i c.world o
        | _ => true
      | _ => true) && checks check (c.next M body choice) rest

theorem meets_of_checks {check : ℕ → World Op Ans State → Op → Bool}
    (hcheck : ∀ i w o, check i w o = true → ok i w o) {c : Config Op Ans State} {choices : List (Choice Env Call)}
    (h : checks M body check c choices = true) : Meets M body ok c choices := by
  induction choices generalizing c with
  | nil => trivial
  | cons choice rest ih =>
    obtain ⟨hhead, hrest⟩ := Bool.and_eq_true_iff.1 h
    refine ⟨fun i e o next hstep hthread => hcheck i _ o ?_, ih hrest⟩
    subst hstep
    simpa only [hthread] using hhead

theorem Config.run_event {c : Config Op Ans State} {choices : List (Choice Env Call)} {ev : Event Op Ans}
    (hev : ev ∈ (c.run M body choices).world.log) : ev ∈ c.world.log ∨ ∃ before i e after s,
      choices = before ++ .step i e :: after ∧
        M.exec i e ev.op (c.run M body before).world.state = some (ev.ans, s) := by
  induction choices using List.reverseRecOn with
  | nil => exact .inl hev
  | append_singleton choices choice ih =>
    have hearlier : ev ∈ (c.run M body choices).world.log → ev ∈ c.world.log ∨ ∃ before i e after s,
        choices ++ [choice] = before ++ .step i e :: after ∧
          M.exec i e ev.op (c.run M body before).world.state = some (ev.ans, s) := by
      intro hlog
      obtain hlog | ⟨before, i, e, after, s, rfl, hexec⟩ := ih hlog
      · exact .inl hlog
      · exact .inr ⟨before, i, e, after ++ [choice], s, by simp, hexec⟩
    rw [Config.run_append] at hev
    change ev ∈ ((c.run M body choices).next M body choice).world.log at hev
    cases choice with
    | call x => exact hearlier hev
    | crash i => exact hearlier hev
    | step i e =>
      rw [Config.next] at hev
      split at hev
      · split at hev
        · rename_i hexec
          rcases mem_append.1 hev with hev | hev
          · exact hearlier hev
          · obtain rfl := mem_singleton.1 hev
            exact .inr ⟨choices, i, e, [], _, rfl, hexec⟩
        · exact hearlier hev
      · exact hearlier hev

end

/-! ## A program alone -/

section

variable {α β σ : Type} (M : Machine Op Ans State Env) (i : ℕ)

/-- The program, alone on the state, may end with this result and in this state. -/
inductive Prog.Runs : Prog Op Ans α → State → α → State → Prop where
  | pure (a : α) (s : State) : Prog.Runs (.pure a) s a s
  | op {o : Op} {next : Ans o → Prog Op Ans α} {e : Env} {ans : Ans o} {s s' s'' : State} {a : α}
      (hexec : M.exec i e o s = some (ans, s')) (hnext : Prog.Runs (next ans) s' a s'') :
      Prog.Runs (.op o next) s a s''

/-- The program, alone on the state, does not get stuck, and it ends in `Q`, whatever the
environment answers. -/
def Prog.Ends (Q : α → State → Prop) : Prog Op Ans α → State → Prop
  | .pure a, s => Q a s
  | .op o next, s => (∃ e ans s', M.exec i e o s = some (ans, s')) ∧
      ∀ e ans s', M.exec i e o s = some (ans, s') → Prog.Ends Q (next ans) s'

variable {M i} {Q : α → State → Prop} {R : β → State → Prop}

variable {p : Prog Op Ans α} {s : State}

theorem Prog.Ends.runs (h : p.Ends M i Q s) : ∃ a s', p.Runs M i s a s' := by
  induction p generalizing s with
  | pure a => exact ⟨a, s, .pure a s⟩
  | op o next ih =>
    obtain ⟨⟨e, ans, s', hexec⟩, hnext⟩ := h
    obtain ⟨a, s'', hruns⟩ := ih ans (hnext e ans s' hexec)
    exact ⟨a, s'', .op hexec hruns⟩

theorem Prog.Runs.ends {s' : State} {a : α} (hruns : p.Runs M i s a s')
    (h : p.Ends M i Q s) : Q a s' := by
  induction hruns with
  | pure a s => exact h
  | op hexec _ ih => exact ih (h.2 _ _ _ hexec)

theorem Prog.Ends.mono {Q' : α → State → Prop} (hQ : ∀ a s, Q a s → Q' a s)
    (h : p.Ends M i Q s) : p.Ends M i Q' s := by
  induction p generalizing s with
  | pure a => exact hQ a s h
  | op o next ih => exact ⟨h.1, fun e ans s' hexec => ih ans (h.2 e ans s' hexec)⟩

theorem Prog.Ends.bind (h : p.Ends M i Q s) {f : α → Prog Op Ans β}
    (hf : ∀ a s, Q a s → (f a).Ends M i R s) : (p >>= f).Ends M i R s := by
  induction p generalizing s with
  | pure a => exact hf a s h
  | op o next ih => exact ⟨h.1, fun e ans s' hexec => ih ans (h.2 e ans s' hexec)⟩

theorem Prog.ends_call_bind {o : Op} {f : Ans o → Prog Op Ans β} :
    (Prog.call o >>= f).Ends M i R s ↔ (∃ e ans s', M.exec i e o s = some (ans, s')) ∧
      ∀ e ans s', M.exec i e o s = some (ans, s') → (f ans).Ends M i R s' := Iff.rfl

/-- **A program that only reads.** What it gives alone on a state, it gives whenever its answers are
those of that state, whatever the states were in which it got them. -/
theorem Prog.Ends.sat_of_reads {V : (o : Op) → Ans o → Prop} {P : Trace Op Ans → Op → Prop} {A : Op → Prop}
    {K : Trace Op Ans → Prop} (hA : ∀ o, A o → ∀ e ans s', M.exec i e o s = some (ans, s') → s' = s)
    (hP : ∀ h o, A o → K h → P h o) (hK : ∀ h o ans, A o → K h → K (h ++ [⟨o, ans⟩]))
    (hends : p.Ends M i Q s) (honly : p.Only A fun _ => True) {h : Trace Op Ans}
    (hh : K h) : p.Sat V P (fun h' a => K h' ∧
      ((∀ ev ∈ h', A ev.1 → ∃ e s', M.exec i e ev.1 s = some (ev.2, s')) → Q a s)) h := by
  induction p generalizing h with
  | pure a => exact ⟨hh, fun _ => hends⟩
  | op o next ih =>
    refine ⟨hP h o honly.1 hh, fun ans _ => ?_⟩
    by_cases hans : ∃ e s', M.exec i e o s = some (ans, s')
    · obtain ⟨e, s', hexec⟩ := hans
      have hnext := hends.2 e ans s' hexec
      rw [hA o honly.1 e ans s' hexec] at hnext
      exact ih ans hnext (honly.2 ans) (hK h o ans honly.1 hh)
    · -- The answer is not one of the state: nothing is said of the result.
      have hframe : (next ans).Sat V P (fun h' _ => (K h' ∧ ⟨o, ans⟩ ∈ h') ∧ True) (h ++ [⟨o, ans⟩]) :=
        (honly.2 ans).sat (fun h' o' ho' hh' => hP h' o' ho' hh'.1)
          (fun h' o' ans' ho' hh' => ⟨hK h' o' ans' ho' hh'.1, mem_append_left _ hh'.2⟩)
          ⟨hK h o ans honly.1 hh, mem_append_right _ mem_cons_self⟩
      refine hframe.mono fun h' a hh' => ⟨hh'.1.1, fun hall => ?_⟩
      exact absurd (hall ⟨o, ans⟩ hh'.1.2 honly.1) hans

end

/-! ## What every run keeps -/

/-- The rest of each thread meets the contract, after what the thread made before. -/
structure Obeys (V : (o : Op) → Ans o → Prop) (P : Trace Op Ans → Op → Prop)
    (c : Config Op Ans State) : Prop where
  known : ∀ ev ∈ c.world.log, ev.thread < c.threads.length
  threads : ∀ (i : ℕ) (p : Prog Op Ans Unit), c.threads[i]? = some p →
    p.Sat V P (fun _ _ => True) (own i c.world.log)

/-- The rest of each thread meets the contract and ends as `Q` says, after what the thread made
before. -/
structure Promises (V : (o : Op) → Ans o → Prop) (P : Trace Op Ans → Op → Prop)
    (Q : Trace Op Ans → Unit → Prop) (c : Config Op Ans State) : Prop where
  known : ∀ ev ∈ c.world.log, ev.thread < c.threads.length
  threads : ∀ (i : ℕ) (p : Prog Op Ans Unit), c.threads[i]? = some p → p.Sat V P Q (own i c.world.log)

variable {Q : Trace Op Ans → Unit → Prop}

theorem Promises.obeys {V : (o : Op) → Ans o → Prop} (h : Promises V P Q c) : Obeys V P c :=
  ⟨h.known, fun i p hp => (h.threads i p hp).mono fun _ _ _ => trivial⟩

theorem Obeys.promises {V : (o : Op) → Ans o → Prop} (h : Obeys V P c) :
    Promises V P (fun _ _ => True) c :=
  ⟨h.known, h.threads⟩

theorem promises_init {V : (o : Op) → Ans o → Prop}
    (s : State) : Promises V P Q (Config.init s : Config Op Ans State) where
  known _ hev := nomatch hev
  threads _ _ hp := nomatch hp

/-- All calls have ended. -/
def Config.Finished (c : Config Op Ans State) : Prop := ∀ p ∈ c.threads, p = .pure ()

theorem Promises.ended {V : (o : Op) → Ans o → Prop}
    (h : Promises V P Q c) (hfinished : c.Finished) (hi : own i c.world.log ≠ []) :
    Q (own i c.world.log) () := by
  have hlt : i < c.threads.length := by
    obtain ⟨⟨o, ans⟩, hev⟩ := exists_mem_of_ne_nil _ hi
    exact h.known _ (mem_own.1 hev)
  have hsat := h.threads i _ (List.getElem?_eq_getElem hlt)
  rw [hfinished _ (getElem_mem hlt)] at hsat
  exact hsat

theorem obeys_init {V : (o : Op) → Ans o → Prop} (s : State) :
    Obeys V P (Config.init s : Config Op Ans State) where
  known _ hev := nomatch hev
  threads _ _ hp := nomatch hp

section

variable {M : Machine Op Ans State Env} {body : Call → Prog Op Ans Unit}
  {V : (o : Op) → Ans o → Prop} {P : Trace Op Ans → Op → Prop}
  {ok : ℕ → World Op Ans State → Op → Prop} {inv : World Op Ans State → Prop}
  {rel : World Op Ans State → World Op Ans State → Prop}

variable {c : Config Op Ans State} {choices : List (Choice Env Call)}

theorem Promises.call {Q : Trace Op Ans → Unit → Prop} {x : Call} (hbody : (body x).Sat V P Q [])
    (hc : Promises V P Q c) : Promises V P Q (c.next M body (.call x)) := by
  refine ⟨fun ev hev => (hc.known ev hev).trans_le (by simp [Config.next]), fun i p hp => ?_⟩
  rw [Config.next, List.getElem?_append] at hp
  split at hp
  · exact hc.threads i p hp
  · rename_i hlt
    rw [List.getElem?_singleton] at hp
    split at hp
    · refine Option.some.inj hp ▸ ?_
      have hnew : own i c.world.log = [] := own_eq_nil fun ev hev heq => by
        have := hc.known ev hev
        omega
      exact hnew ▸ hbody
    · cases hp

theorem Promises.step {Q : Trace Op Ans → Unit → Prop}
    (hV : ∀ {i e o s ans s'}, M.exec i e o s = some (ans, s') → V o ans)
    {c : Config Op Ans State} (hc : Promises V P Q c) (i : ℕ) (e : Env) :
    Promises V P Q (c.next M body (.step i e)) := by
  rw [Config.next]
  split
  · rename_i o next hthread
    split
    · rename_i ans s hexec
      have hlt : i < c.threads.length := (List.getElem?_eq_some_iff.1 hthread).1
      refine ⟨fun ev hev => ?_, fun j p hp => ?_⟩
      · rw [length_set]
        obtain hev | hev := mem_append.1 hev
        · exact hc.known ev hev
        · rw [mem_singleton.1 hev]
          exact hlt
      · rw [World.push, own_append]
        rw [List.getElem?_set] at hp
        split at hp
        · rename_i hij
          subst hij
          rw [own_self]
          exact Option.some.inj hp ▸ (hc.threads i _ hthread).2 ans (hV hexec)
        · rename_i hij
          rw [own_of_ne hij, append_nil]
          exact hc.threads j p hp
    · exact hc
  · exact hc

theorem Obeys.next (hbody : ∀ x, (body x).Sat V P (fun _ _ => True) [])
    (hV : ∀ {i e o s ans s'}, M.exec i e o s = some (ans, s') → V o ans)
    {c : Config Op Ans State} (hc : Obeys V P c) (choice : Choice Env Call) :
    Obeys V P (c.next M body choice) := by
  cases choice with
  | call x => exact (hc.promises.call (hbody x)).obeys
  | step i e => exact (hc.promises.step hV i e).obeys
  | crash i =>
    refine ⟨fun ev hev => ?_, fun j p hp => ?_⟩
    · rw [Config.next, length_set]
      exact hc.known ev hev
    · rw [Config.next, List.getElem?_set] at hp
      split at hp
      · split at hp
        · exact Option.some.inj hp ▸ trivial
        · cases hp
      · exact hc.threads j p hp

/-- **What a call does until it ends**, it has done in every run in which none dies, once it has
ended. -/
theorem Config.run_promises {Q : Trace Op Ans → Unit → Prop} (hbody : ∀ x, (body x).Sat V P Q [])
    (hV : ∀ {i e o s ans s'}, M.exec i e o s = some (ans, s') → V o ans) (hc : Promises V P Q c)
    (hcrash : ∀ i, Choice.crash i ∉ choices) : Promises V P Q (c.run M body choices) := by
  induction choices generalizing c with
  | nil => exact hc
  | cons choice rest ih =>
    refine ih ?_ fun i hi => hcrash i (mem_cons_of_mem _ hi)
    cases choice with
    | call x => exact hc.call (hbody x)
    | step i e => exact hc.step hV i e
    | crash i => exact absurd mem_cons_self (hcrash i)

variable (hstep : ∀ {i e o w ans s}, inv w → ok i w o → P (own i w.log) o →
    M.exec i e o w.state = some (ans, s) → inv (w.push i o ans s) ∧ rel w (w.push i o ans s))
  (hdrop : ∀ {i w}, inv w → inv { w with state := M.drop i w.state } ∧
    rel w { w with state := M.drop i w.state })
  (hrefl : ∀ w, rel w w)

include hstep hdrop hrefl

theorem Config.next_keeps (hc : Obeys V P c) (hinv : inv c.world) {choice : Choice Env Call}
    (hmeets : ∀ i e o next, choice = .step i e → c.threads[i]? = some (.op o next) → ok i c.world o) :
    inv (c.next M body choice).world ∧ rel c.world (c.next M body choice).world := by
  cases choice with
  | call x => exact ⟨hinv, hrefl _⟩
  | step i e =>
    rw [Config.next]
    split
    · rename_i o next hthread
      split
      · rename_i ans s hexec
        exact hstep hinv (hmeets i e o next rfl hthread) (hc.threads i _ hthread).1 hexec
      · exact ⟨hinv, hrefl _⟩
    · exact ⟨hinv, hrefl _⟩
  | crash i => exact hdrop hinv

section

variable (hbody : ∀ x, (body x).Sat V P (fun _ _ => True) [])
  (hV : ∀ {i e o s ans s'}, M.exec i e o s = some (ans, s') → V o ans)
  (htrans : ∀ {w₁ w₂ w₃}, rel w₁ w₂ → rel w₂ w₃ → rel w₁ w₃) (hc : Obeys V P c)
  (hinv : inv c.world)
include hbody hV htrans hc hinv

/-- **What each operation of a contract keeps holds in every run**: an invariant of the world, and a
relation between the worlds before and after. -/
theorem Config.run_keeps (hmeets : Meets M body ok c choices) :
    Obeys V P (c.run M body choices) ∧ inv (c.run M body choices).world ∧
      rel c.world (c.run M body choices).world := by
  induction choices generalizing c with
  | nil => exact ⟨hc, hinv, hrefl _⟩
  | cons choice rest ih =>
    obtain ⟨hinv', hrel⟩ := Config.next_keeps hstep hdrop hrefl hc hinv hmeets.1
    obtain ⟨hobeys, hinv'', hrel'⟩ := ih (hc.next hbody hV choice) hinv' hmeets.2
    exact ⟨hobeys, hinv'', htrans hrel hrel'⟩

theorem Config.run_keeps_between
    {before after : List (Choice Env Call)} (hmeets : Meets M body ok c (before ++ after)) :
    rel (c.run M body before).world (c.run M body (before ++ after)).world := by
  obtain ⟨hbefore, hafter⟩ := (meets_append M body).1 hmeets
  obtain ⟨hc', hinv', -⟩ := Config.run_keeps hstep hdrop hrefl hbody hV htrans hc hinv hbefore
  rw [Config.run_append]
  exact (Config.run_keeps hstep hdrop hrefl hbody hV htrans hc' hinv' hafter).2.2

end

omit hstep hdrop hrefl in
/-- **What each operation of a contract keeps is an invariant of every run.** -/
theorem Config.run_inv
    (hstep : ∀ {i e o w ans s}, inv w → ok i w o → P (own i w.log) o → M.exec i e o w.state = some (ans, s) →
      inv (w.push i o ans s))
    (hdrop : ∀ {i w}, inv w → inv { w with state := M.drop i w.state })
    (hbody : ∀ x, (body x).Sat V P (fun _ _ => True) [])
    (hV : ∀ {i e o s ans s'}, M.exec i e o s = some (ans, s') → V o ans) (hc : Obeys V P c) (hinv : inv c.world)
    (hmeets : Meets M body ok c choices) :
    Obeys V P (c.run M body choices) ∧ inv (c.run M body choices).world := by
  have hstep' : ∀ {i e o w ans s}, inv w → ok i w o → P (own i w.log) o →
      M.exec i e o w.state = some (ans, s) → inv (w.push i o ans s) ∧ True :=
    fun hinv hok hP hexec => ⟨hstep hinv hok hP hexec, trivial⟩
  obtain ⟨hobeys, hinv, -⟩ := Config.run_keeps hstep' (fun hinv => ⟨hdrop hinv, trivial⟩)
    (fun _ => trivial) hbody hV (fun _ _ => trivial) hc hinv hmeets
  exact ⟨hobeys, hinv⟩

end

end TurboPanel.Interleaving
