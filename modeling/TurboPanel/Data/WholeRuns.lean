import TurboPanel.Data.Interleaving

/-!
# Programs that run alone

A program runs alone when no other thread makes an operation before it has ended (`Prog.Alone`).
Such a run of one program after another is a run of each (`alone_bind`), and a relation of states
that each operation of a kind respects holds between the first and the last state of a program of
such operations (`Only.alone`).
-/

namespace TurboPanel.Interleaving

variable {Op : Type} {Ans : Op → Type} {State Env α β : Type} {m : Machine Op Ans State Env} {i : ℕ}

namespace Prog

/-- A run of the program as thread `i`, with nothing in between: the state before, the result and
the state after. -/
inductive Alone (m : Machine Op Ans State Env) (i : ℕ) : Prog Op Ans α → State → α → State → Prop
  | pure (a : α) (s : State) : Alone m i (.pure a) s a s
  | op {o : Op} {next : Ans o → Prog Op Ans α} {e : Env} {ans : Ans o} {a : α} {s s' s'' : State}
      (exec : m.exec i e o s = some (ans, s')) (rest : Alone m i (next ans) s' a s'') :
      Alone m i (.op o next) s a s''

variable {s s' s'' : State}

theorem alone_pure {a b : α} : (Pure.pure a : Prog Op Ans α).Alone m i s b s' ↔ b = a ∧ s' = s := by
  constructor
  · intro h
    cases h
    exact ⟨rfl, rfl⟩
  · rintro ⟨rfl, rfl⟩
    exact .pure _ _

theorem alone_op {o : Op} {next : Ans o → Prog Op Ans α} {a : α} : (Prog.op o next).Alone m i s a s'' ↔
    ∃ e ans s', m.exec i e o s = some (ans, s') ∧ (next ans).Alone m i s' a s'' := by
  constructor
  · intro h
    cases h with
    | op hexec hrest => exact ⟨_, _, _, hexec, hrest⟩
  · rintro ⟨e, ans, s', hexec, hrest⟩
    exact .op hexec hrest

theorem alone_bind {p : Prog Op Ans α} {f : α → Prog Op Ans β} {b : β} : (p >>= f).Alone m i s b s'' ↔
    ∃ a s', p.Alone m i s a s' ∧ (f a).Alone m i s' b s'' := by
  induction p generalizing s with
  | pure a =>
    constructor
    · exact fun h => ⟨a, s, .pure a s, h⟩
    · rintro ⟨a', s', h, hf⟩
      obtain ⟨rfl, rfl⟩ := alone_pure.1 h
      exact hf
  | op o next ih =>
    change (Prog.op o fun ans => next ans >>= f).Alone m i s b s'' ↔ _
    rw [alone_op]
    constructor
    · rintro ⟨e, ans, s₁, hexec, h⟩
      obtain ⟨a, s', hnext, hf⟩ := (ih ans).1 h
      exact ⟨a, s', .op hexec hnext, hf⟩
    · rintro ⟨a, s', h, hf⟩
      obtain ⟨e, ans, s₁, hexec, hnext⟩ := alone_op.1 h
      exact ⟨e, ans, s₁, hexec, (ih ans).2 ⟨a, s', hnext, hf⟩⟩

theorem alone_call {o : Op} {a : Ans o} : (call o : Prog Op Ans (Ans o)).Alone m i s a s' ↔
    ∃ e, m.exec i e o s = some (a, s') := by
  rw [call, alone_op]
  constructor
  · rintro ⟨e, ans, t, hexec, h⟩
    cases h
    exact ⟨e, hexec⟩
  · rintro ⟨e, hexec⟩
    exact ⟨e, a, s', hexec, .pure a s'⟩

/-- **Frame.** A relation that each operation of a kind respects holds over a program of them. -/
theorem Only.alone {A : Op → Prop} {Q : α → Prop} {R : State → State → Prop} (hrefl : ∀ s, R s s)
    (htrans : ∀ {s s' s''}, R s s' → R s' s'' → R s s'')
    (hexec : ∀ {o e s ans s'}, A o → m.exec i e o s = some (ans, s') → R s s') {p : Prog Op Ans α}
    (hp : p.Only A Q) {a : α} (h : p.Alone m i s a s') : R s s' ∧ Q a := by
  induction h with
  | pure a s => exact ⟨hrefl s, hp⟩
  | op hstep hrest ih =>
    obtain ⟨hR, hQ⟩ := ih (hp.2 _)
    exact ⟨htrans (hexec hp.1 hstep) hR, hQ⟩

end Prog

end TurboPanel.Interleaving
