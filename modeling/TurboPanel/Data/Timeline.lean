import Mathlib.Data.List.Sort
import Mathlib.Tactic

/-!
# Time spent in a state

Events on an ordered line each start a state, which lasts until the next event. `occupancy` is the
time that each state has from a start to a finish. It splits at any point between the events
(`occupancy_append`), adds up to the whole (`sum_occupancy`), and an event that starts the state
that is held already does not count (`occupancy_repeat`). Events are sorted stably, so that of two
at one time the one that comes later in the list is the later one; `inOrder_append_cons` says where
an element of a list then stands.
-/

namespace TurboPanel.Timeline

open List

section Sorting

variable {α : Type} {K : Type} [LinearOrder K] (time : α → K)

/-- Events in the order of time, and of the list where they have the same time. -/
def inOrder (l : List α) : List α := l.insertionSort fun x y => time x ≤ time y

theorem perm_inOrder (l : List α) : (inOrder time l).Perm l := perm_insertionSort _ l

variable {x : α}

theorem mem_inOrder {l : List α} : x ∈ inOrder time l ↔ x ∈ l := (perm_inOrder time l).mem_iff

theorem sorted_inOrder (l : List α) : (inOrder time l).Pairwise fun x y => time x ≤ time y := by
  have : Std.Total fun x y : α => time x ≤ time y := ⟨fun x y => le_total (time x) (time y)⟩
  have : IsTrans α fun x y => time x ≤ time y := ⟨fun _ _ _ => le_trans⟩
  exact pairwise_insertionSort _ l

theorem orderedInsert_append_left {q : List α} (hq : ∀ y ∈ q, time x ≤ time y) (p : List α) :
    (p ++ q).orderedInsert (fun x y => time x ≤ time y) x = p.orderedInsert (fun x y => time x ≤ time y) x ++ q := by
  induction p with
  | nil =>
    cases q with
    | nil => rfl
    | cons y q =>
      rw [nil_append, orderedInsert_cons, if_pos (hq y mem_cons_self)]
      rfl
  | cons y p ih =>
    rw [cons_append, orderedInsert_cons, orderedInsert_cons, ih]
    split_ifs <;> rfl

theorem orderedInsert_append_right {p : List α} (hp : ∀ y ∈ p, time y < time x) (q : List α) :
    (p ++ q).orderedInsert (fun x y => time x ≤ time y) x = p ++ q.orderedInsert (fun x y => time x ≤ time y) x := by
  induction p with
  | nil => rfl
  | cons y p ih =>
    rw [cons_append, orderedInsert_cons, if_neg (not_le.2 (hp y mem_cons_self)),
      ih fun other hother => hp other (mem_cons_of_mem _ hother)]
    rfl

theorem inOrder_split {p : α → Bool} (hp : ∀ x y, p x = true → p y = false → time x < time y) (l : List α) :
    inOrder time l = inOrder time (l.filter p) ++ inOrder time (l.filter (!p ·)) := by
  induction l with
  | nil => rfl
  | cons x l ih =>
    have hinsert : inOrder time (x :: l) =
        (inOrder time (l.filter p) ++ inOrder time (l.filter (!p ·))).orderedInsert (fun x y => time x ≤ time y) x := by
      rw [← ih]
      rfl
    rw [hinsert]
    cases hx : p x with
    | true =>
      rw [filter_cons_of_pos hx, filter_cons_of_neg (by simp [hx])]
      refine orderedInsert_append_left time (fun y hy => ?_) _
      have hy' := (mem_filter.1 ((mem_inOrder time).1 hy)).2
      exact (hp x y hx (by simpa using hy')).le
    | false =>
      rw [filter_cons_of_neg (by simp [hx]), filter_cons_of_pos (by simp [hx])]
      refine orderedInsert_append_right time (fun y hy => ?_) _
      exact hp y x (mem_filter.1 ((mem_inOrder time).1 hy)).2 hx

/-- The events that come before one with events in front of it and behind it in the list. -/
def before (front : List α) (event : α) (back : List α) : List α :=
  front.filter (fun x => time x ≤ time event) ++ back.filter fun x => time x < time event

/-- Those that come after it. -/
def after (front : List α) (event : α) (back : List α) : List α :=
  front.filter (fun x => time event < time x) ++ back.filter fun x => time event ≤ time x

theorem le_of_mem_before {front : List α} {event : α} {back : List α}
    (hx : x ∈ inOrder time (before time front event back)) : time x ≤ time event := by
  rw [mem_inOrder, before, mem_append, mem_filter, mem_filter, decide_eq_true_eq,
    decide_eq_true_eq] at hx
  obtain ⟨-, hle⟩ | ⟨-, hlt⟩ := hx
  · exact hle
  · exact hlt.le

theorem le_of_mem_after {front : List α} {event : α} {back : List α}
    (hx : x ∈ inOrder time (after time front event back)) : time event ≤ time x := by
  rw [mem_inOrder, after, mem_append, mem_filter, mem_filter, decide_eq_true_eq,
    decide_eq_true_eq] at hx
  obtain ⟨-, hlt⟩ | ⟨-, hle⟩ := hx
  · exact hlt.le
  · exact hle

/-- **An event stands between those that come before it and those that come after it**, which are
otherwise in the order that they have without it. -/
theorem inOrder_append_cons (front : List α) (event : α) (back : List α) :
    inOrder time (front ++ event :: back) =
        inOrder time (before time front event back) ++ event :: inOrder time (after time front event back) ∧
      inOrder time (front ++ back) =
        inOrder time (before time front event back) ++ inOrder time (after time front event back) := by
  induction front with
  | nil =>
    have hsplit : inOrder time back =
        inOrder time (before time [] event back) ++ inOrder time (after time [] event back) := by
      have hafter : (back.filter fun x => !decide (time x < time event)) = after time [] event back := by
        refine filter_congr fun x _ => ?_
        rw [← decide_not]
        exact decide_eq_decide.2 not_lt
      rw [← hafter]
      refine inOrder_split time (fun x y hx hy => ?_) back
      exact (of_decide_eq_true hx).trans_le (not_lt.1 (of_decide_eq_false hy))
    have hbefore : ∀ y ∈ inOrder time (before time [] event back), time y < time event := by
      intro y hy
      rw [mem_inOrder] at hy
      simpa [before] using (mem_filter.1 hy).2
    refine ⟨?_, hsplit⟩
    have hinsert : inOrder time (event :: back) =
        (inOrder time (before time [] event back) ++ inOrder time (after time [] event back)).orderedInsert
          (fun x y => time x ≤ time y) event := congrArg _ hsplit
    rw [nil_append, hinsert, orderedInsert_append_right time hbefore]
    have hafter : ∀ y ∈ inOrder time (after time [] event back), time event ≤ time y := fun y hy =>
      le_of_mem_after time hy
    have hfirst := orderedInsert_append_left time hafter []
    rw [nil_append] at hfirst
    rw [hfirst]
    rfl
  | cons x front ih =>
    obtain ⟨hwith, hwithout⟩ := ih
    have hinsert : ∀ l, inOrder time (x :: l) = (inOrder time l).orderedInsert (fun x y => time x ≤ time y) x :=
      fun l => rfl
    by_cases hx : time x ≤ time event
    · have hbefore : before time (x :: front) event back = x :: before time front event back := by
        rw [before, filter_cons_of_pos (by simpa using hx)]
        rfl
      have hafter : after time (x :: front) event back = after time front event back := by
        rw [after, filter_cons_of_neg (by simpa using hx)]
        rfl
      rw [cons_append, cons_append, hinsert, hinsert, hwith, hwithout, hbefore, hafter, hinsert]
      refine ⟨orderedInsert_append_left time (fun y hy => ?_) _, orderedInsert_append_left time (fun y hy => ?_) _⟩
      · obtain rfl | hy := mem_cons.1 hy
        · exact hx
        · exact hx.trans (le_of_mem_after time hy)
      · exact hx.trans (le_of_mem_after time hy)
    · have hbefore : before time (x :: front) event back = before time front event back := by
        rw [before, filter_cons_of_neg (by simpa using hx)]
        rfl
      have hafter : after time (x :: front) event back = x :: after time front event back := by
        rw [after, filter_cons_of_pos (by simpa using hx)]
        rfl
      have hlater : ∀ y ∈ inOrder time (before time front event back), time y < time x := fun y hy =>
        (le_of_mem_before time hy).trans_lt (not_le.1 hx)
      rw [cons_append, cons_append, hinsert, hinsert, hwith, hwithout, hbefore, hafter, hinsert,
        orderedInsert_append_right time hlater, orderedInsert_append_right time hlater, orderedInsert_cons,
        if_neg hx]
      exact ⟨rfl, rfl⟩

/-- **Two lists of the same events are in the same order**, where no two of them have one time and
none comes twice. -/
theorem inOrder_congr {l l' : List α} (hperm : l.Perm l') (hdistinct : ∀ x ∈ l, ∀ y ∈ l, time x = time y → x = y) :
    inOrder time l = inOrder time l' := by
  refine ((perm_inOrder time l).trans (hperm.trans (perm_inOrder time l').symm)).eq_of_pairwise ?_
    (sorted_inOrder time l) (sorted_inOrder time l')
  intro x y hx hy hle hge
  exact hdistinct x ((mem_inOrder time).1 hx) y (hperm.mem_iff.2 ((mem_inOrder time).1 hy)) (le_antisymm hle hge)

end Sorting

section Occupancy

variable {α S K : Type} [DecidableEq S] [AddCommGroup K] (time : α → K) (state : α → S)

/-- The time from one point to another, spent in one state. -/
def span (start finish : K) (s : S) : S → K := Pi.single s (finish - start)

/-- The time in each state from a start, with a state that is held there, to a finish. -/
def occupancy (finish : K) : K → S → List α → S → K
  | start, s, [] => span start finish s
  | start, s, event :: events => span start (time event) s + occupancy finish (time event) (state event) events

/-- The state that is held after some events. -/
def held : S → List α → S
  | s, [] => s
  | _, event :: events => held (state event) events

theorem span_add (a b c : K) (s : S) : span a b s + span b c s = span a c s := by
  rw [span, span, span, ← Pi.single_add]
  congr 1
  abel

@[simp] theorem span_self (a : K) (s : S) : span a a s = 0 := by
  rw [span, sub_self, Pi.single_zero]

omit [DecidableEq S] in
theorem held_append (s : S) (p q : List α) : held state s (p ++ q) = held state (held state s p) q := by
  induction p generalizing s with
  | nil => rfl
  | cons event p ih => exact ih _

omit [DecidableEq S] in
theorem held_held (s : S) (p : List α) : held state (held state s p) p = held state s p := by
  cases p with
  | nil => rfl
  | cons event p => rfl

/-- **The time in a state splits at any point.** -/
theorem occupancy_append (finish point start : K) (s : S) (p q : List α) :
    occupancy time state finish start s (p ++ q) =
      occupancy time state point start s p + occupancy time state finish point (held state s p) q := by
  induction p generalizing start s with
  | nil =>
    cases q with
    | nil => exact (span_add start point finish s).symm
    | cons event q =>
      rw [nil_append, occupancy, occupancy, occupancy, held, ← add_assoc, span_add]
  | cons event p ih =>
    rw [cons_append, occupancy, ih, occupancy, held, add_assoc]

theorem sum_occupancy [Fintype S] (finish start : K) (s : S) (l : List α) :
    ∑ state', occupancy time state finish start s l state' = finish - start := by
  induction l generalizing start s with
  | nil => simp [occupancy, span]
  | cons event l ih =>
    simp only [occupancy, Pi.add_apply, Finset.sum_add_distrib, ih]
    simp [span]

theorem occupancy_at {point : K} {p : List α} (hp : ∀ event ∈ p, time event = point) (s : S) :
    occupancy time state point point s p = 0 := by
  induction p generalizing s with
  | nil => exact span_self point s
  | cons event p ih =>
    have hevent := hp event mem_cons_self
    rw [occupancy, hevent, span_self, zero_add]
    exact ih (fun other hother => hp other (mem_cons_of_mem _ hother)) _

/-- **An event that starts the state that is held does not count.** -/
theorem occupancy_repeat (finish start : K) (s : S) {p : List α} {event : α} (q : List α)
    (hheld : held state s p = state event) :
    occupancy time state finish start s (p ++ event :: q) = occupancy time state finish start s (p ++ q) := by
  rw [occupancy_append time state finish (time event), occupancy_append time state finish (time event) start s p q,
    occupancy, hheld, span_self, zero_add]

end Occupancy

section Sets

variable {α S K : Type} [DecidableEq S] [AddCommGroup K] [LinearOrder K] (time : α → K) (state : α → S)

theorem occupancy_again (finish start : K) (s : S) {front back : List α} {event : α} (hmem : event ∈ back)
    (hdistinct : ∀ x ∈ front ++ back, time x = time event → x = event) :
    occupancy time state finish start s (inOrder time (front ++ event :: back)) =
      occupancy time state finish start s (inOrder time (front ++ back)) := by
  obtain ⟨hwith, hwithout⟩ := inOrder_append_cons time front event back
  obtain ⟨first, rest, hafter⟩ : ∃ first rest, inOrder time (after time front event back) = first :: rest := by
    have hmem' : event ∈ inOrder time (after time front event back) :=
      (mem_inOrder time).2 (mem_append_right _ (mem_filter.2 ⟨hmem, by simp⟩))
    exact exists_cons_of_ne_nil (ne_nil_of_mem hmem')
  -- the first of those that come after it is the event itself
  have hfirst : first = event := by
    have hfirstmem : first ∈ inOrder time (after time front event back) := hafter ▸ mem_cons_self
    have hmem' : event ∈ inOrder time (after time front event back) :=
      (mem_inOrder time).2 (mem_append_right _ (mem_filter.2 ⟨hmem, by simp⟩))
    have hle : time first ≤ time event := by
      have hsorted := sorted_inOrder time (after time front event back)
      rw [hafter] at hmem' hsorted
      obtain rfl | hlater := mem_cons.1 hmem'
      · exact le_rfl
      · exact (pairwise_cons.1 hsorted).1 event hlater
    refine hdistinct first ?_ (le_antisymm hle (le_of_mem_after time hfirstmem))
    rw [mem_inOrder, after, mem_append, mem_filter, mem_filter] at hfirstmem
    exact mem_append.2 (hfirstmem.imp And.left And.left)
  rw [hwith, hwithout, hafter, hfirst]
  have hheld : held state s (inOrder time (before time front event back) ++ [event]) = state event :=
    held_append state s _ _
  have hrepeat := occupancy_repeat time state finish start s rest hheld
  rw [append_assoc, append_assoc] at hrepeat
  exact hrepeat

/-- **The time in a state depends on the set of the events only**, where no two of them have one
time. -/
theorem occupancy_congr (finish start : K) (s : S) {l l' : List α} (hmem : ∀ x, x ∈ l ↔ x ∈ l')
    (hdistinct : ∀ x ∈ l, ∀ y ∈ l, time x = time y → x = y) :
    occupancy time state finish start s (inOrder time l) = occupancy time state finish start s (inOrder time l') := by
  classical
  have hdedup : ∀ {back front : List α}, (∀ x ∈ front, x ∈ l) → (∀ x ∈ back, x ∈ l) →
      occupancy time state finish start s (inOrder time (front ++ back)) =
        occupancy time state finish start s (inOrder time (front ++ back.dedup)) := by
    intro back
    induction back with
    | nil => exact fun _ _ => rfl
    | cons event back ih =>
      intro front hfront hback
      have hevent := hback event mem_cons_self
      have hback' : ∀ x ∈ back, x ∈ l := fun x hx => hback x (mem_cons_of_mem _ hx)
      by_cases hagain : event ∈ back
      · rw [dedup_cons_of_mem hagain, occupancy_again time state finish start s hagain, ih hfront hback']
        intro x hx
        exact hdistinct x ((mem_append.1 hx).elim (hfront x) (hback' x)) event hevent
      · have hfront' : ∀ x ∈ front ++ [event], x ∈ l := by
          intro x hx
          obtain hx | hx := mem_append.1 hx
          · exact hfront x hx
          · rw [mem_singleton.1 hx]
            exact hevent
        have hih := ih hfront' hback'
        rw [append_assoc, append_assoc] at hih
        rw [dedup_cons_of_notMem hagain]
        exact hih
  have hperm : l.dedup.Perm l'.dedup := by
    refine (perm_ext_iff_of_nodup (nodup_dedup l) (nodup_dedup l')).2 fun x => ?_
    rw [mem_dedup, mem_dedup]
    exact hmem x
  have hnone : ∀ x ∈ ([] : List α), x ∈ l := fun x hx => absurd hx not_mem_nil
  calc occupancy time state finish start s (inOrder time l)
      = occupancy time state finish start s (inOrder time l.dedup) := hdedup hnone fun _ hx => hx
    _ = occupancy time state finish start s (inOrder time l'.dedup) := by
        rw [inOrder_congr time hperm fun x hx y hy => hdistinct x (mem_dedup.1 hx) y (mem_dedup.1 hy)]
    _ = occupancy time state finish start s (inOrder time l') := (hdedup hnone fun x hx => (hmem x).2 hx).symm

end Sets

section Ordered

variable {α S K : Type} [DecidableEq S] [AddCommGroup K] [LinearOrder K] [IsOrderedAddMonoid K] (time : α → K)
  (state : α → S)

theorem occupancy_nonneg {finish start : K} (s : S) {l : List α} (hle : start ≤ finish)
    (hl : l.Pairwise fun x y => time x ≤ time y) (hmem : ∀ event ∈ l, start ≤ time event ∧ time event ≤ finish)
    (state' : S) : 0 ≤ occupancy time state finish start s l state' := by
  have hspan : ∀ {a b : K} (s : S), a ≤ b → 0 ≤ span a b s state' := by
    intro a b s hab
    rw [span]
    rw [Pi.single_apply]
    split_ifs
    · exact sub_nonneg.2 hab
    · exact le_rfl
  induction l generalizing start s with
  | nil => exact hspan s hle
  | cons event l ih =>
    obtain ⟨hfirst, hrest⟩ := pairwise_cons.1 hl
    obtain ⟨hlow, hhigh⟩ := hmem event mem_cons_self
    rw [occupancy, Pi.add_apply]
    refine add_nonneg (hspan s hlow) (ih _ hhigh hrest fun other hother => ?_)
    exact ⟨hfirst other hother, (hmem other (mem_cons_of_mem _ hother)).2⟩

end Ordered

end TurboPanel.Timeline
