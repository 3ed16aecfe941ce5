import Mathlib

/-!
# Blocks of numbers, their subdivision, and handing out the pieces

A block is an interval of `size` numbers from `base`. It is cut into `count` cells of equal size:
distinct cells are disjoint (`cell_disjoint`) and each lies in the block (`cell_subset`).

`AllocationRun` is a sequence of requests to an allocator that is told, at each request, what has
been handed out so far. When the allocator never repeats itself, no run does
(`AllocationRun.pairwise_ne`).
-/

namespace TurboPanel.Blocks

/-- The numbers of a block. -/
def block (base size : ℕ) : Set ℕ := Set.Ico base (base + size)

variable {base size v : ℕ}

@[simp] theorem mem_block : v ∈ block base size ↔ base ≤ v ∧ v < base + size :=
  Iff.rfl

theorem mem_block_iff_div (hs : 0 < size) (h : size ∣ base) :
    v ∈ block base size ↔ v / size * size = base := by
  obtain ⟨k, rfl⟩ := h
  rw [mem_block]
  constructor
  · rintro ⟨h₁, h₂⟩
    have hk : v / size = k := by
      rw [Nat.div_eq_iff hs]
      constructor
      · rw [Nat.mul_comm]; exact h₁
      · rw [Nat.mul_comm k]; omega
    rw [hk, Nat.mul_comm]
  · intro h
    have h₁ := Nat.div_mul_le_self v size
    have h₂ := Nat.lt_div_mul_add hs (a := v)
    omega

theorem size_le_of_subset {a b m n : ℕ} (hm : 0 < m) (h : block a m ⊆ block b n) : m ≤ n := by
  have hfirst := h (show a ∈ block a m from ⟨le_rfl, by omega⟩)
  have hlast := h (show a + m - 1 ∈ block a m from ⟨by omega, by omega⟩)
  rw [mem_block] at hfirst hlast
  omega

theorem subset_of_not_disjoint {a b m n : ℕ} (hm : 0 < m) (hn : 0 < n) (ha : m ∣ a) (hb : n ∣ b)
    (hdvd : m ∣ n) (h : ¬Disjoint (block a m) (block b n)) : block a m ⊆ block b n := by
  obtain ⟨v, hv, hv'⟩ := Set.not_disjoint_iff.1 h
  intro w hw
  obtain ⟨k, rfl⟩ := hdvd
  rw [mem_block_iff_div hm ha] at hv hw
  rw [mem_block_iff_div hn hb] at hv' ⊢
  have hquot : w / m = v / m := Nat.eq_of_mul_eq_mul_right hm (hw.trans hv.symm)
  rw [← Nat.div_div_eq_div_mul, hquot, Nat.div_div_eq_div_mul, hv']

/-- The cell with index `i` in a block that starts at `base`. -/
def cell (base size i : ℕ) : Set ℕ := block (base + i * size) size

theorem cell_disjoint (base size : ℕ) {i j : ℕ} (h : i ≠ j) :
    Disjoint (cell base size i) (cell base size j) := by
  refine Set.disjoint_left.2 fun v hi hj => ?_
  simp only [cell, mem_block] at hi hj
  rcases Nat.lt_or_gt_of_ne h with h | h
  · have : (i + 1) * size ≤ j * size := Nat.mul_le_mul_right _ h
    rw [Nat.add_mul, Nat.one_mul] at this
    omega
  · have : (j + 1) * size ≤ i * size := Nat.mul_le_mul_right _ h
    rw [Nat.add_mul, Nat.one_mul] at this
    omega

theorem cell_end_le {size count i : ℕ} (h : i < count) : i * size + size ≤ count * size := by
  have : (i + 1) * size ≤ count * size := Nat.mul_le_mul_right _ h
  rw [Nat.add_mul, Nat.one_mul] at this
  exact this

theorem cell_subset (base : ℕ) {count i : ℕ} (h : i < count) :
    cell base size i ⊆ block base (count * size) := by
  intro v hv
  have := @cell_end_le size _ _ h
  simp only [cell, mem_block] at hv ⊢
  omega

theorem exists_cell {count : ℕ} (hs : 0 < size) (h : v ∈ block base (count * size)) :
    ∃ i < count, v ∈ cell base size i := by
  rw [mem_block] at h
  refine ⟨(v - base) / size, ?_, ?_⟩
  · rw [Nat.div_lt_iff_lt_mul hs]
    omega
  · have h₁ := Nat.div_mul_le_self (v - base) size
    have h₂ := Nat.lt_div_mul_add hs (a := v - base)
    simp only [cell, mem_block]
    omega

/-! ## Handing out pieces -/

variable {ε α : Type*}

/-- A run of requests: the allocator sees what is taken and the circumstances of the request, and
each answer is taken from then on. -/
inductive AllocationRun (next : ε → List α → Option α) : List α → List α → Prop
  | nil (taken : List α) : AllocationRun next taken []
  | cons {taken : List α} {e : ε} {a : α} {results : List α} (h : next e taken = some a)
      (run : AllocationRun next (taken ++ [a]) results) : AllocationRun next taken (a :: results)

namespace AllocationRun

variable {next : ε → List α → Option α} {taken results : List α}

theorem forall_mem {p : α → Prop} (hp : ∀ e taken a, next e taken = some a → p a)
    (run : AllocationRun next taken results) : ∀ a ∈ results, p a := by
  induction run with
  | nil => simp
  | cons h run ih =>
    intro b hb
    rcases List.mem_cons.1 hb with rfl | hb
    · exact hp _ _ _ h
    · exact ih b hb

theorem disjoint_taken (hfresh : ∀ e taken a, next e taken = some a → a ∉ taken)
    (run : AllocationRun next taken results) : ∀ a ∈ results, a ∉ taken := by
  induction run with
  | nil => simp
  | cons h run ih =>
    intro b hb hmem
    rcases List.mem_cons.1 hb with rfl | hb
    · exact hfresh _ _ _ h hmem
    · exact ih b hb (List.mem_append_left _ hmem)

theorem pairwise_ne (hfresh : ∀ e taken a, next e taken = some a → a ∉ taken)
    (run : AllocationRun next taken results) : results.Pairwise (· ≠ ·) := by
  induction run with
  | nil => exact .nil
  | cons h run ih =>
    refine .cons (fun b hb => ?_) ih
    rintro rfl
    exact run.disjoint_taken hfresh _ hb (by simp)

end AllocationRun

end TurboPanel.Blocks
