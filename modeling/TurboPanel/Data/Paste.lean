import Mathlib.Tactic

/-!
# Pasting slices of a list

A buffer that shall hold a window of a list is filled with slices of the list, each at its place, in
any order (`place`). What was pasted agrees with the list (`Agrees`), and a buffer that agrees
everywhere is the window (`Agrees.eq_slice`).
-/

namespace TurboPanel.Paste

open List

variable {α : Type}

/-- The elements from position `lo` to `hi`, without the latter. -/
def slice (l : List α) (lo hi : ℕ) : List α := (l.take hi).drop lo

/-- `src` written over `out` from a position on. -/
def place (out src : List α) (pos : ℕ) : List α := out.take pos ++ src ++ out.drop (pos + src.length)

variable {l : List α} {lo hi : ℕ}

theorem length_slice (h : hi ≤ l.length) : (slice l lo hi).length = hi - lo := by
  rw [slice, length_drop, length_take, Nat.min_eq_left h]

theorem getElem?_slice (l : List α) (lo hi j : ℕ) :
    (slice l lo hi)[j]? = if lo + j < hi then l[lo + j]? else none := by
  rw [slice, getElem?_drop, getElem?_take]

theorem slice_append (l₁ l₂ l₃ : List α) :
    slice (l₁ ++ l₂ ++ l₃) l₁.length (l₁.length + l₂.length) = l₂ := by
  rw [slice, take_left' length_append, drop_left]

theorem slice_self (l : List α) : slice l 0 l.length = l := by
  rw [slice, take_length, drop_zero]

theorem slice_of_le (l : List α) (h : hi ≤ lo) : slice l lo hi = [] := by
  rw [slice, drop_eq_nil_iff, length_take]
  omega

theorem slice_slice {a b : ℕ} (h : lo + b ≤ hi) :
    slice (slice l lo hi) a b = slice l (lo + a) (lo + b) := by
  refine ext_getElem? fun j => ?_
  rw [getElem?_slice, getElem?_slice, getElem?_slice, Nat.add_assoc]
  by_cases hj : a + j < b
  · rw [if_pos hj, if_pos (by omega), if_pos (by omega)]
  · rw [if_neg hj, if_neg (by omega)]

variable {out : List α}

theorem length_place {src : List α} {pos : ℕ} (h : pos + src.length ≤ out.length) :
    (place out src pos).length = out.length := by
  rw [place, length_append, length_append, length_take, length_drop]
  omega

theorem getElem?_place {src : List α} {pos : ℕ} (h : pos + src.length ≤ out.length) (j : ℕ) :
    (place out src pos)[j]? = if pos ≤ j ∧ j < pos + src.length then src[j - pos]? else out[j]? := by
  have htake : (out.take pos).length = pos := by
    rw [length_take]
    omega
  rw [place]
  split
  · rename_i hj
    rw [getElem?_append_left (by rw [length_append, htake]; omega),
      getElem?_append_right (by omega), htake]
  · rename_i hj
    by_cases hlt : j < pos
    · rw [append_assoc, getElem?_append_left (by omega), getElem?_take, if_pos hlt]
    · rw [getElem?_append_right (by rw [length_append, htake]; omega), getElem?_drop,
        length_append, htake]
      congr 1
      omega

/-- The buffer, which stands for the window from `lo` on, agrees with the list at the positions `P`.
-/
def Agrees (l : List α) (lo : ℕ) (out : List α) (P : ℕ → Prop) : Prop :=
  ∀ j < out.length, P (lo + j) → out[j]? = l[lo + j]?

theorem agrees_nothing (l : List α) (lo : ℕ) (out : List α) : Agrees l lo out fun _ => False :=
  fun _ _ h => h.elim

variable {P : ℕ → Prop}

theorem Agrees.mono {P' : ℕ → Prop} (h : Agrees l lo out P)
    (hP : ∀ k, P' k → P k) : Agrees l lo out P' :=
  fun j hj hk => h j hj (hP _ hk)

theorem Agrees.place (h : Agrees l lo out P) {a b : ℕ}
    (ha : lo ≤ a) (hab : a ≤ b) (hb : b ≤ lo + out.length) (hl : b ≤ l.length) :
    Agrees l lo (place out (slice l a b) (a - lo)) (fun k => P k ∨ a ≤ k ∧ k < b) := by
  have hlen : (slice l a b).length = b - a := length_slice hl
  have hfits : a - lo + (slice l a b).length ≤ out.length := by omega
  intro j hj hk
  rw [length_place hfits] at hj
  rw [getElem?_place hfits, hlen]
  split
  · rw [getElem?_slice, if_pos (by omega)]
    congr 1
    omega
  · refine h j hj (hk.resolve_right fun hin => ?_)
    omega

/-- **A buffer that agrees everywhere is the window.** -/
theorem Agrees.eq_slice (h : Agrees l lo out P) (hP : ∀ k, lo ≤ k → k < lo + out.length → P k) :
    out = slice l lo (lo + out.length) := by
  refine ext_getElem? fun j => ?_
  rw [getElem?_slice]
  split
  · exact h j (by omega) (hP _ (by omega) (by omega))
  · exact getElem?_eq_none (by omega)

end TurboPanel.Paste
