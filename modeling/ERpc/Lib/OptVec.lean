import Mathlib.Algebra.Group.Nat.Defs
import Mathlib.Data.Finset.Card
import Mathlib.Data.Finset.Range
import Mathlib.Logic.Function.Basic

/-!
# Occupied entries of a growing vector of optional values

A vector that grows at its end and whose entries may be emptied in place is `v : ℕ → Option α`
with its size `n`. `liveCount v n` is the number of occupied entries below `n`. Filling an
occupied entry keeps the count, emptying one lowers it by one, and pushing an occupied entry at
the end raises it by one.
-/

namespace OptVec

variable {α : Type*}

/-- The number of occupied entries of `v` below `n`. -/
def liveCount (v : ℕ → Option α) (n : ℕ) : ℕ :=
  ((Finset.range n).filter fun k => (v k).isSome).card

variable {v : ℕ → Option α} {n k : ℕ}

theorem liveCount_congr {w : ℕ → Option α} (h : ∀ j < n, (v j).isSome = (w j).isSome) :
    liveCount v n = liveCount w n := by
  unfold liveCount
  congr 1
  exact Finset.filter_congr fun j hj => by rw [h j (Finset.mem_range.1 hj)]

theorem liveCount_update_some (a : α) (h : (v k).isSome) :
    liveCount (Function.update v k (some a)) n = liveCount v n := by
  refine liveCount_congr fun j _ => ?_
  by_cases hj : j = k
  · subst hj
    simp [h]
  · rw [Function.update_of_ne hj]

theorem liveCount_update_none (hk : k < n) (h : (v k).isSome) :
    liveCount (Function.update v k none) n + 1 = liveCount v n := by
  have hfilter : (Finset.range n).filter (fun j => (Function.update v k none j).isSome) =
      ((Finset.range n).filter fun j => (v j).isSome).erase k := by
    ext j
    by_cases hj : j = k
    · subst hj
      simp
    · simp [hj]
  have hmem : k ∈ (Finset.range n).filter fun j => (v j).isSome :=
    Finset.mem_filter.2 ⟨Finset.mem_range.2 hk, h⟩
  unfold liveCount
  rw [hfilter, Finset.card_erase_of_mem hmem]
  exact Nat.sub_add_cancel (Finset.card_pos.2 ⟨k, hmem⟩)

theorem liveCount_push (a : α) :
    liveCount (Function.update v n (some a)) (n + 1) = liveCount v n + 1 := by
  have hbelow : liveCount (Function.update v n (some a)) n = liveCount v n :=
    liveCount_congr fun j hj => by rw [Function.update_of_ne (Nat.ne_of_lt hj)]
  unfold liveCount at hbelow ⊢
  rw [Finset.range_add_one, Finset.filter_insert, if_pos (by simp),
    Finset.card_insert_of_notMem (by simp), hbelow]

theorem eq_some_of_update_none {j : ℕ} {a : α} (h : Function.update v k none j = some a) :
    j ≠ k ∧ v j = some a := by
  by_cases hj : j = k
  · subst hj
    simp at h
  · rw [Function.update_of_ne hj] at h
    exact ⟨hj, h⟩

theorem eq_some_of_update_some {j : ℕ} {a b : α} (h : Function.update v k (some b) j = some a) :
    (j = k ∧ a = b) ∨ (j ≠ k ∧ v j = some a) := by
  by_cases hj : j = k
  · subst hj
    simp only [Function.update_self, Option.some.injEq] at h
    exact .inl ⟨rfl, h.symm⟩
  · rw [Function.update_of_ne hj] at h
    exact .inr ⟨hj, h⟩

theorem one_le_liveCount (hk : k < n) (h : (v k).isSome) : 1 ≤ liveCount v n := by
  have := liveCount_update_none hk h
  omega

end OptVec
