import Mathlib

/-!
# Arcs of a ring of slots

A ring of `D` slots is indexed `0, …, D - 1`, and the slot after `i` is `(i + 1) % D`. The arc of
`n` slots from `s` is `s % D, (s + 1) % D, …`. An arc followed by the next one is one arc
(`arc_add`), an arc is the same from any start congruent modulo `D` (`arc_congr`), and an arc of
at most `D` slots visits no slot twice (`nodup_arc`).
-/

namespace Arc

/-- The `n` slots of a ring of `D` slots from `s` on. -/
def arc (D s n : ℕ) : List ℕ := (List.range n).map fun k => (s + k) % D

variable {D : ℕ}

@[simp] theorem length_arc (s n : ℕ) : (arc D s n).length = n := by
  simp [arc]

@[simp] theorem arc_zero (s : ℕ) : arc D s 0 = [] := rfl

theorem mem_arc {s n i : ℕ} : i ∈ arc D s n ↔ ∃ k < n, (s + k) % D = i := by
  simp [arc]

theorem arc_add (s n m : ℕ) : arc D s (n + m) = arc D s n ++ arc D (s + n) m := by
  simp only [arc, List.range_add, List.map_append, List.map_map]
  congr 1
  apply List.map_congr_left
  intro k _
  simp [Nat.add_assoc]

theorem arc_one (s : ℕ) : arc D s 1 = [s % D] := rfl

theorem arc_succ (s n : ℕ) : arc D s (n + 1) = arc D s n ++ [(s + n) % D] := by
  rw [arc_add, arc_one]

theorem arc_succ' (s n : ℕ) : arc D s (n + 1) = s % D :: arc D (s + 1) n := by
  rw [Nat.add_comm n 1, arc_add, arc_one]
  rfl

theorem arc_congr {s t : ℕ} (h : s % D = t % D) (n : ℕ) : arc D s n = arc D t n := by
  unfold arc
  apply List.map_congr_left
  intro k _
  rw [Nat.add_mod, h, ← Nat.add_mod]

theorem drop_arc (s : ℕ) {n k : ℕ} (h : k ≤ n) : (arc D s n).drop k = arc D (s + k) (n - k) := by
  conv_lhs => rw [← Nat.add_sub_cancel' h, arc_add]
  exact List.drop_left' (length_arc s k)

theorem take_arc (s : ℕ) {n k : ℕ} (h : k ≤ n) : (arc D s n).take k = arc D s k := by
  conv_lhs => rw [← Nat.add_sub_cancel' h, arc_add]
  exact List.take_left' (length_arc s k)

theorem arc_append {a b m k : ℕ} (h : (a + m) % D = b % D) :
    arc D a m ++ arc D b k = arc D a (m + k) := by
  rw [arc_add, arc_congr h]

/-- An arc of at most `D` slots visits no slot twice. -/
theorem nodup_arc (s : ℕ) {n : ℕ} (h : n ≤ D) : (arc D s n).Nodup := by
  refine List.Nodup.map_on (fun a ha b hb hab => ?_) List.nodup_range
  rw [List.mem_range] at ha hb
  have hmod : a ≡ b [MOD D] := Nat.ModEq.add_left_cancel' s hab
  exact hmod.eq_of_lt_of_lt (by omega) (by omega)

/-- The arc of `D` slots from anywhere visits every slot of the ring once. -/
theorem arc_perm_range (hD : 0 < D) (s : ℕ) : (arc D s D).Perm (List.range D) := by
  have hsub : arc D s D ⊆ List.range D := by
    intro i hi
    obtain ⟨k, -, rfl⟩ := mem_arc.1 hi
    exact List.mem_range.2 (Nat.mod_lt _ hD)
  exact ((nodup_arc s le_rfl).subperm hsub).perm_of_length_le (by simp)

end Arc
