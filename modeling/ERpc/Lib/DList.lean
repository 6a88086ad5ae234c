import Mathlib.Algebra.Group.Nat.Defs
import Mathlib.Data.List.Nodup
import Mathlib.Logic.Function.Basic

/-!
# Doubly linked lists between two sentinels

Every node of type `P` has a `next` and a `prev` link. The list `l` lies between the sentinels
`a` and `z` (`Between next prev a l z`) when following `next` from `a` visits the nodes of `l` in
order and then `z`, and `prev` leads back the same way.

Appending a node in front of `z` and unlinking a node each rewrite two links of each kind
(`Between.append`, `Between.unlink`); links of nodes off the list do not matter
(`Between.congr`).
-/

namespace DList

variable {P : Type*}

/-- `l` lies between `a` and `z`, linked both ways. -/
def Between (next prev : P → P) : P → List P → P → Prop
  | a, [], z => next a = z ∧ prev z = a
  | a, b :: l, z => next a = b ∧ prev b = a ∧ Between next prev b l z

variable {next prev next' prev' : P → P}

theorem Between.congr : ∀ {a : P} {l : List P} {z : P}, Between next prev a l z →
    (∀ x ∈ a :: l, next' x = next x) → (∀ x ∈ l ++ [z], prev' x = prev x) →
    Between next' prev' a l z
  | a, [], z, ⟨h1, h2⟩, hn, hp => by
    refine ⟨?_, ?_⟩
    · rw [hn a List.mem_cons_self]
      exact h1
    · rw [hp z (by simp)]
      exact h2
  | a, b :: l, z, ⟨h1, h2, h3⟩, hn, hp => by
    refine ⟨?_, ?_, h3.congr (fun x hx => hn x (List.mem_cons_of_mem _ hx))
      (fun x hx => hp x (List.mem_cons_of_mem _ hx))⟩
    · rw [hn a List.mem_cons_self]
      exact h1
    · rw [hp b List.mem_cons_self]
      exact h2

theorem Between.prev_eq : ∀ {a : P} {l₁ : List P} {x : P} {l₂ : List P} {z : P},
    Between next prev a (l₁ ++ x :: l₂) z → prev x = (a :: l₁).getLast (List.cons_ne_nil _ _)
  | a, [], x, l₂, z, ⟨_, h, _⟩ => h
  | a, b :: l₁, x, l₂, z, ⟨_, _, h⟩ => by
    rw [h.prev_eq, List.getLast_cons_cons]

theorem Between.next_eq : ∀ {a : P} {l₁ : List P} {x : P} {l₂ : List P} {z : P},
    Between next prev a (l₁ ++ x :: l₂) z → next x = (l₂ ++ [z]).head (by simp)
  | _, [], _, [], _, ⟨_, _, h, _⟩ => h
  | _, [], _, _ :: _, _, ⟨_, _, h, _⟩ => h
  | _, _ :: _, _, _, _, ⟨_, _, h⟩ => h.next_eq

theorem Between.prev_last : ∀ {a : P} {l : List P} {z : P},
    Between next prev a l z → prev z = (a :: l).getLast (List.cons_ne_nil _ _)
  | a, [], z, ⟨_, h⟩ => h
  | a, b :: l, z, ⟨_, _, h⟩ => by
    rw [h.prev_last, List.getLast_cons_cons]

variable [DecidableEq P]

/-- `add_to_active_rpc_list`: `x` goes between the last node and `z`. -/
theorem Between.append {x z : P} : ∀ {a : P} {l : List P}, Between next prev a l z →
    (a :: l).Nodup → z ∉ a :: l → x ∉ a :: l → x ≠ z →
    Between (Function.update (Function.update next (prev z) x) x z)
      (Function.update (Function.update prev x (prev z)) z x) a (l ++ [x]) z
  | a, [], ⟨h1, h2⟩, _, hz, hx, hxz => by
    have hax : a ≠ x := fun h => hx (h ▸ List.mem_cons_self)
    refine ⟨?_, ?_, ?_, ?_⟩
    · rw [Function.update_of_ne hax, h2, Function.update_self]
    · rw [Function.update_of_ne hxz, Function.update_self, h2]
    · exact Function.update_self _ _ _
    · exact Function.update_self _ _ _
  | a, b :: l, ⟨h1, h2, h3⟩, hnd, hz, hx, hxz => by
    obtain ⟨ha, hnd'⟩ := List.nodup_cons.1 hnd
    have hax : a ≠ x := fun h => hx (h ▸ List.mem_cons_self)
    have hbx : b ≠ x := fun h => hx (h ▸ List.mem_cons_of_mem _ List.mem_cons_self)
    have hbz : b ≠ z := fun h => hz (h ▸ List.mem_cons_of_mem _ List.mem_cons_self)
    have hlast : prev z ≠ a := by
      rw [h3.prev_last]
      exact fun h => ha (h ▸ List.getLast_mem _)
    refine ⟨?_, ?_, h3.append hnd' (fun h => hz (List.mem_cons_of_mem _ h))
      (fun h => hx (List.mem_cons_of_mem _ h)) hxz⟩
    · rw [Function.update_of_ne hax, Function.update_of_ne hlast.symm, h1]
    · rw [Function.update_of_ne hbz, Function.update_of_ne hbx, h2]

/-- `delete_from_active_rpc_list`: the neighbours of `x` are linked to each other. -/
theorem Between.unlink {x z : P} {l₂ : List P} : ∀ {a : P} {l₁ : List P},
    Between next prev a (l₁ ++ x :: l₂) z → (a :: (l₁ ++ x :: l₂ ++ [z])).Nodup →
    Between (Function.update next (prev x) (next x)) (Function.update prev (next x) (prev x)) a
      (l₁ ++ l₂) z
  | a, [], ⟨h1, h2, h3⟩, hnd => by
    rw [h2]
    match l₂, h3, hnd with
    | [], ⟨h4, h5⟩, _ =>
      refine ⟨?_, ?_⟩
      · rw [Function.update_self, h4]
      · rw [h4, Function.update_self]
    | c :: l₂, ⟨h4, h5, h6⟩, hnd =>
      have hnd' : (c :: (l₂ ++ [z])).Nodup := (List.nodup_cons.1 (List.nodup_cons.1 hnd).2).2
      have hac : ∀ y ∈ c :: l₂, y ≠ a := by
        intro y hy h
        subst h
        exact (List.nodup_cons.1 hnd).1 (by simp_all)
      have hcy : ∀ y ∈ l₂ ++ [z], y ≠ c := fun y hy h => (List.nodup_cons.1 hnd').1 (h ▸ hy)
      refine ⟨?_, ?_, h6.congr (fun y hy => ?_) (fun y hy => ?_)⟩
      · rw [Function.update_self, h4]
      · rw [h4, Function.update_self]
      · rw [Function.update_of_ne (hac y hy)]
      · rw [h4, Function.update_of_ne (hcy y hy)]
  | a, b :: l₁, ⟨h1, h2, h3⟩, hnd => by
    have hnd' := (List.nodup_cons.1 hnd).2
    have ih := h3.unlink hnd'
    have hprev : prev x ≠ a := by
      rw [h3.prev_eq]
      intro h
      exact (List.nodup_cons.1 hnd).1 (by
        have := h ▸ List.getLast_mem (List.cons_ne_nil b l₁)
        simp_all)
    have hnext : next x ≠ b := by
      rw [h3.next_eq]
      intro h
      have hmem : (l₂ ++ [z]).head (by simp) ∈ l₂ ++ [z] := List.head_mem _
      rw [h] at hmem
      have := (List.nodup_cons.1 hnd').1
      simp_all
    refine ⟨?_, ?_, ih⟩
    · rw [Function.update_of_ne hprev.symm, h1]
    · rw [Function.update_of_ne hnext.symm, h2]

end DList
