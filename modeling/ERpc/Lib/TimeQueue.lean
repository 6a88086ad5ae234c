import Mathlib

/-!
# Queues ordered by time

A priority queue whose top is an element of least time, kept as a list sorted by time. `push`
puts an element after every element of no greater time, so elements of equal time leave in the
order they came. An element is due at `now` when its time is not after `now`.
-/

namespace TimeQueue

variable {α : Type*} (time : α → ℕ)

/-- Put `x` after every element whose time is at most its own. -/
def push (x : α) : List α → List α
  | [] => [x]
  | y :: ys => if time y ≤ time x then y :: push x ys else x :: y :: ys

/-- Sorted by time. -/
def Sorted (l : List α) : Prop := l.Pairwise fun a b => time a ≤ time b

/-- The number of elements due at `now`. -/
def due (now : ℕ) (l : List α) : ℕ := l.countP fun a => time a ≤ now

variable {time} {x y : α} {l ys : List α} {now : ℕ}

theorem push_cons_of_le (h : time y ≤ time x) : push time x (y :: ys) = y :: push time x ys := by
  rw [push, if_pos h]

theorem push_perm (x : α) : ∀ l : List α, (push time x l).Perm (x :: l)
  | [] => List.Perm.refl _
  | y :: ys => by
    unfold push
    split_ifs
    · exact ((push_perm x ys).cons y).trans (List.Perm.swap x y ys)
    · exact List.Perm.refl _

theorem mem_push {a : α} : a ∈ push time x l ↔ a = x ∨ a ∈ l := by
  rw [(push_perm x l).mem_iff, List.mem_cons]

theorem sublist_push (x : α) : ∀ l : List α, l.Sublist (push time x l)
  | [] => List.nil_sublist _
  | y :: ys => by
    unfold push
    split_ifs
    · exact (sublist_push x ys).cons_cons y
    · exact List.sublist_cons_self x _

theorem Sorted.push (hs : Sorted time l) : Sorted time (push time x l) := by
  induction l with
  | nil => exact List.pairwise_singleton _ x
  | cons y ys ih =>
    rw [Sorted, List.pairwise_cons] at hs
    unfold TimeQueue.push
    split_ifs with hyx
    · refine List.pairwise_cons.2 ⟨fun a ha => ?_, ih hs.2⟩
      rcases mem_push.1 ha with rfl | ha
      · exact hyx
      · exact hs.1 a ha
    · refine List.pairwise_cons.2 ⟨fun a ha => ?_, List.pairwise_cons.2 hs⟩
      rcases List.mem_cons.1 ha with rfl | ha
      · omega
      · have := hs.1 a ha
        omega

theorem due_push_of_lt (h : now < time x) : due time now (push time x l) = due time now l := by
  unfold due
  rw [(push_perm x l).countP_eq, List.countP_cons_of_neg]
  simpa using h

theorem due_cons_of_le (h : time y ≤ now) : due time now (y :: ys) = due time now ys + 1 := by
  unfold due
  rw [List.countP_cons_of_pos]
  simpa using h

theorem due_le_length (now : ℕ) (l : List α) : due time now l ≤ l.length :=
  List.countP_le_length

/-- In a sorted queue whose head is not due, nothing is due. -/
theorem Sorted.forall_lt (hs : Sorted time (y :: ys)) (h : now < time y) :
    ∀ a ∈ y :: ys, now < time a := by
  intro a ha
  rcases List.mem_cons.1 ha with rfl | ha
  · exact h
  · exact lt_of_lt_of_le h (List.rel_of_pairwise_cons hs ha)

end TimeQueue
