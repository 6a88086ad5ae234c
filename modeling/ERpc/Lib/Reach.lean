import Mathlib.Algebra.Group.Nat.Defs
import Mathlib.Logic.Basic
import Mathlib.Data.Nat.Notation
import Mathlib.Tactic.SplitIfs

/-!
# Runs of a partial transition function

A system is an initial state and a partial step function `exec : σ → α → Option σ`: an action
`a` is enabled in `s` when `exec s a` is `some`. `Reachable exec init` is the least set of states
that holds `init` and is closed under enabled actions, and `run` applies a list of actions, so
that a concrete run can be evaluated (`Reachable.of_run`, `Reachable.exists_of_run`).
`countSteps` counts the steps of a run that have a given kind.

An invariant is a predicate that holds initially and that every enabled action keeps
(`Reachable.induct`); the rule may use that the state it starts from is itself reachable, so
that lemmas already proved of every reachable state can be used to prove the next one.
-/

namespace Transition

variable {σ α : Type*}

/-- The states reached from `init` by enabled actions. -/
inductive Reachable (exec : σ → α → Option σ) (init : σ) : σ → Prop
  | init : Reachable exec init init
  | step {s t : σ} (a : α) : Reachable exec init s → exec s a = some t → Reachable exec init t

/-- Apply `as` one after another, and fail at the first action that is not enabled. -/
def run (exec : σ → α → Option σ) : σ → List α → Option σ
  | s, [] => some s
  | s, a :: as => (exec s a).bind fun t => run exec t as

/-- The steps of the run `as` from `s` whose states before and after pass `P`; the run stops at
its first action that is not enabled. -/
def countSteps (exec : σ → α → Option σ) (P : σ → σ → Bool) : σ → List α → ℕ
  | _, [] => 0
  | s, a :: as =>
    match exec s a with
    | none => 0
    | some t => (if P s t then 1 else 0) + countSteps exec P t as

variable {exec : σ → α → Option σ} {init : σ}

@[simp] theorem run_nil (s : σ) : run exec s [] = some s := rfl

theorem run_cons (s : σ) (a : α) (as : List α) :
    run exec s (a :: as) = (exec s a).bind fun t => run exec t as := rfl

/-- A run whose first action is enabled goes on from the state that action leads to. -/
theorem run_cons_of_exec {s t : σ} {a : α} (h : exec s a = some t) (as : List α) :
    run exec s (a :: as) = run exec t as := by
  rw [run_cons, h, Option.bind_some]

/-- A run of two parts is the second run from where the first ends. -/
theorem run_append : ∀ (s : σ) (as bs : List α),
    run exec s (as ++ bs) = (run exec s as).bind fun t => run exec t bs
  | s, [], bs => rfl
  | s, a :: as, bs => by
    rw [List.cons_append, run_cons, run_cons, Option.bind_assoc]
    congr 1
    funext t
    exact run_append t as bs

/-- Every state a run reaches from a reachable state is reachable. -/
theorem Reachable.of_run : ∀ {s t : σ} (as : List α), Reachable exec init s →
    run exec s as = some t → Reachable exec init t
  | s, t, [], hs, h => by
    simp only [run_nil, Option.some.injEq] at h
    exact h ▸ hs
  | s, t, a :: as, hs, h => by
    rw [run_cons] at h
    rcases ha : exec s a with _ | u
    · rw [ha] at h
      exact absurd h (by simp)
    · rw [ha, Option.bind_some] at h
      exact Reachable.of_run as (hs.step a ha) h

/-- The invariant rule over a run: what holds before and is kept by every enabled action of the
run holds after it. -/
theorem run_induct (P : σ → Prop) (A : α → Prop)
    (hs : ∀ s a t, P s → A a → exec s a = some t → P t) :
    ∀ (as : List α) {s t : σ}, P s → (∀ a ∈ as, A a) → run exec s as = some t → P t
  | [], s, t, hp, _, h => by
    simp only [run_nil, Option.some.injEq] at h
    exact h ▸ hp
  | a :: as, s, t, hp, ha, h => by
    rw [run_cons] at h
    rcases he : exec s a with _ | u
    · rw [he] at h
      exact absurd h (by simp)
    · rw [he, Option.bind_some] at h
      exact run_induct P A hs as (hs s a u hp (ha a List.mem_cons_self) he)
        (fun b hb => ha b (List.mem_cons_of_mem a hb)) h

/-- A run from a reachable state whose last state passes a decidable test exhibits a reachable
state where the test holds; with `decide` this evaluates a concrete run. -/
theorem Reachable.exists_of_run_from {p : σ → Prop} [DecidablePred p] {s : σ}
    (hs : Reachable exec init s) (as : List α)
    (h : (run exec s as).map (fun t => decide (p t)) = some true) :
    ∃ t, Reachable exec init t ∧ p t := by
  rcases hr : run exec s as with _ | t
  · rw [hr] at h
    exact absurd h (by simp)
  · rw [hr, Option.map_some, Option.some.injEq, decide_eq_true_iff] at h
    exact ⟨t, Reachable.of_run as hs hr, h⟩

/-- The same from the initial state. -/
theorem Reachable.exists_of_run {p : σ → Prop} [DecidablePred p] (as : List α)
    (h : (run exec init as).map (fun s => decide (p s)) = some true) :
    ∃ s, Reachable exec init s ∧ p s :=
  Reachable.exists_of_run_from .init as h

/-- The invariant rule: what holds initially and is kept by every enabled action from a
reachable state holds in every reachable state. -/
theorem Reachable.induct (I : σ → Prop) (h0 : I init)
    (hs : ∀ s a t, Reachable exec init s → I s → exec s a = some t → I t) :
    ∀ {s : σ}, Reachable exec init s → I s
  | _, .init => h0
  | _, .step a hr ha => hs _ a _ hr (Reachable.induct I h0 hs hr) ha

/-- The simulation rule: when the image under `f` of every enabled step of one system is a run
of another, from the image of the initial state, the image of every reachable state is
reachable there. -/
theorem Reachable.map {τ β : Type*} {exec' : τ → β → Option τ} {init' : τ} (f : σ → τ)
    (h0 : f init = init')
    (hs : ∀ s a t, Reachable exec init s → exec s a = some t → ∃ bs, run exec' (f s) bs = some (f t)) :
    ∀ {s : σ}, Reachable exec init s → Reachable exec' init' (f s) :=
  Reachable.induct (fun s => Reachable exec' init' (f s)) (h0 ▸ .init) fun s a t hr hi h => by
    obtain ⟨bs, hbs⟩ := hs s a t hr h
    exact Reachable.of_run bs hi hbs

/-- A kind of step that starts where `D` fails and ends where it holds, with `D` kept by every
step once true, is taken at most once by a run from a reachable state, and not at all from a
state where `D` already holds. -/
theorem countSteps_le (P : σ → σ → Bool) (D : σ → Prop) [DecidablePred D]
    (hD : ∀ s a t, Reachable exec init s → exec s a = some t → D s → D t)
    (hP : ∀ s a t, Reachable exec init s → exec s a = some t → P s t → ¬ D s ∧ D t) :
    ∀ (as : List α) {s : σ}, Reachable exec init s →
      countSteps exec P s as ≤ if D s then 0 else 1
  | [], _, _ => Nat.zero_le _
  | a :: as, s, hs => by
    simp only [countSteps]
    rcases ha : exec s a with _ | t
    · exact Nat.zero_le _
    · have ih := countSteps_le P D hD hP as (hs.step a ha)
      by_cases hDs : D s
      · have hPst : P s t = false := by
          cases hp : P s t
          · rfl
          · exact absurd hDs (hP s a t hs ha hp).1
        rw [if_pos (hD s a t hs ha hDs)] at ih
        simp only [hPst, hDs, if_true, Bool.false_eq_true, if_false]
        omega
      · by_cases hPst : P s t
        · rw [if_pos (hP s a t hs ha hPst).2] at ih
          simp only [hPst, hDs, if_true, if_false]
          omega
        · have : (if D t then 0 else 1) ≤ 1 := by split_ifs <;> omega
          simp only [hPst, hDs, Bool.false_eq_true, if_false]
          omega

/-- The once-only rule over whole runs from the initial state. -/
theorem countSteps_init_le_one (P : σ → σ → Bool) (D : σ → Prop) [DecidablePred D]
    (hD : ∀ s a t, Reachable exec init s → exec s a = some t → D s → D t)
    (hP : ∀ s a t, Reachable exec init s → exec s a = some t → P s t → ¬ D s ∧ D t)
    (as : List α) : countSteps exec P init as ≤ 1 := by
  have := countSteps_le P D hD hP as .init
  split_ifs at this <;> omega

end Transition
