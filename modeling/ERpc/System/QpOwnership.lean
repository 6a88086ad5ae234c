import ERpc.Model.QpOwnership
import ERpc.Lib.Reach
import Mathlib

/-!
# The queue-pair ownership table over any sequence of calls

Any processes call `get_qp` and `free_qp` on any port and the daemon calls
`daemon_reclaim_qps_from_crashed`, one call at a time under the table's mutex. The owner of an
owned slot changes only when its owner frees it or the daemon finds it dead, and the counter
stays in step with the owned slots modulo `2 ^ 64` (`Balanced`). Since one counter serves the
slots of both ports, it reads `kMaxQueuesPerPort` minus the owned queue pairs only while at most
`kMaxQueuesPerPort` are owned: the seventeenth queue pair taken wraps it to `SIZE_MAX`.
-/

namespace ERpc

open Transition

/-- The calls on the table: `get_qp` and `free_qp` by the process `pid`, and the daemon's reclaim,
where `alive` says which processes exist. -/
inductive QpCall
  | getQp (phyPort : Fin kMaxPhyPorts) (procRandomId pid : ℕ)
  | freeQp (phyPort : Fin kMaxPhyPorts) (qpId : Fin kMaxQueuesPerPort) (pid : ℕ)
  | daemonReclaimQpsFromCrashed (phyPort : Fin kMaxPhyPorts) (alive : ℕ → Bool)

namespace OwnershipMemzone

/-- One call; the PID of a process is positive. -/
def step (m : OwnershipMemzone) : QpCall → Option OwnershipMemzone
  | .getQp p rid pid => if 0 < pid then some (m.getQp p rid pid).1 else none
  | .freeQp p i pid => if 0 < pid then some (m.freeQp p i pid).1 else none
  | .daemonReclaimQpsFromCrashed p alive => some (m.daemonReclaimQpsFromCrashed p alive)

variable {m t : OwnershipMemzone} {a : QpCall}

theorem step_balanced (h : m.Balanced) (hs : m.step a = some t) : t.Balanced := by
  cases a with
  | getQp p rid pid =>
    simp only [step] at hs
    split_ifs at hs with hpid
    cases hs
    exact getQp_balanced h p rid hpid
  | freeQp p i pid =>
    simp only [step] at hs
    split_ifs at hs
    cases hs
    exact freeQp_balanced h p i pid
  | daemonReclaimQpsFromCrashed p alive =>
    simp only [step, Option.some.injEq] at hs
    subst hs
    exact daemonReclaimQpsFromCrashed_balanced h p alive

theorem balanced_of_reachable (hr : Reachable step init m) : m.Balanced :=
  Reachable.induct Balanced init_balanced (fun _ _ _ _ hi hs => step_balanced hi hs) hr

/-- A call changes the owner of an owned slot only when that owner frees it, or when the daemon's
reclaim on its port finds the owner dead. -/
theorem step_owner_changed (hs : m.step a = some t) {p : Fin kMaxPhyPorts}
    {i : Fin kMaxQueuesPerPort} (ho : (m.owner p i).pid ≠ 0) (h : t.owner p i ≠ m.owner p i) :
    a = .freeQp p i (m.owner p i).pid ∨
      ∃ alive, a = .daemonReclaimQpsFromCrashed p alive ∧ alive (m.owner p i).pid = false := by
  cases a with
  | getQp q rid pid =>
    simp only [step] at hs
    split_ifs at hs
    cases hs
    exact absurd (getQp_owner_changed q rid pid h).2 ho
  | freeQp q j pid =>
    simp only [step] at hs
    split_ifs at hs
    cases hs
    obtain ⟨rfl, rfl, hpid⟩ := freeQp_owner_changed q j pid h
    exact .inl (by rw [hpid])
  | daemonReclaimQpsFromCrashed q alive =>
    simp only [step, Option.some.injEq] at hs
    subst hs
    obtain ⟨rfl, -, hdead⟩ := daemonReclaimQpsFromCrashed_owner_changed q alive h
    exact .inr ⟨alive, rfl, hdead⟩

/-- The table over any sequence of calls. `get_qp` returns only a slot that was free, which the
caller then owns, and `kInvalidQpId` only when the port has no free slot or the PID check fails;
a failed `free_qp` changes nothing but `epoch_`; an owned slot changes hands only when its owner
frees it or is found dead. The counter reads `kMaxQueuesPerPort` minus the owned queue pairs
exactly while no more than `kMaxQueuesPerPort` are owned. -/
theorem qp_ownership_counter_wraps (hr : Reachable step init m) :
    (∀ p rid pid, (m.getQp p rid pid).2 ≠ kInvalidQpId →
      ∃ i : Fin kMaxQueuesPerPort, (m.getQp p rid pid).2 = i ∧ (m.owner p i).pid = 0 ∧
        (m.getQp p rid pid).1.owner p i = ⟨pid, rid⟩) ∧
    (∀ p rid pid, (m.getQp p rid pid).2 = kInvalidQpId →
      (∀ i, (m.owner p i).pid ≠ 0) ∨
        ∃ i, (m.owner p i).pid = pid ∧ (m.owner p i).procRandomId ≠ rid) ∧
    (∀ p i pid, (m.freeQp p i pid).2 ≠ .ok →
      (m.freeQp p i pid).1 = { m with epoch := m.epoch + 1 }) ∧
    (∀ a t, m.step a = some t → ∀ p i, (m.owner p i).pid ≠ 0 → t.owner p i ≠ m.owner p i →
      a = .freeQp p i (m.owner p i).pid ∨
        ∃ alive, a = .daemonReclaimQpsFromCrashed p alive ∧ alive (m.owner p i).pid = false) ∧
    (m.numQpsAvailable.toNat = kMaxQueuesPerPort - m.ownedCount ↔
      m.ownedCount ≤ kMaxQueuesPerPort) := by
  refine ⟨fun p rid pid => getQp_snd_ne_invalid p rid pid,
    fun p rid pid => getQp_snd_eq_invalid p rid pid, fun p i pid => freeQp_of_ne_ok p i pid,
    fun a t hs p i ho h => step_owner_changed hs ho h, ?_⟩
  have hc := (balanced_of_reachable hr).numQpsAvailable_toNat
  have hle := m.ownedCount_le
  simp only [kMaxPhyPorts, kMaxQueuesPerPort, Nat.reducePow] at hc hle ⊢
  omega

/-- Sixteen `get_qp` on port 0 and one on port 1, by one process. -/
def seventeenGetQps : List QpCall :=
  List.replicate 16 (.getQp ⟨0, by decide⟩ 1 1) ++ [.getQp ⟨1, by decide⟩ 1 1]

theorem qp_ownership_counter_wraps_seventeen :
    ∃ m, Reachable step init m ∧ m.ownedCount = 17 ∧ m.numQpsAvailable.toNat = 2 ^ 64 - 1 ∧
      m.numQpsAvailable.toNat ≠ kMaxQueuesPerPort - m.ownedCount := by
  have hrun : ∃ m, Reachable step init m ∧ m.ownedCount = 17 ∧
      m.numQpsAvailable.toNat = 2 ^ 64 - 1 :=
    Reachable.exists_of_run seventeenGetQps (by decide +kernel)
  obtain ⟨m, hr, h17, hmax⟩ := hrun
  refine ⟨m, hr, h17, hmax, fun h => ?_⟩
  have := (qp_ownership_counter_wraps hr).2.2.2.2.1 h
  rw [h17] at this
  exact absurd this (by decide)

end OwnershipMemzone

end ERpc
