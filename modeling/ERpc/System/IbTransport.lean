import ERpc.Model.IbTransport
import ERpc.Lib.Reach
import Mathlib

/-!
# Selective signaling over any sequence of bursts and flushes

The datapath calls `tx_burst` with 1 to `kPostlist` packets and `tx_flush`, in any order. As long
as no burst carries `nb_tx` past `SIZE_MAX`, the transport is always the one after some number of
packets since the last flush (`after`). So the send queue holds fewer than `kSQDepth` requests,
exactly one of them signaled while `nb_tx` is not 0, and no poll ever waits on an empty CQ.

`nb_tx` is a `size_t`, and only `tx_flush` resets it, so the bound is on the packets sent between
two flushes: fewer than `2 ^ 64`, which at a hundred million packets a second takes thousands of
years to reach. `stepNoWrap` is the datapath within that physical limit.
-/

namespace ERpc

open Transition

/-- The calls of the datapath on the send side of the transport. -/
inductive IbCall
  | txBurst (numPkts : ℕ)
  | txFlush
  deriving DecidableEq, Repr

namespace IbTransport

/-- A call; a burst has 1 to `kPostlist` packets. -/
def step (t : IbTransport) : IbCall → Option IbTransport
  | .txBurst n => if 1 ≤ n ∧ n ≤ kPostlist then t.txBurst n else none
  | .txFlush => t.txFlush

/-- A call that does not carry `nb_tx` past `SIZE_MAX`. -/
def stepNoWrap (t : IbTransport) (c : IbCall) : Option IbTransport :=
  match c with
  | .txBurst n => if t.nbTx.toNat + n < 2 ^ 64 then t.step c else none
  | .txFlush => t.step c

theorem after_zero : after 0 = init := rfl

theorem after_nbTx {n : ℕ} (hn : n < 2 ^ 64) : (after n).nbTx.toNat = n := by
  rw [after, UInt64.toNat_ofNat', Nat.mod_eq_of_lt hn]

theorem step_txBurst_after {n numPkts : ℕ} (h1 : 1 ≤ numPkts) (hp : numPkts ≤ kPostlist)
    (hw : n + numPkts < 2 ^ 64) :
    (after n).step (.txBurst numPkts) = some (after (n + numPkts)) := by
  rw [step, if_pos ⟨h1, hp⟩, txBurst_after hp hw]

/-- Every state reached without a wrap is the transport after some number of packets since the
last flush. -/
theorem exists_after_of_reachable {t : IbTransport} (hr : Reachable stepNoWrap init t) :
    ∃ n < 2 ^ 64, t = after n := by
  refine Reachable.induct (fun t => ∃ n < 2 ^ 64, t = after n) ⟨0, by decide, rfl⟩
    (fun t c t' _ hi hs => ?_) hr
  obtain ⟨n, hn, rfl⟩ := hi
  cases c with
  | txBurst k =>
    simp only [stepNoWrap, after_nbTx hn] at hs
    split_ifs at hs with hw
    simp only [step] at hs
    split_ifs at hs with hk
    rw [txBurst_after hk.2 hw, Option.some.injEq] at hs
    exact ⟨n + k, hw, hs.symm⟩
  | txFlush =>
    simp only [stepNoWrap, step, txFlush_after hn, Option.some.injEq] at hs
    exact ⟨0, by decide, by rw [← hs, after_zero]⟩

/-- Selective signaling over any sequence of bursts and flushes in which `nb_tx` does not wrap.
The send queue holds fewer than `kSQDepth` requests, exactly one of them signaled when `nb_tx` is
not 0 and none when it is 0, and every burst and every flush gets past its polls. -/
theorem ib_signaling_bounded_until_wrap {t : IbTransport} (hr : Reachable stepNoWrap init t) :
    t.sendQueue.length < kSQDepth ∧
    (t.nbTx ≠ 0 → t.sendQueue.count true = 1) ∧
    (t.nbTx = 0 → t.sendQueue = []) ∧
    (∀ numPkts, 1 ≤ numPkts → numPkts ≤ kPostlist → t.nbTx.toNat + numPkts < 2 ^ 64 →
      ∃ t', t.txBurst numPkts = some t') ∧
    ∃ t', t.txFlush = some t' := by
  obtain ⟨n, hn, rfl⟩ := exists_after_of_reachable hr
  have hlen : (sqOf n).length < kSQDepth := by
    have := sqOf_length_le n
    unfold kSQDepth at this ⊢
    omega
  refine ⟨hlen, fun h0 => sqOf_count_true ?_, fun h0 => ?_,
    fun k _ hk hw => ⟨_, txBurst_after hk (by rwa [after_nbTx hn] at hw)⟩, ⟨_, txFlush_after hn⟩⟩
  · exact fun h => h0 ((ofNat_eq_zero_iff hn).2 h)
  · rw [(ofNat_eq_zero_iff hn).1 h0]
    rfl

/-- Five bursts of `kPostlist` packets. -/
def fiveBursts : List IbCall := List.replicate 5 (.txBurst kPostlist)

theorem ib_signaling_bounded_until_wrap_eighty :
    ∃ t, Reachable stepNoWrap init t ∧ t.nbTx = 80 ∧ t.sendQueue.count true = 1 ∧
      t.sendQueue.length < kSQDepth := by
  have hrun : ∃ t, Reachable stepNoWrap init t ∧ t.nbTx = 80 :=
    Reachable.exists_of_run fiveBursts (by decide +kernel)
  obtain ⟨t, hr, h80⟩ := hrun
  obtain ⟨hlen, hone, -⟩ := ib_signaling_bounded_until_wrap hr
  exact ⟨t, hr, h80, hone (by rw [h80]; decide), hlen⟩

end IbTransport

end ERpc
