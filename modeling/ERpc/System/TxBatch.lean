import Mathlib
import ERpc.Model.TxBatch
import ERpc.System.IbTransport

/-!
# The TX batch over any run of the datapath

The datapath enqueues items for transmission, ends event loop iterations, and drains the batch
and the transport's DMA queue, in any order. As long as fewer than `2 ^ 64` packets pass between
two flushes, every item is handed to `tx_burst` once and in the order it was enqueued, the batch
never writes past the end of `tx_burst_arr_`, and a drain leaves nothing behind
(`tx_batch_sends_in_order`). Every call the batch makes on the transport is a burst of 1 to
`kPostlist` packets or a flush, so the transport it drives is one the selective signaling system
reaches (`tx_batch_refines_ib_transport`), and what is proved there of every reachable transport
holds of it.
-/

namespace ERpc

open Transition IbTransport

/-- What the datapath does to the TX batch: enqueue an item, end an iteration of the event loop,
or drain the batch and the DMA queue. -/
inductive TxAct (α : Type)
  | enqueue (x : α)
  | evLoopEnd
  | drain

/-- The TX batch, with the items the datapath has enqueued. -/
structure TxSys (α : Type) where
  b : TxBatch α
  enqueued : List α

namespace TxSys

variable {α : Type}

/-- A new Rpc, which has enqueued nothing. -/
def init : TxSys α := ⟨TxBatch.init, []⟩

/-- One step of the system. -/
def step (s : TxSys α) : TxAct α → Option (TxSys α)
  | .enqueue x => (s.b.enqueueTxBurstSt x).map fun b => ⟨b, s.enqueued ++ [x]⟩
  | .evLoopEnd => s.b.drainTxBatch.map fun b => ⟨b, s.enqueued⟩
  | .drain => s.b.drainTxBatchAndDmaQueue.map fun b => ⟨b, s.enqueued⟩

/-- A step that does not carry `nb_tx` past `SIZE_MAX`: the packets since the last flush, with
those of the batch, stay below `2 ^ 64`. -/
def stepNoWrap (s : TxSys α) (a : TxAct α) : Option (TxSys α) :=
  match a with
  | .enqueue _ =>
    if s.b.transport.nbTx.toNat + s.b.txBurstArr.length + 1 < 2 ^ 64 then s.step a else none
  | _ => s.step a

/-- What holds in every reachable state: the transport is the one after some number of packets
since the last flush, the batch has room, and the items handed to the transport followed by the
batch are the items enqueued. -/
structure Inv (s : TxSys α) : Prop where
  after : ∃ m, s.b.transport = after m ∧ m + s.b.txBurstArr.length < 2 ^ 64
  room : s.b.txBurstArr.length < kPostlist
  fifo : s.b.sent ++ s.b.txBurstArr = s.enqueued

section Steps

variable {s t : TxSys α} {m : ℕ}

/-- A burst that does not wrap is a step of the signaling system. -/
theorem run_txBurst_after {n : ℕ} (h1 : 1 ≤ n) (hp : n ≤ kPostlist) (hw : m + n < 2 ^ 64) :
    run IbTransport.stepNoWrap (after m) [.txBurst n] = some (after (m + n)) := by
  rw [run_cons, IbTransport.stepNoWrap, after_nbTx (by omega), if_pos hw,
    step_txBurst_after h1 hp hw]
  rfl

/-- The transport calls of the rest of the batch: a burst if it is not empty. -/
def drainCalls (n : ℕ) : List IbCall := if 0 < n then [.txBurst n] else []

theorem run_drainCalls {n : ℕ} (hp : n ≤ kPostlist) (hw : m + n < 2 ^ 64) :
    run IbTransport.stepNoWrap (after m) (drainCalls n) = some (after (m + n)) := by
  unfold drainCalls
  split_ifs with h0
  · exact run_txBurst_after h0 hp hw
  · rw [show n = 0 by omega, Nat.add_zero]
    rfl

theorem Inv.init : Inv (init : TxSys α) where
  after := ⟨0, rfl, show 0 + 0 < 2 ^ 64 by decide⟩
  room := show 0 < kPostlist by decide
  fifo := rfl

/-- One step keeps the invariant, and the transport calls it makes are a run of the signaling
system. -/
theorem Inv.stepNoWrap (hi : Inv s) {a : TxAct α} (h : s.stepNoWrap a = some t) :
    Inv t ∧ ∃ calls, run IbTransport.stepNoWrap s.b.transport calls = some t.b.transport := by
  obtain ⟨m, ht, hw⟩ := hi.after
  have hroom := hi.room
  have hfifo := hi.fifo
  cases a with
  | enqueue x =>
    simp only [TxSys.stepNoWrap, ht, after_nbTx (show m < 2 ^ 64 by omega)] at h
    split_ifs at h with hw'
    simp only [step, TxBatch.enqueueTxBurstSt_after x ht hroom hw'] at h
    split_ifs at h with hfull
    · rw [Option.map_some, Option.some.injEq] at h
      subst h
      refine ⟨⟨⟨m + (s.b.txBurstArr.length + 1), rfl, by simp only [List.length_nil]; omega⟩,
        show 0 < kPostlist by decide, by simp [← hfifo]⟩, ?_⟩
      exact ⟨[.txBurst (s.b.txBurstArr.length + 1)],
        ht ▸ run_txBurst_after (by omega) (by omega) (by omega)⟩
    · rw [Option.map_some, Option.some.injEq] at h
      subst h
      refine ⟨⟨⟨m, ht, by simp; omega⟩, by simp; omega, by simp [← hfifo]⟩, [], ?_⟩
      rfl
  | evLoopEnd =>
    simp only [TxSys.stepNoWrap, step,
      TxBatch.drainTxBatch_after ht hroom.le hw, Option.map_some, Option.some.injEq] at h
    subst h
    refine ⟨⟨⟨m + s.b.txBurstArr.length, rfl, by simp only [List.length_nil]; omega⟩,
      show 0 < kPostlist by decide, by simp [← hfifo]⟩, ?_⟩
    exact ⟨drainCalls s.b.txBurstArr.length, ht ▸ run_drainCalls hroom.le hw⟩
  | drain =>
    simp only [TxSys.stepNoWrap, step,
      TxBatch.drainTxBatchAndDmaQueue_after ht hroom.le hw, Option.map_some,
      Option.some.injEq] at h
    subst h
    refine ⟨⟨⟨0, rfl, show 0 + 0 < 2 ^ 64 by decide⟩, show 0 < kPostlist by decide,
      by simp [← hfifo]⟩, ?_⟩
    refine ⟨drainCalls s.b.txBurstArr.length ++ [.txFlush], ?_⟩
    rw [run_append, ht, run_drainCalls hroom.le hw, Option.bind_some, run_cons,
      IbTransport.stepNoWrap, IbTransport.step, txFlush_after hw]
    rfl

theorem inv_of_reachable (hr : Reachable stepNoWrap init s) : Inv s :=
  Reachable.induct Inv Inv.init (fun _ _ _ _ hi h => (hi.stepNoWrap h).1) hr

end Steps

section Batching

variable {s : TxSys α}

/-- Every item enqueued is handed to the transport once and in order, after those enqueued
before it, and the batch holds the rest; the batch never reaches the end of `tx_burst_arr_`,
another item goes in as long as `nb_tx` does not wrap, and the end of an event loop iteration or
a drain hands the whole batch over, the drain leaving the transport flushed. -/
theorem tx_batch_sends_in_order (hr : Reachable stepNoWrap init s) :
    s.b.sent ++ s.b.txBurstArr = s.enqueued ∧ s.b.txBurstArr.length < kPostlist ∧
      (∀ x, s.b.transport.nbTx.toNat + s.b.txBurstArr.length + 1 < 2 ^ 64 →
        (s.stepNoWrap (.enqueue x)).isSome) ∧
      (∃ b, s.b.drainTxBatch = some b ∧ b.sent = s.enqueued ∧ b.txBurstArr = []) ∧
      ∃ b, s.b.drainTxBatchAndDmaQueue = some b ∧ b.sent = s.enqueued ∧ b.txBurstArr = [] ∧
        b.transport = IbTransport.init := by
  have hi := inv_of_reachable hr
  obtain ⟨m, ht, hw⟩ := hi.after
  refine ⟨hi.fifo, hi.room, fun x hx => ?_, ⟨_, TxBatch.drainTxBatch_after ht hi.room.le hw,
    hi.fifo, rfl⟩, ⟨_, TxBatch.drainTxBatchAndDmaQueue_after ht hi.room.le hw, hi.fifo, rfl, rfl⟩⟩
  rw [ht, after_nbTx (by omega)] at hx
  simp only [TxSys.stepNoWrap, ht, after_nbTx (show m < 2 ^ 64 by omega), if_pos hx, step,
    TxBatch.enqueueTxBurstSt_after x ht hi.room hx]
  split_ifs <;> rfl

/-- The transport the batch drives is one the selective signaling system reaches: every call
the batch makes on it is a burst of 1 to `kPostlist` packets or a flush, and none carries `nb_tx`
past `SIZE_MAX`. -/
theorem tx_batch_refines_ib_transport (hr : Reachable stepNoWrap init s) :
    Reachable IbTransport.stepNoWrap IbTransport.init s.b.transport :=
  Reachable.map (fun s : TxSys α => s.b.transport) rfl
    (fun _ _ _ hr h => ((inv_of_reachable hr).stepNoWrap h).2) hr

/-- Seventeen items enqueued, then the end of an event loop iteration: a full burst of
`kPostlist`, then a burst of one. -/
def seventeenRun : List (TxAct ℕ) := (List.range 17).map .enqueue ++ [.evLoopEnd]

theorem seventeenRun_reachable : ∃ s : TxSys ℕ, Reachable stepNoWrap init s ∧
    (s.b.sent = List.range 17 ∧ s.b.transport.nbTx = 17) :=
  Reachable.exists_of_run seventeenRun (by decide)

theorem tx_batch_sends_in_order_seventeen : ∃ s : TxSys ℕ, Reachable stepNoWrap init s ∧
    s.b.sent = List.range 17 ∧ s.b.sent ++ s.b.txBurstArr = s.enqueued ∧
      s.b.txBurstArr.length < kPostlist := by
  obtain ⟨s, hr, hsent, -⟩ := seventeenRun_reachable
  obtain ⟨hfifo, hroom, -⟩ := tx_batch_sends_in_order hr
  exact ⟨s, hr, hsent, hfifo, hroom⟩

theorem tx_batch_refines_ib_transport_seventeen : ∃ s : TxSys ℕ, Reachable stepNoWrap init s ∧
    s.b.transport.nbTx = 17 ∧ Reachable IbTransport.stepNoWrap IbTransport.init s.b.transport := by
  obtain ⟨s, hr, -, hnb⟩ := seventeenRun_reachable
  exact ⟨s, hr, hnb, tx_batch_refines_ib_transport hr⟩

end Batching

end TxSys

end ERpc
