import Mathlib
import ERpc.Model.IbTransport

/-!
# The TX batch of an Rpc

`Rpc::enqueue_pkt_tx_burst_st` and `Rpc::enqueue_hdr_tx_burst_st` (`rpc.h`) fill in the item of
the TX burst array `tx_burst_arr_` at `tx_batch_i_`, and once the array holds `kPostlist` items
`do_tx_burst_st` hands them to the transport's `tx_burst`. The event loop hands over what is left
at the end of each iteration, and `drain_tx_batch_and_dma_queue` does the same and then flushes
the transport with `tx_flush`.

The transport is `IBTransport`, whose send side is its selective signaling
(`ERpc.Model.IbTransport`). The batch does not look into its items, so the functions here are
generic in them; the two enqueue functions differ only in the item they fill in. The TX
timestamps written through `tx_ts_` under `kCcRTT`, and the `drop_` flag of testing builds, are
left out.
-/

namespace ERpc

open IbTransport

/-- `Transport::tx_burst_item_t` without the timestamp pointer and the testing flag. -/
structure TxBurstItem (R M : Type) where
  routingInfo : R
  msgBuffer : M
  pktIdx : ℕ

/-- The TX side of an `Rpc<IBTransport>`: the items of `tx_burst_arr_` below `tx_batch_i_`, the
transport, and the items handed to its `tx_burst`, in order. -/
structure TxBatch (α : Type) where
  txBurstArr : List α
  transport : IbTransport
  sent : List α

namespace TxBatch

variable {α : Type}

/-- An Rpc's batch when it is created: empty, over a new transport. -/
def init : TxBatch α := ⟨[], IbTransport.init, []⟩

/-- `Rpc::do_tx_burst_st`: `none` where its assertion fails or the transport's polls wait for
ever. -/
def doTxBurstSt (b : TxBatch α) : Option (TxBatch α) :=
  if b.txBurstArr.length = 0 then none
  else (b.transport.txBurst b.txBurstArr.length).map fun tr => ⟨[], tr, b.sent ++ b.txBurstArr⟩

/-- The body shared by `enqueue_pkt_tx_burst_st` and `enqueue_hdr_tx_burst_st` for the item `x`;
a write past the end of `tx_burst_arr_` is `none`. -/
def enqueueTxBurstSt (b : TxBatch α) (x : α) : Option (TxBatch α) :=
  if kPostlist ≤ b.txBurstArr.length then none
  else
    let b := { b with txBurstArr := b.txBurstArr ++ [x] }
    if b.txBurstArr.length = kPostlist then b.doTxBurstSt else some b

/-- `Rpc::enqueue_pkt_tx_burst_st`: packet `pktIdx` of the sslot's `tx_msgbuf_`, to the session's
remote routing info. -/
def enqueuePktTxBurstSt {R M : Type} (b : TxBatch (TxBurstItem R M)) (routingInfo : R)
    (txMsgbuf : M) (pktIdx : ℕ) : Option (TxBatch (TxBurstItem R M)) :=
  b.enqueueTxBurstSt ⟨routingInfo, txMsgbuf, pktIdx⟩

/-- `Rpc::enqueue_hdr_tx_burst_st`: the control packet in `ctrl_msgbuf`. -/
def enqueueHdrTxBurstSt {R M : Type} (b : TxBatch (TxBurstItem R M)) (routingInfo : R)
    (ctrlMsgbuf : M) : Option (TxBatch (TxBurstItem R M)) :=
  b.enqueueTxBurstSt ⟨routingInfo, ctrlMsgbuf, 0⟩

/-- `if (tx_batch_i_ > 0) do_tx_burst_st ();`, the end of `run_event_loop_do_one_st` and the start
of `drain_tx_batch_and_dma_queue`. -/
def drainTxBatch (b : TxBatch α) : Option (TxBatch α) :=
  if 0 < b.txBurstArr.length then b.doTxBurstSt else some b

def drainTxBatchAndDmaQueue (b : TxBatch α) : Option (TxBatch α) :=
  b.drainTxBatch.bind fun b => b.transport.txFlush.map fun tr => { b with transport := tr }

section After

variable {b : TxBatch α} {m : ℕ}

theorem doTxBurstSt_after (ht : b.transport = after m) (h0 : 0 < b.txBurstArr.length)
    (hp : b.txBurstArr.length ≤ kPostlist) (hw : m + b.txBurstArr.length < 2 ^ 64) :
    b.doTxBurstSt = some ⟨[], after (m + b.txBurstArr.length), b.sent ++ b.txBurstArr⟩ := by
  rw [doTxBurstSt, if_neg (Nat.pos_iff_ne_zero.1 h0), ht, txBurst_after hp hw, Option.map_some]

/-- An enqueue into a batch with room: the item joins the batch, and a batch it fills goes to
the transport. -/
theorem enqueueTxBurstSt_after (x : α) (ht : b.transport = after m)
    (hp : b.txBurstArr.length < kPostlist) (hw : m + b.txBurstArr.length + 1 < 2 ^ 64) :
    b.enqueueTxBurstSt x = if b.txBurstArr.length + 1 = kPostlist then
        some ⟨[], after (m + (b.txBurstArr.length + 1)), b.sent ++ (b.txBurstArr ++ [x])⟩
      else some { b with txBurstArr := b.txBurstArr ++ [x] } := by
  rw [enqueueTxBurstSt, if_neg (Nat.not_le.2 hp)]
  dsimp only
  rw [List.length_append, List.length_singleton]
  split_ifs with hfull
  · have hlen : ({ b with txBurstArr := b.txBurstArr ++ [x] } : TxBatch α).txBurstArr.length =
        b.txBurstArr.length + 1 := by simp
    rw [doTxBurstSt_after (b := { b with txBurstArr := b.txBurstArr ++ [x] }) ht (by omega)
      (by omega) (by omega), hlen]
  · rfl

theorem drainTxBatch_after (ht : b.transport = after m) (hp : b.txBurstArr.length ≤ kPostlist)
    (hw : m + b.txBurstArr.length < 2 ^ 64) :
    b.drainTxBatch = some ⟨[], after (m + b.txBurstArr.length), b.sent ++ b.txBurstArr⟩ := by
  rw [drainTxBatch]
  split_ifs with h0
  · exact doTxBurstSt_after ht h0 hp hw
  · obtain ⟨arr, tr, sent⟩ := b
    have harr : arr = [] := List.eq_nil_of_length_eq_zero (by simpa using h0)
    subst harr
    simp only at ht
    rw [ht, List.length_nil, Nat.add_zero, List.append_nil]

theorem drainTxBatchAndDmaQueue_after (ht : b.transport = after m)
    (hp : b.txBurstArr.length ≤ kPostlist) (hw : m + b.txBurstArr.length < 2 ^ 64) :
    b.drainTxBatchAndDmaQueue = some ⟨[], IbTransport.init, b.sent ++ b.txBurstArr⟩ := by
  rw [drainTxBatchAndDmaQueue, drainTxBatch_after ht hp hw, Option.bind_some]
  dsimp only
  rw [txFlush_after hw, Option.map_some]

end After

end TxBatch

end ERpc
