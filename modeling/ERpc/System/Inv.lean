import ERpc.System.SlotInv
import ERpc.Lib.DList
import Mathlib.Algebra.BigOperators.Group.Finset.Basic

/-!
# The invariant of the datapath

Every sslot pair satisfies `SlotInv`; every client session keeps its credits and its free sslots
in step with its sslots (`SessInv`); the active-RPC list links exactly the active client sslots,
each once, between its two sentinels; the credit stall queue and the wheel hold each sslot or
packet at most once. The initial state satisfies it (`inv_init`).
-/

namespace ERpc

open Finset

variable (T : Transport) (pacing : Bool) (n : ℕ)

/-- The bookkeeping of client session `s`: credits returned plus credits in flight make
`kSessionCredits`, the free-slot stack holds the idle sslots, each once, and requests wait in the
backlog only while no sslot is free. -/
structure SessInv (s : ℕ) (cs : Session) (w : ℕ → ClientView) : Prop where
  credits : cs.clientInfo.credits +
    ∑ j ∈ range kSessionReqWindow, ((w j).x.numTx - (w j).x.numRx) = kSessionCredits
  free_nodup : cs.clientInfo.sslotFreeVec.Nodup
  free_mem : ∀ j, j ∈ cs.clientInfo.sslotFreeVec ↔ j < kSessionReqWindow ∧ (w j).x.txMsgbuf = .null
  backlog : cs.clientInfo.enqReqBacklog ≠ [] → cs.clientInfo.sslotFreeVec = []
  backlog_ok : ∀ a ∈ cs.clientInfo.enqReqBacklog, a.sessionNum = s ∧ a.reqMsgbuf.Sized T
  connected : cs.state = .kConnected
  remote : cs.remoteSessionNum = s

/-- The active-RPC list links, between its two sentinels, exactly the active client sslots of the
`n` sessions, each once. -/
def ActiveList (cl : Rpc) : Prop :=
  ∃ l, DList.Between cl.nextOf cl.prevOf .root l .tail ∧ (Ptr.root :: l ++ [Ptr.tail]).Nodup ∧
    ∀ p, p ∈ l ↔ ∃ s i, p = .slot s i ∧ s < n ∧ i < kSessionReqWindow ∧ (cl.slot s i).txMsgbuf ≠ .null

/-- The invariant of the datapath with `n` session pairs. -/
structure Inv (d : Dp) : Prop where
  cl_size : d.cl.sessionVecSize = n
  sv_size : d.sv.sessionVecSize = n
  cl_sess : ∀ s < n, d.cl.sessionVec s = some (d.cl.sess s)
  sv_sess : ∀ s < n, d.sv.sessionVec s = some (d.sv.sess s)
  sv_static : ∀ s < n, (d.sv.sess s).state = .kConnected ∧ (d.sv.sess s).remoteSessionNum = s
  sessions : ∀ s < n, SessInv T s (d.cl.sess s) (d.cl.clientView s)
  slots : ∀ s < n, ∀ i < kSessionReqWindow,
    SlotInv T pacing s i (d.cl.clientView s i) (d.sv.serverView s i)
  list : ActiveList n d.cl
  stallq_nodup : d.cl.stallq.Nodup
  stallq_range : ∀ e ∈ d.cl.stallq, e.1 < n ∧ e.2 < kSessionReqWindow
  wheel_nodup : d.cl.wheel.Nodup
  wheel_range : ∀ e ∈ d.cl.wheel, e.1 < n ∧ e.2.1 < kSessionReqWindow
  cl_tx_range : ∀ p ∈ d.cl.tx, p.hdr.destSessionNum < n
  sv_tx_range : ∀ p ∈ d.sv.tx, p.hdr.destSessionNum < n
  events_range : ∀ e ∈ d.cl.events ++ d.sv.events, ∀ t ∈ e.slot?, t.1 < n ∧ t.2 < kSessionReqWindow
  sm_idle : d.cl.smPendingReqs = []

section Init

variable (reqFuncArr : ℕ → Option ReqFuncType) (rto : ℕ)

theorem slotInv_init {s i : ℕ} (hs : s < n) (hi : i < kSessionReqWindow) :
    SlotInv T pacing s i ((Dp.init T n reqFuncArr rto).cl.clientView s i)
      ((Dp.init T n reqFuncArr rto).sv.serverView s i) := by
  have hmod : i % kSessionReqWindow = i := Nat.mod_eq_of_lt hi
  have hlt : i < 2 ^ kReqNumBits := hi.trans (by decide)
  refine ⟨⟨?_, ?_, ?_, ?_, ?_, ?_, ?_, ?_, ?_, ?_, ?_, ?_, ?_, ?_, ?_, ?_, ?_, ?_, ?_, ?_, ?_, ?_,
    ?_, ?_, ?_, ?_, ?_, ?_, ?_, ?_, ?_, ?_, ?_, ?_, ?_⟩, ?_⟩ <;>
    simp [Dp.init, Rpc.init, Rpc.clientView, Rpc.serverView, Rpc.slot, Rpc.sess, hs,
      Dp.clientSess, Dp.serverSess, Session.init, SSlot.init, SSlot.clientSlot, wheelFor,
      evsFor, pktsFor, reqFuncNums, respNums, assignedNums, contNums, SSlot.txBuf, MsgBuffer.zero,
      hmod, hlt]

theorem sessInv_init {s : ℕ} (hs : s < n) :
    SessInv T s ((Dp.init T n reqFuncArr rto).cl.sess s) ((Dp.init T n reqFuncArr rto).cl.clientView s) where
  credits := by simp [Dp.init, Rpc.clientView, Rpc.slot, Rpc.sess, hs, Dp.clientSess, Session.init,
    SSlot.init, SSlot.clientSlot, kSessionCredits]
  free_nodup := by simp [Dp.init, Rpc.sess, hs, Dp.clientSess, Session.init, List.nodup_range]
  free_mem j := by simp [Dp.init, Rpc.clientView, Rpc.slot, Rpc.sess, hs, Dp.clientSess, Session.init,
    SSlot.init, SSlot.clientSlot]
  backlog h := by simp [Dp.init, Rpc.sess, hs, Dp.clientSess, Session.init] at h
  backlog_ok a ha := by simp [Dp.init, Rpc.sess, hs, Dp.clientSess, Session.init] at ha
  connected := by simp [Dp.init, Rpc.sess, hs, Dp.clientSess, Session.init]
  remote := by simp [Dp.init, Rpc.sess, hs, Dp.clientSess]

theorem inv_init : Inv T pacing n (Dp.init T n reqFuncArr rto) where
  cl_size := rfl
  sv_size := rfl
  cl_sess s hs := by simp [Dp.init, Rpc.sess, hs]
  sv_sess s hs := by simp [Dp.init, Rpc.sess, hs]
  sv_static s hs := by simp [Dp.init, Rpc.sess, hs, Dp.serverSess, Session.init]
  sessions _ hs := sessInv_init T n reqFuncArr rto hs
  slots _ hs _ hi := slotInv_init T pacing n reqFuncArr rto hs hi
  list := ⟨[], ⟨rfl, rfl⟩, by simp, fun p => by
    simp only [List.not_mem_nil, false_iff, not_exists, not_and]
    rintro s i rfl hs hi
    simp [Dp.init, Rpc.slot, Rpc.sess, hs, Dp.clientSess, Session.init, SSlot.init]⟩
  stallq_nodup := List.nodup_nil
  stallq_range _ h := absurd h List.not_mem_nil
  wheel_nodup := List.nodup_nil
  wheel_range _ h := absurd h List.not_mem_nil
  cl_tx_range _ h := absurd h List.not_mem_nil
  sv_tx_range _ h := absurd h List.not_mem_nil
  events_range _ h := absurd h List.not_mem_nil
  sm_idle := rfl

end Init

end ERpc
