import ERpc.Model.Reset
import ERpc.System.ClientFrame

/-!
# Which requests a client reset fails

`handle_reset_client_st` walks the sslots of the session in order and, for each one its test
selects, frees the sslot and runs the continuation with an empty response. Each pass is a step of
its own sslot (`ClStep`), so it leaves the other sslots as they were, and the test of every pass
reads the sslot as the reset found it. The continuations that run are therefore those of the
sslots whose `tx_msgbuf_` was null, in order (`handleResetClientSt_contSlots`): the idle ones.
-/

namespace ERpc

/-- `tx_msgbuf_ == nullptr` -/
def TxMsgbuf.isNull : TxMsgbuf → Bool
  | .null => true
  | _ => false

/-- The sslots of session `s` whose continuation eRPC has run, in order. -/
def contSlots (st : Rpc) (s : ℕ) : List ℕ :=
  st.events.filterMap fun
    | .contFunc s' i _ _ _ => if s' = s then some i else none
    | _ => none

@[simp] theorem contSlots_append_contFunc (st : Rpc) (s i r t : ℕ) (m : MsgBuffer) :
    contSlots (st.emit (.contFunc s i r t m)) s = contSlots st s ++ [i] := by
  simp [contSlots]

namespace Rpc

variable (T : Transport) {st : Rpc} {s : ℕ}

theorem contSlots_with_stallq (q : List (ℕ × ℕ)) :
    contSlots { st with stallq := q } s = contSlots st s := rfl

theorem slot_with_stallq (q : List (ℕ × ℕ)) (i : ℕ) :
    ({ st with stallq := q } : Rpc).slot s i = st.slot s i := rfl

theorem setNext_events (x y : Ptr) : (st.setNext x y).events = st.events := by
  cases x <;> rfl

theorem setPrev_events (x y : Ptr) : (st.setPrev x y).events = st.events := by
  cases x <;> rfl

theorem clStep_resetClientSlot (i : ℕ) : ClStep s i st (st.resetClientSlot T s i) := by
  unfold resetClientSlot
  dsimp only
  split
  · exact ((((ClStep.setSlot _).trans ClStep.deleteFromActiveRpcList).trans
      (ClStep.modifyCsi _)).trans (ClStep.modifyCi _)).trans (ClStep.emit rfl)
  · exact ClStep.refl _

theorem contSlots_resetClientSlot (i : ℕ) :
    contSlots (st.resetClientSlot T s i) s =
      contSlots st s ++ if (st.slot s i).txMsgbuf.isNull then [i] else [] := by
  unfold resetClientSlot
  dsimp only
  split
  · rename_i h
    rw [contSlots_append_contFunc, h]
    simp [TxMsgbuf.isNull, contSlots, deleteFromActiveRpcList, setNext_events, setPrev_events]
  · rename_i h
    have : (st.slot s i).txMsgbuf.isNull = false := by
      cases hx : (st.slot s i).txMsgbuf <;> simp_all [TxMsgbuf.isNull]
    simp [this]

theorem txMsgbuf_resetClientSlot {i j : ℕ} (hj : j ≠ i) :
    ((st.resetClientSlot T s i).slot s j).txMsgbuf = (st.slot s j).txMsgbuf := by
  have h := (@clStep_resetClientSlot T st s i).view s j (fun h => hj h.2)
  exact congrArg (fun v => v.x.txMsgbuf) h

/-- The loop over distinct sslots runs the continuations of those that were idle, in order. -/
theorem contSlots_foldl_resetClientSlot (l : List ℕ) (hl : l.Nodup) :
    contSlots (l.foldl (resetClientSlot T s) st) s =
      contSlots st s ++ l.filter fun i => (st.slot s i).txMsgbuf.isNull := by
  induction l generalizing st with
  | nil => simp
  | cons i l ih =>
    obtain ⟨hi, hl⟩ := List.nodup_cons.1 hl
    have hrest : l.filter (fun j => ((st.resetClientSlot T s i).slot s j).txMsgbuf.isNull) =
        l.filter fun j => (st.slot s j).txMsgbuf.isNull :=
      List.filter_congr fun j hj => by
        have hji : j ≠ i := fun e => hi (e ▸ hj)
        rw [txMsgbuf_resetClientSlot T hji]
    rw [List.foldl_cons, ih hl, hrest, contSlots_resetClientSlot, List.filter_cons]
    split_ifs <;> simp

/-- `handle_reset_client_st` runs the continuations of the sslots of the session whose
`tx_msgbuf_` is null, each once and in order, and of no other sslot. -/
theorem handleResetClientSt_contSlots :
    contSlots (st.handleResetClientSt T s) s =
      contSlots st s ++ (List.range kSessionReqWindow).filter fun i =>
        (st.slot s i).txMsgbuf.isNull := by
  have h := @contSlots_foldl_resetClientSlot T
    { st with stallq := eraseSessionFromStallq s st.stallq } s (List.range kSessionReqWindow)
    List.nodup_range
  unfold handleResetClientSt
  dsimp only
  generalize (List.range kSessionReqWindow).foldl (resetClientSlot T s)
    { st with stallq := eraseSessionFromStallq s st.stallq } = st2 at h ⊢
  rw [@contSlots_with_stallq st s] at h
  simp only [@slot_with_stallq st s] at h
  rw [← h]
  simp [contSlots]

end Rpc

section Runs

open Transition

/-- The client application enqueues one request on its only session; it takes sslot 0. -/
def resetTrace : List DpAct :=
  [.enqueueRequest 0 3 (allocMsgBuffer Transport.dpdk 8) (allocMsgBuffer Transport.dpdk 8) 5]

/-- With a request active on sslot 0, resetting the session runs the continuations of the 127
idle sslots, and not the one of the request. -/
theorem reset_client_fails_idle_slots :
    ∃ d, Reachable (Dp.step Transport.dpdk false)
        (Dp.init Transport.dpdk 1 (fun _ => some .kForeground) 1000) d ∧
      (d.cl.slot 0 0).txMsgbuf.isNull = false ∧
      contSlots (d.cl.handleResetClientSt Transport.dpdk 0) 0 = (List.range kSessionReqWindow).tail :=
  Reachable.exists_of_run resetTrace (by decide +kernel)

end Runs

end ERpc
