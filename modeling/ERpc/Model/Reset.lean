import ERpc.Model.Sm

/-!
# Session resets

`handle_reset_client_st` and `handle_reset_server_st` (`rpc_reset_handlers.cc`). A client session
whose server has failed leaves the credit stall queue, fails its requests with a response of size
0, and is buried like one whose disconnect response arrived; a server session is buried like one
whose disconnect request arrived, but only once no `enqueue_response` is pending on it.

The second loop of the client handler selects its sslots with `tx_msgbuf_ == nullptr`, and
`resetClientSlot` keeps that test.
-/

namespace ERpc

namespace Rpc

variable (T : Transport)

/-- The first loop of `handle_reset_client_st`: `stallq_.erase (std::remove (...))` for every
sslot of session `s`. -/
def eraseSessionFromStallq (s : ℕ) (q : List (ℕ × ℕ)) : List (ℕ × ℕ) :=
  (List.range kSessionReqWindow).foldl (fun q i => q.filter (· ≠ (s, i))) q

/-- One pass of the second loop of `handle_reset_client_st`, over sslot `i` of session `s`. -/
def resetClientSlot (s : ℕ) (st : Rpc) (i : ℕ) : Rpc :=
  let x := st.slot s i
  match x.txMsgbuf with
  | .null =>
    let st := st.setSlot s i { x with txMsgbuf := .null }
    let st := st.deleteFromActiveRpcList s i
    let st := st.modifyCsi s fun csi => { csi with sslotFreeVec := x.index :: csi.sslotFreeVec }
    let ci := (st.slot s i).clientInfo
    let resp := resizeMsgBuffer T ci.respMsgbuf 0
    let st := st.modifyCi s i fun ci => { ci with respMsgbuf := resp }
    st.emit (.contFunc s i x.curReqNum ci.tag resp)
  | _ => st

/-- `Rpc::handle_reset_client_st` for session `s`; it always returns `true`. -/
def handleResetClientSt (st : Rpc) (s : ℕ) : Rpc :=
  let st := { st with stallq := eraseSessionFromStallq s st.stallq }
  let st := (List.range kSessionReqWindow).foldl (resetClientSlot T s) st
  let st := st.setSess s { st.sess s with state := .kDisconnectInProgress }
  let x := st.sess s
  let st := st.freeRingEntries
  let st := st.smHandler x.localSessionNum .kDisconnected .kSrvDisconnected
  st.burySessionSt x

/-- The number of sslots of `x` on which an `enqueue_response` is pending. -/
def pendingEnqueueResps (x : Session) : ℕ :=
  ((List.range kSessionReqWindow).filter fun i =>
    (x.sslotArr i).serverInfo.reqType ≠ kInvalidReqType).length

/-- `Rpc::handle_reset_server_st` for session `s`: the new state and the return value. -/
def handleResetServerSt (st : Rpc) (s : ℕ) : Rpc × Bool :=
  let st := st.setSess s { st.sess s with state := .kResetInProgress }
  let x := st.sess s
  if pendingEnqueueResps x = 0 then (st.freeRingEntries.burySessionSt x, true)
  else (st, false)

end Rpc

end ERpc
