import ERpc.Model.Server
import ERpc.Model.Uri

/-!
# Session management

The session-management side of an `Rpc`: `create_session_st` and `destroy_session_st`
(`rpc_sm_api.cc`), the four handlers of connect and disconnect requests and responses
(`rpc_connect_handlers.cc`, `rpc_disconnect_handlers.cc`), `handle_sm_rx_st` with its helpers
(`rpc_sm_helpers.cc`), and the two halves of `pkt_loss_scan_st` (`rpc_pkt_loss.cc`).

Three outcomes come from outside the Rpc, and the model takes them as arguments: the token
`slow_rand_` draws for a new session, whether the transport resolves a peer's routing info, and
whether the `kSessionReqWindow` hugepage allocations of a new server session all succeed
(`SmOracle`). A work item whose packet type has no handler makes `handle_sm_rx_st` throw, which
is `none`.
-/

namespace ERpc

def kMaxHostnameLen : ℕ := 128

def EPERM : ℤ := 1

def ENOMEM : ℤ := 12

def EBUSY : ℤ := 16

def EINVAL : ℤ := 22

def EALREADY : ℤ := 114

/-- `sm_pkt_type_is_req` -/
def SmPktType.isReq : SmPktType → Bool
  | .kPingReq | .kConnectReq | .kDisconnectReq => true
  | .kUnblock | .kPingResp | .kConnectResp | .kDisconnectResp => false

/-- `sm_pkt_type_req_to_resp`, on the request types it is called with; it throws on the
others, which the model keeps. -/
def SmPktType.reqToResp : SmPktType → SmPktType
  | .kPingReq => .kPingResp
  | .kConnectReq => .kConnectResp
  | .kDisconnectReq => .kDisconnectResp
  | t => t

def SmPkt.isReq (p : SmPkt) : Bool := p.pktType.isReq

/-- `sm_construct_resp`: the request with its type switched and the error set. -/
def smConstructResp (p : SmPkt) (err : SmErrType) : SmPkt :=
  { p with pktType := p.pktType.reqToResp, errType := err }

/-- `std::set::insert` on the increasing list of the set's elements. -/
def setInsert (n : ℕ) (l : List ℕ) : List ℕ :=
  if n ∈ l then l else l.orderedInsert (· ≤ ·) n

/-- What the environment decides for one handler call: whether the transport resolves the
peer's routing info, and whether the preallocated response buffers of a new server session can
all be allocated. -/
structure SmOracle where
  resolveOk : Bool
  allocOk : Bool
  deriving DecidableEq, Repr

namespace Rpc

variable (T : Transport) (pacing : Bool)

def haveRingEntries (st : Rpc) : Bool := kSessionCredits ≤ st.ringEntriesAvailable

def allocRingEntries (st : Rpc) : Rpc :=
  { st with ringEntriesAvailable := st.ringEntriesAvailable - kSessionCredits }

def freeRingEntries (st : Rpc) : Rpc :=
  { st with ringEntriesAvailable := st.ringEntriesAvailable + kSessionCredits }

def smPktUdpTxSt (st : Rpc) (p : SmPkt) : Rpc := { st with smTx := st.smTx ++ [p] }

/-- A call of the application's `sm_handler_`. -/
def smHandler (st : Rpc) (n : ℕ) (ev : SmEventType) (err : SmErrType) : Rpc :=
  st.emit (.smHandler n ev err)

/-- `Rpc::bury_session_st`: the session's slot of `session_vec_` becomes null. -/
def burySessionSt (st : Rpc) (x : Session) : Rpc :=
  { st with sessionVec := Function.update st.sessionVec x.localSessionNum none }

/-- `Rpc::send_sm_req_st` for session `n`: a connect request while connecting, else a
disconnect request. -/
def sendSmReqSt (st : Rpc) (n : ℕ) : Rpc :=
  let x := st.sess n
  let st := { st with smPendingReqs := setInsert x.localSessionNum st.smPendingReqs }
  let st := st.modifyCsi n fun ci => { ci with smReqTs := st.tsc }
  st.smPktUdpTxSt
    { pktType := if x.state = .kConnectInProgress then .kConnectReq else .kDisconnectReq
      errType := .kNoError
      uniqToken := x.uniqToken
      client := x.client
      server := x.server }

/-- The server session `handle_connect_req_st` creates for a connect request, as session `n`. -/
def newServerSession (st : Rpc) (p : SmPkt) (n : ℕ) : Session :=
  { Session.init .kServer p.uniqToken .kConnected with
    sslotArr := fun i =>
      { SSlot.init false i with preRespMsgbuf := allocMsgBuffer T T.kMaxDataPerPkt }
    server := { p.server with sessionNum := n, routingInfo := st.routingInfo }
    client := p.client
    localSessionNum := n
    remoteSessionNum := p.client.sessionNum }

/-- `Rpc::handle_connect_req_st`. A new server session goes to the end of `session_vec_`; its
number, which the token map records, is the old size stored into a `uint16_t`. -/
def handleConnectReqSt (st : Rpc) (p : SmPkt) (o : SmOracle) : Rpc :=
  match st.connReqTokenMap p.uniqToken with
  | some n =>
    if st.sessionVecSize ≤ n then st.undefined else
    match st.sessionVec n with
    | some x =>
      if x.state = .kConnected then
        st.smPktUdpTxSt { smConstructResp p .kNoError with server := x.server }
      else st
    | none => st
  | none =>
    if p.server.transportType ≠ st.transportType then
      st.smPktUdpTxSt (smConstructResp p .kInvalidTransport)
    else if !st.haveRingEntries then st.smPktUdpTxSt (smConstructResp p .kRingExhausted)
    else if !o.resolveOk then st.smPktUdpTxSt (smConstructResp p .kRoutingResolutionFailure)
    else if !o.allocOk then st.smPktUdpTxSt (smConstructResp p .kOutOfMemory)
    else
      let n := toSessionNum st.sessionVecSize
      let x := st.newServerSession T p n
      let st := { st with connReqTokenMap := Function.update st.connReqTokenMap p.uniqToken (some n) }
      let st := st.allocRingEntries.pushSession x
      st.smPktUdpTxSt { smConstructResp p .kNoError with server := x.server }

/-- `Rpc::handle_connect_resp_st`. The session number is only `assert`ed to be below the size of
`session_vec_`, so a larger one indexes past it. -/
def handleConnectRespSt (st : Rpc) (p : SmPkt) (o : SmOracle) : Rpc :=
  let n := p.client.sessionNum
  if st.sessionVecSize ≤ n then st.undefined else
  match st.sessionVec n with
  | none => st
  | some x =>
    if x.state ≠ .kConnectInProgress then st
    else if p.errType = .kInvalidRemoteRpcId ∧ st.retryConnectOnInvalidRpcId then
      { st with smPendingReqs := setInsert x.localSessionNum st.smPendingReqs }
    else if p.errType ≠ .kNoError then
      let st := st.freeRingEntries
      let st := st.smHandler x.localSessionNum .kConnectFailed p.errType
      st.burySessionSt x
    else if !o.resolveOk then
      let st := st.setSess n { x with server := p.server, state := .kDisconnectInProgress }
      st.sendSmReqSt n
    else
      let st := st.setSess n
        { x with
          server := p.server
          remoteSessionNum := p.server.sessionNum
          state := .kConnected }
      st.smHandler x.localSessionNum .kConnected .kNoError

/-- `Rpc::handle_disconnect_req_st`. Past the size of `session_vec_`, `at` throws, which ends
the process. -/
def handleDisconnectReqSt (st : Rpc) (p : SmPkt) : Rpc :=
  if st.sessionVecSize ≤ p.server.sessionNum then st.undefined else
  match st.sessionVec p.server.sessionNum with
  | none => st.smPktUdpTxSt (smConstructResp p .kNoError)
  | some x =>
    let st := st.freeRingEntries
    let st := st.smPktUdpTxSt (smConstructResp p .kNoError)
    st.burySessionSt x

/-- `Rpc::handle_disconnect_resp_st`, which indexes `session_vec_` as
`handle_connect_resp_st` does. -/
def handleDisconnectRespSt (st : Rpc) (p : SmPkt) : Rpc :=
  if st.sessionVecSize ≤ p.client.sessionNum then st.undefined else
  match st.sessionVec p.client.sessionNum with
  | none => st
  | some x =>
    let st := st.freeRingEntries
    let st := st.smHandler x.localSessionNum .kDisconnected .kNoError
    st.burySessionSt x

/-- One work item of `handle_sm_rx_st`: a response first clears its session's pending request,
then the packet goes to the handler of its type. -/
def handleSmPkt (st : Rpc) (p : SmPkt) (o : SmOracle) : Option Rpc :=
  let st :=
    if !p.isReq ∧ p.client.sessionNum ∈ st.smPendingReqs then
      { st with smPendingReqs := st.smPendingReqs.erase p.client.sessionNum }
    else st
  match p.pktType with
  | .kConnectReq => some (st.handleConnectReqSt T p o)
  | .kDisconnectReq => some (st.handleDisconnectReqSt p)
  | .kConnectResp => some (st.handleConnectRespSt p o)
  | .kDisconnectResp => some (st.handleDisconnectRespSt p)
  | .kUnblock | .kPingReq | .kPingResp => none

/-- `Rpc::handle_sm_rx_st`: the work items of `sm_rx_queue_`, in order. -/
def handleSmRxSt (st : Rpc) : List (SmPkt × SmOracle) → Option Rpc
  | [] => some st
  | (p, o) :: q => (st.handleSmPkt T p o).bind fun st => handleSmRxSt st q

/-- `Rpc::create_session_st` with the token `slow_rand_` draws: the new state and the return
value. The session goes to the end of `session_vec_`, and its number is the old size stored into
the `uint16_t` `local_session_num_`. -/
def createSessionSt (st : Rpc) (remoteUri : String) (remRpcId token : ℕ) : Option (Rpc × ℤ) :=
  let remHostname := extractHostnameFromUri remoteUri
  (extractUdpPortFromUri remoteUri).map fun remSmUdpPort =>
    if remHostname.length = 0 ∨ kMaxHostnameLen < remHostname.length then (st, -EINVAL)
    else if remHostname = st.hostname ∧ remRpcId = st.rpcId ∧ remSmUdpPort = st.smUdpPort then
      (st, -EINVAL)
    else if !st.haveRingEntries then (st, -ENOMEM)
    else
      let n := toSessionNum st.sessionVecSize
      let x : Session :=
        { Session.init .kClient token .kConnectInProgress with
          localSessionNum := n
          client := ⟨st.transportType, st.hostname, st.smUdpPort, st.rpcId, n, st.routingInfo⟩
          server :=
            { SessionEndpoint.init with
              transportType := st.transportType
              hostname := remHostname
              smUdpPort := remSmUdpPort
              rpcId := remRpcId } }
      let st' := st.allocRingEntries.pushSession x
      (st'.sendSmReqSt st.sessionVecSize, n)

/-- `Rpc::destroy_session_st`: the new state and the return value. -/
def destroySessionSt (st : Rpc) (sessionNum : ℤ) : Rpc × ℤ :=
  if sessionNum < 0 ∨ st.sessionVecSize ≤ sessionNum then (st, -EINVAL)
  else
    let n := sessionNum.toNat
    match st.sessionVec n with
    | none => (st, -EPERM)
    | some x =>
      if x.role ≠ .kClient then (st, -EINVAL)
      else if x.clientInfo.sslotFreeVec.length ≠ kSessionReqWindow then (st, -EBUSY)
      else
        match x.state with
        | .kConnectInProgress => (st, -EPERM)
        | .kConnected => ((st.setSess n { x with state := .kDisconnectInProgress }).sendSmReqSt n, 0)
        | .kDisconnectInProgress => (st, -EALREADY)
        | .kResetInProgress => (st, 0)

/-- One session of the management half of `pkt_loss_scan_st`: a request outstanding for longer
than the timeout is sent again. -/
def smRetransmitOne (st : Rpc) (n : ℕ) : Rpc :=
  match st.sessionVec n with
  | none => st
  | some x =>
    if (x.state = .kConnectInProgress ∨ x.state = .kDisconnectInProgress) ∧
        st.smTimeoutCycles < st.tsc - x.clientInfo.smReqTs then st.sendSmReqSt n
    else st

/-- `Rpc::pkt_loss_scan_st`: the active-RPC list, then the pending management requests. The
list has at most one node per sslot, which bounds the walk. -/
def pktLossScanSt (st : Rpc) : Rpc :=
  let st := scanActiveRpcs T pacing (kSessionReqWindow * st.sessionVecSize + 1)
    st.rootSentinel.next st
  st.smPendingReqs.foldl smRetransmitOne st

attribute [simp] allocRingEntries freeRingEntries smPktUdpTxSt smHandler burySessionSt pushSession

/-- A call of `create_session_st` that returns a session number has sent one packet: the connect
request of the new session, for the remote Rpc the call names. -/
theorem createSessionSt_smTx {st st' : Rpc} {uri : String} {r t : ℕ} {n : ℤ}
    (hc : st.createSessionSt uri r t = some (st', n)) (hn : 0 ≤ n) :
    ∃ p, st'.smTx = st.smTx ++ [p] ∧ p.pktType = .kConnectReq ∧ p.uniqToken = t ∧
      p.server.rpcId = r ∧ p.client.sessionNum = n := by
  unfold createSessionSt at hc
  rcases hport : extractUdpPortFromUri uri with _ | port <;>
    simp only [hport, Option.map_none, Option.map_some, reduceCtorEq, Option.some.injEq] at hc
  split_ifs at hc with h1 h2 h3
  · rw [← (Prod.mk.inj hc).2] at hn
    exact absurd hn (by decide)
  · rw [← (Prod.mk.inj hc).2] at hn
    exact absurd hn (by decide)
  · rw [← (Prod.mk.inj hc).2] at hn
    exact absurd hn (by decide)
  · simp only [Prod.mk.injEq] at hc
    obtain ⟨hst, rfl⟩ := hc
    subst hst
    simp [sendSmReqSt, sess, Session.init]

end Rpc

end ERpc
