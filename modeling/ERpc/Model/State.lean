import ERpc.Model.Wire
import Mathlib.Data.List.Sort

/-!
# Sessions, session slots and the Rpc object

The state of one `Rpc` object as its foreground thread sees it: `session_vec_` with every
session's slots (`SSlot`, `sslot.h`) and client bookkeeping (`Session::client_info_`), the
credit stall queue, the intrusive list of active RPCs with its two sentinels, the timing wheel,
the clocks, and the session-management tables.

Three outputs are recorded in the state: the datapath packets handed to the transport (`tx`),
the session-management packets sent over UDP (`smTx`), and the calls eRPC makes into the
application (`events`: request handlers, continuations and session-management callbacks). The
model also records, as `reqAssigned`, each request it places on an sslot with the request number
it gives it, so that statements can name what request number `r` of an sslot carries.

`tx_msgbuf_` is a pointer: to an application's request buffer on a client, or to one of the
sslot's two response buffers on a server (`TxMsgbuf`). The list links `prev_`/`next_` point to
sslots or to the sentinels (`Ptr`). The union of `client_info_` and `server_info_` is kept as
two fields: each role reads and writes only its own.
-/

namespace ERpc

/-- A pointer to an sslot of the active-RPC list: null, one of the two sentinels, or the sslot
with index `idx` of session `sess`. -/
inductive Ptr
  | null
  | root
  | tail
  | slot (sess idx : ℕ)
  deriving DecidableEq, Repr, Inhabited

/-- What `tx_msgbuf_` points to. -/
inductive TxMsgbuf
  | null
  | app (m : MsgBuffer)
  | preResp
  | dynResp

/-- `ReqFuncType`: whether a request handler runs in the foreground or in a background thread. -/
inductive ReqFuncType
  | kForeground
  | kBackground
  deriving DecidableEq, Repr, Inhabited

/-- `SSlot::client_info_`. `tag` stands for the pair `cont_func_`, `tag_`: which continuation
the application asked for. -/
structure ClientInfo where
  respMsgbuf : MsgBuffer
  tag : ℕ
  numTx : ℕ
  numRx : ℕ
  progressTsc : ℕ
  contEtid : ℕ
  prev : Ptr
  next : Ptr
  inWheel : ℕ → Bool
  wheelCount : ℕ

/-- `SSlot::server_info_` -/
structure ServerInfo where
  reqMsgbuf : MsgBuffer
  reqType : ℕ
  reqFuncType : ReqFuncType
  numRx : ℕ
  savNumReqPkts : ℕ

structure SSlot where
  preRespMsgbuf : MsgBuffer
  dynRespMsgbuf : MsgBuffer
  isClient : Bool
  index : ℕ
  txMsgbuf : TxMsgbuf
  curReqNum : ℕ
  clientInfo : ClientInfo
  serverInfo : ServerInfo

/-- The buffer `tx_msgbuf_` points to, if it is not null. -/
def SSlot.txBuf (x : SSlot) : Option MsgBuffer :=
  match x.txMsgbuf with
  | .null => none
  | .app m => some m
  | .preResp => some x.preRespMsgbuf
  | .dynResp => some x.dynRespMsgbuf

inductive Role
  | kServer
  | kClient
  deriving DecidableEq, Repr, Inhabited

inductive SessionState
  | kConnectInProgress
  | kConnected
  | kDisconnectInProgress
  | kResetInProgress
  deriving DecidableEq, Repr, Inhabited

inductive SmPktType
  | kUnblock
  | kPingReq
  | kPingResp
  | kConnectReq
  | kConnectResp
  | kDisconnectReq
  | kDisconnectResp
  deriving DecidableEq, Repr, Inhabited

inductive SmErrType
  | kNoError
  | kSrvDisconnected
  | kRingExhausted
  | kOutOfMemory
  | kRoutingResolutionFailure
  | kInvalidRemoteRpcId
  | kInvalidTransport
  deriving DecidableEq, Repr, Inhabited

inductive SmEventType
  | kConnected
  | kConnectFailed
  | kDisconnected
  | kDisconnectFailed
  deriving DecidableEq, Repr, Inhabited

def kInvalidRpcId : ℕ := 255

def kInvalidSessionNum : ℕ := 65535

/-- A size stored into a `uint16_t` session number. -/
def toSessionNum (n : ℕ) : ℕ := n % 2 ^ 16

theorem toSessionNum_of_lt {n : ℕ} (h : n < 2 ^ 16) : toSessionNum n = n := Nat.mod_eq_of_lt h

/-- `SessionEndpoint`; the routing info is an opaque value of the transport. -/
structure SessionEndpoint where
  transportType : ℕ
  hostname : String
  smUdpPort : ℕ
  rpcId : ℕ
  sessionNum : ℕ
  routingInfo : ℕ
  deriving DecidableEq, Repr

/-- `SessionEndpoint::SessionEndpoint` -/
def SessionEndpoint.init : SessionEndpoint :=
  ⟨0, "", 0, kInvalidRpcId, kInvalidSessionNum, 0⟩

/-- `SessionEndpoint::operator==`: routing info is left out. -/
def SessionEndpoint.same (a b : SessionEndpoint) : Bool :=
  a.transportType == b.transportType && a.hostname == b.hostname &&
    a.smUdpPort == b.smUdpPort && a.rpcId == b.rpcId && a.sessionNum == b.sessionNum

structure SmPkt where
  pktType : SmPktType
  errType : SmErrType
  uniqToken : ℕ
  client : SessionEndpoint
  server : SessionEndpoint
  deriving DecidableEq, Repr

/-- The arguments of a backlogged `enqueue_request`. -/
structure EnqReqArgs where
  sessionNum : ℕ
  reqType : ℕ
  reqMsgbuf : MsgBuffer
  respMsgbuf : MsgBuffer
  tag : ℕ
  contEtid : ℕ

/-- `Session::client_info_`. `uncongested` is the outcome of `is_uncongested ()`, the comparison
of Timely's rate with the link bandwidth; the model leaves the rate itself to the environment. -/
structure ClientSessionInfo where
  credits : ℕ
  sslotFreeVec : List ℕ
  enqReqBacklog : List EnqReqArgs
  numReTx : ℕ
  uncongested : Bool
  smReqTs : ℕ

/-- `Session`. `sslotFreeVec` lists the free-slot stack from its top, the next `pop_back`. -/
structure Session where
  role : Role
  uniqToken : ℕ
  state : SessionState
  client : SessionEndpoint
  server : SessionEndpoint
  sslotArr : ℕ → SSlot
  localSessionNum : ℕ
  remoteSessionNum : ℕ
  clientInfo : ClientSessionInfo

/-- A calls eRPC makes into the application, and the requests it places on sslots. -/
inductive Event
  | reqAssigned (sess idx reqNum : ℕ) (req : MsgBuffer)
  | reqFunc (sess idx reqNum : ℕ) (req : MsgBuffer)
  | respEnqueued (sess idx reqNum : ℕ) (resp : MsgBuffer)
  | contFunc (sess idx reqNum tag : ℕ) (resp : MsgBuffer)
  | smHandler (sessionNum : ℕ) (ev : SmEventType) (err : SmErrType)

/-- The prev and next links of a sentinel. -/
structure Links where
  prev : Ptr
  next : Ptr

/-- The Rpc object. `sessionVec n` is `session_vec_[n]` for `n < sessionVecSize`; `tsc` is the
time-stamp counter `rdtsc ()` returns, `evLoopTsc` its value sampled by the event loop;
`routingInfo` is what `fill_local_routing_info` writes. The `std::set` of pending
session-management requests is its list of elements in increasing order. `fault` records that the
Rpc did something the C++ leaves undefined: it called an unregistered request handler, wrote
through a null link of the active-RPC list, or indexed `session_vec_` past its size. -/
structure Rpc where
  rpcId : ℕ
  sessionVec : ℕ → Option Session
  sessionVecSize : ℕ
  stallq : List (ℕ × ℕ)
  rootSentinel : Links
  tailSentinel : Links
  wheel : List (ℕ × ℕ × ℕ)
  tsc : ℕ
  evLoopTsc : ℕ
  rpcRtoCycles : ℕ
  reqFuncArr : ℕ → Option ReqFuncType
  hostname : String
  smUdpPort : ℕ
  transportType : ℕ
  routingInfo : ℕ
  smPendingReqs : List ℕ
  connReqTokenMap : ℕ → Option ℕ
  ringEntriesAvailable : ℕ
  retryConnectOnInvalidRpcId : Bool
  smTimeoutCycles : ℕ
  tx : List Pkt
  smTx : List SmPkt
  events : List Event
  fault : Bool

/-- An sslot as `Session::Session` leaves it: zeroed by `memset`, with its index and
`cur_req_num_ = i`, and `req_type_ = kInvalidReqType` on a server. -/
def SSlot.init (isClient : Bool) (i : ℕ) : SSlot where
  preRespMsgbuf := .zero
  dynRespMsgbuf := .zero
  isClient := isClient
  index := i
  txMsgbuf := .null
  curReqNum := i
  clientInfo := ⟨.zero, 0, 0, 0, 0, 0, .null, .null, fun _ => false, 0⟩
  serverInfo := ⟨.zero, if isClient then 0 else kInvalidReqType, .kForeground, 0, 0⟩

/-- `Session::Session`: the free-slot stack pops sslot 0 first. -/
def Session.init (role : Role) (uniqToken : ℕ) (state : SessionState) : Session where
  role := role
  uniqToken := uniqToken
  state := state
  client := .init
  server := .init
  sslotArr := SSlot.init (role == .kClient)
  localSessionNum := 0
  remoteSessionNum := 0
  clientInfo := ⟨kSessionCredits, List.range kSessionReqWindow, [], 0, true, 0⟩

instance : Inhabited Session := ⟨.init .kClient 0 .kConnected⟩

/-- `Rpc::Rpc`: no session yet, the active-RPC list empty between its sentinels, and every RX
ring entry free. The Nexus gives the hostname, the management UDP port and the request handlers;
the transport gives its type and its local routing info. -/
def Rpc.init (rpcId : ℕ) (hostname : String) (smUdpPort transportType routingInfo : ℕ)
    (reqFuncArr : ℕ → Option ReqFuncType) (rpcRtoCycles smTimeoutCycles : ℕ) : Rpc where
  rpcId := rpcId
  sessionVec := fun _ => none
  sessionVecSize := 0
  stallq := []
  rootSentinel := ⟨.null, .tail⟩
  tailSentinel := ⟨.root, .null⟩
  wheel := []
  tsc := 0
  evLoopTsc := 0
  rpcRtoCycles := rpcRtoCycles
  reqFuncArr := reqFuncArr
  hostname := hostname
  smUdpPort := smUdpPort
  transportType := transportType
  routingInfo := routingInfo
  smPendingReqs := []
  connReqTokenMap := fun _ => none
  ringEntriesAvailable := kNumRxRingEntries
  retryConnectOnInvalidRpcId := false
  smTimeoutCycles := smTimeoutCycles
  tx := []
  smTx := []
  events := []
  fault := false

namespace Rpc

variable (st : Rpc)

/-- `session_vec_.push_back (x)` -/
def pushSession (x : Session) : Rpc :=
  { st with sessionVec := Function.update st.sessionVec st.sessionVecSize (some x)
            sessionVecSize := st.sessionVecSize + 1 }

/-- `session_vec_[s]`, for a session that exists. -/
def sess (s : ℕ) : Session := (st.sessionVec s).getD default

/-- Write back session `s`. -/
def setSess (s : ℕ) (x : Session) : Rpc :=
  { st with sessionVec := Function.update st.sessionVec s (some x) }

/-- `session_vec_[s]->sslot_arr_[i]` -/
def slot (s i : ℕ) : SSlot := (st.sess s).sslotArr i

/-- Write back sslot `i` of session `s`. -/
def setSlot (s i : ℕ) (x : SSlot) : Rpc :=
  st.setSess s { st.sess s with sslotArr := Function.update (st.sess s).sslotArr i x }

/-- Update the client info of sslot `i` of session `s`. -/
def modifyCi (s i : ℕ) (f : ClientInfo → ClientInfo) : Rpc :=
  st.setSlot s i { st.slot s i with clientInfo := f (st.slot s i).clientInfo }

/-- Update the server info of sslot `i` of session `s`. -/
def modifySi (s i : ℕ) (f : ServerInfo → ServerInfo) : Rpc :=
  st.setSlot s i { st.slot s i with serverInfo := f (st.slot s i).serverInfo }

/-- Update `client_info_` of session `s`. -/
def modifyCsi (s : ℕ) (f : ClientSessionInfo → ClientSessionInfo) : Rpc :=
  st.setSess s { st.sess s with clientInfo := f (st.sess s).clientInfo }

/-- The `next_` link of a list node. -/
def nextOf : Ptr → Ptr
  | .null => .null
  | .root => st.rootSentinel.next
  | .tail => st.tailSentinel.next
  | .slot s i => (st.slot s i).clientInfo.next

/-- The `prev_` link of a list node. -/
def prevOf : Ptr → Ptr
  | .null => .null
  | .root => st.rootSentinel.prev
  | .tail => st.tailSentinel.prev
  | .slot s i => (st.slot s i).clientInfo.prev

/-- Undefined behaviour of the C++ (`fault`). -/
def undefined : Rpc := { st with fault := true }

/-- `x->client_info_.next_ = y` -/
def setNext (x y : Ptr) : Rpc :=
  match x with
  | .null => st.undefined
  | .root => { st with rootSentinel := { st.rootSentinel with next := y } }
  | .tail => { st with tailSentinel := { st.tailSentinel with next := y } }
  | .slot s i => st.modifyCi s i fun ci => { ci with next := y }

/-- `x->client_info_.prev_ = y` -/
def setPrev (x y : Ptr) : Rpc :=
  match x with
  | .null => st.undefined
  | .root => { st with rootSentinel := { st.rootSentinel with prev := y } }
  | .tail => { st with tailSentinel := { st.tailSentinel with prev := y } }
  | .slot s i => st.modifyCi s i fun ci => { ci with prev := y }

/-- Record a call into the application. -/
def emit (e : Event) : Rpc := { st with events := st.events ++ [e] }

/-- Hand a datapath packet to the transport. -/
def send (p : Pkt) : Rpc := { st with tx := st.tx ++ [p] }

/-! ### Reading the state back

Sessions are read with `sess` and sslots with `slot`. Writes go through `setSess`, whose effect
on each reader is an `if` on the session number; every other write is an update of one field,
which the readers see through (`sess_mk`, `slot_mk`). -/

section Simp

variable {st} {s t i j : ℕ}

@[simp] theorem getD_sessionVec : (st.sessionVec s).getD default = st.sess s := rfl

@[simp] theorem sslotArr_sess : (st.sess s).sslotArr i = st.slot s i := rfl

@[simp] theorem sess_undefined : st.undefined.sess s = st.sess s := rfl

@[simp] theorem slot_undefined : st.undefined.slot s i = st.slot s i := rfl

@[simp] theorem sess_mk (a1 : ℕ) (a2 : ℕ → Option Session) (a3 : ℕ) (a4 : List (ℕ × ℕ))
    (a5 a6 : Links) (a7 : List (ℕ × ℕ × ℕ)) (a8 a9 a10 : ℕ) (a11 : ℕ → Option ReqFuncType)
    (a12 : String) (a13 a14 a15 : ℕ) (a16 : List ℕ) (a17 : ℕ → Option ℕ) (a18 : ℕ) (a19 : Bool)
    (a20 : ℕ) (a21 : List Pkt) (a22 : List SmPkt) (a23 : List Event) (a24 : Bool) :
    Rpc.sess ⟨a1, a2, a3, a4, a5, a6, a7, a8, a9, a10, a11, a12, a13, a14, a15, a16, a17, a18,
      a19, a20, a21, a22, a23, a24⟩ s = (a2 s).getD default := rfl

@[simp] theorem slot_mk (a1 : ℕ) (a2 : ℕ → Option Session) (a3 : ℕ) (a4 : List (ℕ × ℕ))
    (a5 a6 : Links) (a7 : List (ℕ × ℕ × ℕ)) (a8 a9 a10 : ℕ) (a11 : ℕ → Option ReqFuncType)
    (a12 : String) (a13 a14 a15 : ℕ) (a16 : List ℕ) (a17 : ℕ → Option ℕ) (a18 : ℕ) (a19 : Bool)
    (a20 : ℕ) (a21 : List Pkt) (a22 : List SmPkt) (a23 : List Event) (a24 : Bool) :
    Rpc.slot ⟨a1, a2, a3, a4, a5, a6, a7, a8, a9, a10, a11, a12, a13, a14, a15, a16, a17, a18,
      a19, a20, a21, a22, a23, a24⟩ s i = ((a2 s).getD default).sslotArr i := rfl

@[simp] theorem setSess_mk (a1 : ℕ) (a2 : ℕ → Option Session) (a3 : ℕ) (a4 : List (ℕ × ℕ))
    (a5 a6 : Links) (a7 : List (ℕ × ℕ × ℕ)) (a8 a9 a10 : ℕ) (a11 : ℕ → Option ReqFuncType)
    (a12 : String) (a13 a14 a15 : ℕ) (a16 : List ℕ) (a17 : ℕ → Option ℕ) (a18 : ℕ) (a19 : Bool)
    (a20 : ℕ) (a21 : List Pkt) (a22 : List SmPkt) (a23 : List Event) (a24 : Bool)
    (x : Session) :
    Rpc.setSess ⟨a1, a2, a3, a4, a5, a6, a7, a8, a9, a10, a11, a12, a13, a14, a15, a16, a17, a18,
      a19, a20, a21, a22, a23, a24⟩ s x =
      ⟨a1, Function.update a2 s (some x), a3, a4, a5, a6, a7, a8, a9, a10, a11, a12, a13, a14, a15,
        a16, a17, a18, a19, a20, a21, a22, a23, a24⟩ := rfl

theorem sess_setSess (x : Session) : (st.setSess s x).sess t = if t = s then x else st.sess t := by
  by_cases h : t = s
  · subst h
    simp only [sess, setSess, Function.update_self, Option.getD_some, if_true]
  · simp only [sess, setSess, Function.update_of_ne h, if_neg h]

theorem slot_setSess (x : Session) :
    (st.setSess s x).slot t i = if t = s then x.sslotArr i else st.slot t i := by
  rw [slot, sess_setSess]
  split_ifs <;> rfl

@[simp] theorem sess_setSess_self (x : Session) : (st.setSess s x).sess s = x := by
  simp [sess_setSess]

@[simp] theorem sess_setSess_of_ne (x : Session) (h : t ≠ s) : (st.setSess s x).sess t = st.sess t := by
  simp [sess_setSess, h]

@[simp] theorem slot_setSess_self (x : Session) : (st.setSess s x).slot s i = x.sslotArr i := by
  simp [slot_setSess]

@[simp] theorem slot_setSess_of_ne (x : Session) (h : t ≠ s) :
    (st.setSess s x).slot t i = st.slot t i := by
  simp [slot_setSess, h]

@[simp] theorem setSlot_eq (x : SSlot) :
    st.setSlot s i x = st.setSess s { st.sess s with sslotArr := Function.update (st.sess s).sslotArr i x } :=
  rfl

@[simp] theorem modifyCi_eq (f : ClientInfo → ClientInfo) :
    st.modifyCi s i f = st.setSlot s i { st.slot s i with clientInfo := f (st.slot s i).clientInfo } :=
  rfl

@[simp] theorem modifySi_eq (f : ServerInfo → ServerInfo) :
    st.modifySi s i f = st.setSlot s i { st.slot s i with serverInfo := f (st.slot s i).serverInfo } :=
  rfl

@[simp] theorem modifyCsi_eq (f : ClientSessionInfo → ClientSessionInfo) :
    st.modifyCsi s f = st.setSess s { st.sess s with clientInfo := f (st.sess s).clientInfo } :=
  rfl

theorem slot_setSlot (x : SSlot) :
    (st.setSlot s i x).slot t j = if t = s ∧ j = i then x else st.slot t j := by
  by_cases h : t = s
  · subst h
    by_cases hj : j = i
    · subst hj
      simp
    · simp [hj]
  · simp [h]

theorem slot_modifyCi_of_ne (f : ClientInfo → ClientInfo) (h : ¬(t = s ∧ j = i)) :
    (st.modifyCi s i f).slot t j = st.slot t j := by
  rw [modifyCi, slot_setSlot, if_neg h]

theorem slot_modifySi_of_ne (f : ServerInfo → ServerInfo) (h : ¬(t = s ∧ j = i)) :
    (st.modifySi s i f).slot t j = st.slot t j := by
  rw [modifySi, slot_setSlot, if_neg h]

variable (x : Session)

@[simp] theorem setSess_rpcId : (st.setSess s x).rpcId = st.rpcId := rfl
@[simp] theorem setSess_hostname : (st.setSess s x).hostname = st.hostname := rfl
@[simp] theorem setSess_smUdpPort : (st.setSess s x).smUdpPort = st.smUdpPort := rfl
@[simp] theorem setSess_transportType : (st.setSess s x).transportType = st.transportType := rfl
@[simp] theorem setSess_routingInfo : (st.setSess s x).routingInfo = st.routingInfo := rfl
@[simp] theorem setSess_connReqTokenMap : (st.setSess s x).connReqTokenMap = st.connReqTokenMap := rfl
@[simp] theorem setSess_ringEntriesAvailable :
    (st.setSess s x).ringEntriesAvailable = st.ringEntriesAvailable := rfl
@[simp] theorem setSess_retryConnectOnInvalidRpcId :
    (st.setSess s x).retryConnectOnInvalidRpcId = st.retryConnectOnInvalidRpcId := rfl
@[simp] theorem setSess_sessionVecSize : (st.setSess s x).sessionVecSize = st.sessionVecSize := rfl
@[simp] theorem setSess_stallq : (st.setSess s x).stallq = st.stallq := rfl
@[simp] theorem setSess_rootSentinel : (st.setSess s x).rootSentinel = st.rootSentinel := rfl
@[simp] theorem setSess_tailSentinel : (st.setSess s x).tailSentinel = st.tailSentinel := rfl
@[simp] theorem setSess_wheel : (st.setSess s x).wheel = st.wheel := rfl
@[simp] theorem setSess_tsc : (st.setSess s x).tsc = st.tsc := rfl
@[simp] theorem setSess_evLoopTsc : (st.setSess s x).evLoopTsc = st.evLoopTsc := rfl
@[simp] theorem setSess_rpcRtoCycles : (st.setSess s x).rpcRtoCycles = st.rpcRtoCycles := rfl
@[simp] theorem setSess_reqFuncArr : (st.setSess s x).reqFuncArr = st.reqFuncArr := rfl
@[simp] theorem setSess_smPendingReqs : (st.setSess s x).smPendingReqs = st.smPendingReqs := rfl
@[simp] theorem setSess_smTimeoutCycles : (st.setSess s x).smTimeoutCycles = st.smTimeoutCycles := rfl
@[simp] theorem setSess_tx : (st.setSess s x).tx = st.tx := rfl
@[simp] theorem setSess_smTx : (st.setSess s x).smTx = st.smTx := rfl
@[simp] theorem setSess_events : (st.setSess s x).events = st.events := rfl
@[simp] theorem setSess_fault : (st.setSess s x).fault = st.fault := rfl

@[simp] theorem setSess_sessionVec :
    (st.setSess s x).sessionVec = Function.update st.sessionVec s (some x) := rfl

@[simp] theorem setSess_setSess_self (y : Session) : (st.setSess s x).setSess s y = st.setSess s y := by
  simp only [setSess, Function.update_idem]

end Simp

attribute [simp] emit send undefined

end Rpc

end ERpc
