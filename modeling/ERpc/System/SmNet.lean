import ERpc.Model.Sm
import ERpc.Lib.Reach

/-!
# A client and a server exchanging session-management packets

The client Rpc creates and destroys sessions and scans for lost requests; the server Rpc answers
its requests. Between them UDP may lose, duplicate and reorder packets: the network is the list
of packets in flight, and delivery takes any of them. The Nexus of the server's host hands each
request to the server Rpc, or answers `kInvalidRemoteRpcId` itself when the request names
another Rpc ID; the Nexus of the client's host hands each response to the client Rpc, or drops
it (`sm_thread_func`). The environment decides, at each delivery, whether the transport resolves
routing info and whether allocations succeed (`SmOracle`).
-/

namespace ERpc

/-- The two Rpcs and the session-management packets in flight. -/
structure SmNet where
  cl : Rpc
  sv : Rpc
  net : List SmPkt

/-- What can happen next: a call of the client's application, a scan of its event loop, time
passing, or the network delivering, losing or duplicating packet `k`. -/
inductive SmAct
  | createSession (remoteUri : String) (remRpcId token : ℕ)
  | destroySession (sessionNum : ℤ)
  | pktLossScan
  | tick (d : ℕ)
  | deliver (k : ℕ) (o : SmOracle)
  | drop (k : ℕ)
  | dup (k : ℕ)
  deriving DecidableEq, Repr

/-- The `sm_handler_` events of session `n`, in order. -/
def smEvents (st : Rpc) (n : ℕ) : List SmEventType :=
  st.events.filterMap fun
    | .smHandler m ev _ => if m = n then some ev else none
    | _ => none

namespace SmNet

variable (T : Transport) (pacing : Bool)

/-- The packets `st'` has sent since `st`. -/
def sent (st st' : Rpc) : List SmPkt := st'.smTx.drop st.smTx.length

/-- The client moves to `cl`, and what it sent goes on the network. -/
def withClient (w : SmNet) (cl : Rpc) : SmNet := ⟨cl, w.sv, w.net ++ sent w.cl cl⟩

/-- The server moves to `sv`, and what it sent goes on the network. -/
def withServer (w : SmNet) (sv : Rpc) : SmNet := ⟨w.cl, sv, w.net ++ sent w.sv sv⟩

/-- A packet arrives at the host it is addressed to. -/
def receive (w : SmNet) (p : SmPkt) (o : SmOracle) : Option SmNet :=
  if p.isReq then
    if p.server.rpcId = w.sv.rpcId then (w.sv.handleSmRxSt T [(p, o)]).map w.withServer
    else some { w with net := w.net ++ [smConstructResp p .kInvalidRemoteRpcId] }
  else if p.client.rpcId = w.cl.rpcId then (w.cl.handleSmRxSt T [(p, o)]).map w.withClient
  else some w

/-- One step of the system. -/
def step (w : SmNet) : SmAct → Option SmNet
  | .createSession uri r t => (w.cl.createSessionSt uri r t).map fun r => w.withClient r.1
  | .destroySession n => some (w.withClient (w.cl.destroySessionSt n).1)
  | .pktLossScan => some (w.withClient (w.cl.pktLossScanSt T pacing))
  | .tick d => some { w with cl := { w.cl with tsc := w.cl.tsc + d } }
  | .deliver k o => w.net[k]?.bind fun p => receive T { w with net := w.net.eraseIdx k } p o
  | .drop k => if k < w.net.length then some { w with net := w.net.eraseIdx k } else none
  | .dup k => w.net[k]?.map fun p => { w with net := w.net ++ [p] }

/-- Both Rpcs as their constructors leave them, and nothing in flight. -/
def start (cl sv : Rpc) : SmNet := ⟨cl, sv, []⟩

end SmNet

section Runs

open Transition

/-- A client Rpc with ID 1 on host `client`, and a server Rpc with ID 2 on host `server`. -/
def smClient : Rpc := .init 1 "client" 31850 0 1 (fun _ => none) 5000 100000
def smServer : Rpc := .init 2 "server" 31850 0 2 (fun _ => none) 5000 100000

/-- The connect request goes out twice. The first copy fails at the server, which cannot
resolve the client's routing info, and the client gives up on the error response; the second
copy then creates a server session, whose response the client ignores. -/
def leakTrace : List SmAct :=
  [.createSession "server:31850" 2 7, .dup 0, .deliver 0 ⟨false, true⟩, .deliver 1 ⟨true, true⟩,
   .deliver 0 ⟨true, true⟩, .deliver 0 ⟨true, true⟩]

theorem connect_retry_leaks_server_session :
    ∃ w, Reachable (SmNet.step Transport.dpdk false) (.start smClient smServer) w ∧
      w.cl.sessionVec 0 = none ∧ smEvents w.cl 0 = [.kConnectFailed] ∧
      (∃ p ∈ w.cl.smTx, p.client.sessionNum = 0 ∧ p.uniqToken = 7) ∧ w.net = [] ∧
      (w.sv.sessionVec 0).map (fun x => (x.uniqToken, x.state)) = some (7, .kConnected) :=
  Reachable.exists_of_run leakTrace (by decide)

/-- The connect request goes out twice and both copies succeed. The client connects on the
first response and starts to disconnect, the disconnect request is lost, and the second connect
response then arrives. -/
def staleRespTrace : List SmAct :=
  [.createSession "server:31850" 2 7, .dup 0, .deliver 0 ⟨true, true⟩, .deliver 0 ⟨true, true⟩,
   .deliver 0 ⟨true, true⟩, .destroySession 0, .drop 1, .deliver 0 ⟨true, true⟩]

theorem stale_connect_resp_unschedules_disconnect :
    ∃ w, Reachable (SmNet.step Transport.dpdk false) (.start smClient smServer) w ∧
      (w.cl.sessionVec 0).map (·.state) = some .kDisconnectInProgress ∧
      0 ∉ w.cl.smPendingReqs ∧ w.net = [] :=
  Reachable.exists_of_run staleRespTrace (by decide +kernel)

/-- The server accepts the connect request, but the client cannot resolve the server's routing
info: it disconnects, and the disconnect response completes. -/
def resolveFailTrace : List SmAct :=
  [.createSession "server:31850" 2 7, .deliver 0 ⟨true, true⟩, .deliver 0 ⟨false, true⟩,
   .deliver 0 ⟨true, true⟩, .deliver 0 ⟨true, true⟩]

theorem unresolved_connect_reports_only_disconnected :
    ∃ w, Reachable (SmNet.step Transport.dpdk false) (.start smClient smServer) w ∧
      smEvents w.cl 0 = [.kDisconnected] :=
  Reachable.exists_of_run resolveFailTrace (by decide +kernel)

end Runs

end ERpc
