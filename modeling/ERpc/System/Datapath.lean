import ERpc.Model.Sm
import ERpc.Spec.Server
import ERpc.Lib.Reach

/-!
# A client Rpc and a server Rpc exchanging datapath packets

Both Rpcs hold `n` connected sessions, and client session `s` talks to server session `s`. The
network keeps every packet either Rpc ever handed to its transport and may deliver any of them,
any number of times and in any order (`clientRx`, `serverRx`): it loses, duplicates and reorders
packets.

The applications act through the API: the client's enqueues a request on a session, the server's
answers, with `enqueue_response`, a request whose handler it was given and that it has not
answered yet. The event loop of the client processes its credit stall queue, the entries the
timing wheel reaps, and its scan for lost packets. The environment moves the clock and decides
what Timely says of each session's congestion.
-/

namespace ERpc

/-- A client Rpc and a server Rpc. -/
structure Dp where
  cl : Rpc
  sv : Rpc

/-- What can happen next. -/
inductive DpAct
  | enqueueRequest (s reqType : ℕ) (req resp : MsgBuffer) (tag : ℕ)
  | clientRx (k : ℕ)
  | serverRx (k : ℕ)
  | respond (s i reqNum : ℕ) (dyn : Bool) (resp : MsgBuffer)
  | stallq
  | wheel (reaped : List (ℕ × ℕ × ℕ))
  | pktLossScan
  | tick (dt : ℕ)
  | congestion (s : ℕ) (uncongested : Bool)

/-- The sslot an event is about. -/
def Event.slot? : Event → Option (ℕ × ℕ)
  | .reqAssigned s i _ _ => some (s, i)
  | .reqFunc s i _ _ => some (s, i)
  | .respEnqueued s i _ _ => some (s, i)
  | .contFunc s i _ _ _ => some (s, i)
  | .smHandler .. => none

/-- The request handler of sslot `(s, i)` was invoked for request `reqNum`. -/
def Event.isReqFunc (s i reqNum : ℕ) : Event → Bool
  | .reqFunc s' i' r _ => s' == s && i' == i && r == reqNum
  | _ => false

/-- The server enqueued the response to request `reqNum` of sslot `(s, i)`. -/
def Event.isRespEnqueued (s i reqNum : ℕ) : Event → Bool
  | .respEnqueued s' i' r _ => s' == s && i' == i && r == reqNum
  | _ => false

namespace Dp

variable (T : Transport) (pacing : Bool)

/-- One step of the system. `enqueue_request` runs on the dispatch thread, with a request buffer
whose size fields `resize_msg_buffer` could have left; a continuation runs in the foreground. -/
def step (d : Dp) : DpAct → Option Dp
  | .enqueueRequest s reqType req resp tag =>
    if s < d.cl.sessionVecSize ∧ req.Sized T then
      some { d with cl := d.cl.enqueueRequest T pacing s reqType req resp tag kInvalidBgETid }
    else none
  | .clientRx k => d.sv.tx[k]?.map fun p => { d with cl := d.cl.processPkt T pacing p }
  | .serverRx k => d.cl.tx[k]?.map fun p => { d with sv := d.sv.processPkt T pacing p }
  | .respond s i reqNum dyn resp =>
    if d.sv.events.any (Event.isReqFunc s i reqNum) ∧
        d.sv.events.all (fun e => !e.isRespEnqueued s i reqNum) ∧ resp.Sized T then
      some { d with
        sv := (d.sv.setSlot s i ((d.sv.slot s i).withResp dyn resp)).enqueueResponse T s i dyn }
    else none
  | .stallq => some { d with cl := d.cl.processCreditStallQueueSt T pacing }
  | .wheel reaped =>
    if reaped.Nodup ∧ ∀ e ∈ reaped, e ∈ d.cl.wheel then
      some { d with cl := d.cl.processWheelSt T reaped }
    else none
  | .pktLossScan => some { d with cl := d.cl.pktLossScanSt T pacing }
  | .tick dt => some { d with cl := { d.cl with evLoopTsc := d.cl.evLoopTsc + dt } }
  | .congestion s b =>
    if s < d.cl.sessionVecSize then
      some { d with cl := d.cl.modifyCsi s fun csi => { csi with uncongested := b } }
    else none

/-- Client session `s` once connected: its remote session is server session `s`. -/
def clientSess (s : ℕ) : Session :=
  { Session.init .kClient s .kConnected with localSessionNum := s, remoteSessionNum := s }

/-- Server session `s` as `handle_connect_req_st` creates it, with the preallocated response
buffer of each sslot. -/
def serverSess (s : ℕ) : Session :=
  { Session.init .kServer s .kConnected with
    sslotArr := fun i => { SSlot.init false i with preRespMsgbuf := allocMsgBuffer T T.kMaxDataPerPkt }
    localSessionNum := s
    remoteSessionNum := s }

/-- `n` connected session pairs, no request enqueued and nothing sent. The server's application
registered the handlers `reqFuncArr`; `rto` is the RTO of the client. -/
def init (n : ℕ) (reqFuncArr : ℕ → Option ReqFuncType) (rto : ℕ) : Dp :=
  ⟨{ Rpc.init 1 "client" 31850 0 1 (fun _ => none) rto 0 with
      sessionVec := fun s => if s < n then some (clientSess s) else none
      sessionVecSize := n },
   { Rpc.init 2 "server" 31850 0 2 reqFuncArr rto 0 with
      sessionVec := fun s => if s < n then some (serverSess T s) else none
      sessionVecSize := n }⟩

end Dp

section Roles

variable (T : Transport) {st : Rpc} {p : Pkt} {x : Session}

/-- A request packet for a connected client session goes to `process_small_req_st` as one for a
server session would: the session stays a client session, the server half of the sslot takes the
request's type, and the request handler runs. -/
theorem request_reaches_client_session (pacing : Bool) (hm : p.hdr.magic = kPktHdrMagic)
    (hs : p.hdr.destSessionNum < st.sessionVecSize)
    (hv : st.sessionVec p.hdr.destSessionNum = some x) (hrole : x.role = .kClient)
    (hc : x.state = .kConnected) (hk : p.hdr.pktType = .kReq)
    (hsmall : p.hdr.msgSize ≤ T.kMaxDataPerPkt)
    (hnew : (x.sslotArr (p.hdr.reqNum % kSessionReqWindow)).curReqNum < p.hdr.reqNum) :
    ((st.processPkt T pacing p).sess p.hdr.destSessionNum).role = .kClient ∧
      ((st.processPkt T pacing p).slot p.hdr.destSessionNum
        (p.hdr.reqNum % kSessionReqWindow)).serverInfo.reqType = p.hdr.reqType ∧
      ∃ m, (st.processPkt T pacing p).events = st.events ++
        [.reqFunc p.hdr.destSessionNum (p.hdr.reqNum % kSessionReqWindow) p.hdr.reqNum m] := by
  have hx : st.sess p.hdr.destSessionNum = x := by simp [Rpc.sess, hv]
  rw [Rpc.processPkt_of_connected T pacing hm hs (hx ▸ hv) (hx ▸ hc)]
  simp only [hk, if_pos hsmall]
  rw [Rpc.processSmallReqSt_of_gt T (by simpa [Rpc.slot, hx] using hnew)]
  refine ⟨?_, by simp, st.smallReqMsgbuf T p, by simp [Rpc.slotStep]⟩
  simp [Rpc.slotStep, Rpc.setSlot, hx, hrole]

/-- A request for sslot `0` of session `0`, as a stale peer could still send it. -/
def staleReqPkt : Pkt :=
  ⟨{ reqType := 3, msgSize := 4, destSessionNum := 0, pktType := .kReq, pktNum := 0,
     reqNum := kSessionReqWindow, magic := kPktHdrMagic }, [1, 2, 3, 4]⟩

theorem request_reaches_client_session_at :
    (((Dp.init Transport.dpdk 1 (fun _ => some .kForeground) 1000).cl.processPkt Transport.dpdk
        false staleReqPkt).sess 0).role = .kClient ∧
      (((Dp.init Transport.dpdk 1 (fun _ => some .kForeground) 1000).cl.processPkt Transport.dpdk
        false staleReqPkt).slot 0 0).serverInfo.reqType = 3 ∧
      ∃ m, ((Dp.init Transport.dpdk 1 (fun _ => some .kForeground) 1000).cl.processPkt
        Transport.dpdk false staleReqPkt).events =
          (Dp.init Transport.dpdk 1 (fun _ => some .kForeground) 1000).cl.events ++
            [.reqFunc 0 0 kSessionReqWindow m] :=
  request_reaches_client_session Transport.dpdk false rfl (by decide) rfl rfl rfl rfl
    (by decide) (by decide)

end Roles

end ERpc
