import ERpc.Model.State

/-!
# The client datapath

`enqueue_request` (`rpc_req.cc`), the two kick functions (`rpc_kick.cc`), the receipt of explicit
credit returns (`rpc_cr.cc`) and of response packets (`rpc_resp.cc`), the credit stall queue and
the timing wheel (`rpc_queues.cc`), and rollback on packet loss (`rpc_pkt_loss.cc`), as functions
of the client `Rpc`. `T` is the transport and `pacing` is `kCcPacing`.

A packet is handed to the transport as soon as it is queued for a TX burst, with the header and
data it has at that moment. The timing wheel is the list of entries inserted and not yet
processed; which of them `reap` makes ready is decided by time, which the model leaves to the
caller of `processWheelSt`. Timely's rate computation (`kCcRateComp`) only feeds
`is_uncongested`, kept as a session field.
-/

namespace ERpc

def kCcOptWheelBypass : Bool := true

/-- `Rpc::can_bypass_wheel` (with `kTesting` off). -/
def canBypassWheel (pacing : Bool) (sess : Session) (x : SSlot) : Bool :=
  !pacing || (kCcOptWheelBypass && (x.clientInfo.wheelCount == 0 && sess.clientInfo.uncongested))

def inOrderClient (pacing : Bool) (x : SSlot) (hdr : PktHdr) : Bool :=
  if hdr.reqNum ≠ x.curReqNum then false
  else if hdr.pktNum ≠ x.clientInfo.numRx then false
  else if x.clientInfo.numTx ≤ hdr.pktNum then false
  else if pacing && x.clientInfo.inWheel (hdr.pktNum % kSessionCredits) then false
  else true

def reqPktsPending (x : SSlot) : Bool :=
  match x.txBuf with
  | some req => x.clientInfo.numTx < req.numPkts
  | none => false

namespace Rpc

variable (T : Transport) (pacing : Bool)

def bumpCredits (st : Rpc) (s : ℕ) : Rpc :=
  st.modifyCsi s fun csi => { csi with credits := csi.credits + 1 }

/-- `Rpc::enqueue_pkt_tx_burst_st`: packet `pktIdx` of the sslot's `tx_msgbuf_`. -/
def enqueuePktTxBurstSt (st : Rpc) (s i pktIdx : ℕ) : Rpc :=
  match (st.slot s i).txBuf with
  | some m => st.send (m.pkt T pktIdx)
  | none => st

def enqueueWheelReqSt (st : Rpc) (s i pktNum : ℕ) : Rpc :=
  { st with wheel := st.wheel ++ [(s, i, pktNum)] }.modifyCi s i fun ci =>
    { ci with
      inWheel := Function.update ci.inWheel (pktNum % kSessionCredits) true
      wheelCount := ci.wheelCount + 1 }

/-- `Rpc::enqueue_rfr_st`: the RFR's packet number is the sslot's `num_tx_`. -/
def enqueueRfrSt (st : Rpc) (s i : ℕ) (respHdr : PktHdr) : Rpc :=
  st.send ⟨{ reqType := respHdr.reqType
             msgSize := 0
             destSessionNum := (st.sess s).remoteSessionNum
             pktType := .kRFR
             pktNum := (st.slot s i).clientInfo.numTx
             reqNum := reqNumField respHdr.reqNum
             magic := kPktHdrMagic }, []⟩

/-- The loop of `kick_req_st`: `n` packets, each on the wire or into the wheel, one credit each. -/
def kickReqLoop (bypass : Bool) (s i : ℕ) : ℕ → Rpc → Rpc
  | 0, st => st
  | n + 1, st =>
    let pktIdx := (st.slot s i).clientInfo.numTx
    let st := if bypass then st.enqueuePktTxBurstSt T s i pktIdx else st.enqueueWheelReqSt s i pktIdx
    let st := st.modifyCi s i fun ci => { ci with numTx := ci.numTx + 1 }
    let st := st.modifyCsi s fun csi => { csi with credits := csi.credits - 1 }
    kickReqLoop bypass s i n st

def kickReqSt (st : Rpc) (s i : ℕ) : Rpc :=
  match (st.slot s i).txBuf with
  | some req =>
    kickReqLoop T (canBypassWheel pacing (st.sess s) (st.slot s i)) s i
      (min (st.sess s).clientInfo.credits (req.numPkts - (st.slot s i).clientInfo.numTx)) st
  | none => st

/-- The loop of `kick_rfr_st`: `n` RFRs, one credit each. -/
def kickRfrLoop (s i : ℕ) : ℕ → Rpc → Rpc
  | 0, st => st
  | n + 1, st =>
    let st := st.enqueueRfrSt s i ((st.slot s i).clientInfo.respMsgbuf.pkthdr 0)
    let st := st.modifyCi s i fun ci => { ci with numTx := ci.numTx + 1 }
    let st := st.modifyCsi s fun csi => { csi with credits := csi.credits - 1 }
    kickRfrLoop s i n st

def kickRfrSt (st : Rpc) (s i : ℕ) : Rpc :=
  match (st.slot s i).txBuf with
  | some req =>
    kickRfrLoop s i (min (st.sess s).clientInfo.credits
      (wirePkts req (st.slot s i).clientInfo.respMsgbuf - (st.slot s i).clientInfo.numTx)) st
  | none => st

/-- `Rpc::add_to_active_rpc_list`: append at the tail. -/
def addToActiveRpcList (st : Rpc) (s i : ℕ) : Rpc :=
  let prevTail := st.tailSentinel.prev
  let st := st.setNext prevTail (.slot s i)
  let st := st.setPrev (.slot s i) prevTail
  let st := st.setNext (.slot s i) .tail
  st.setPrev .tail (.slot s i)

def deleteFromActiveRpcList (st : Rpc) (s i : ℕ) : Rpc :=
  let st := st.setNext (st.prevOf (.slot s i)) (st.nextOf (.slot s i))
  st.setPrev (st.nextOf (.slot s i)) (st.prevOf (.slot s i))

/-- The headers `enqueue_request` writes into a request buffer: header 0 from the request, and
copies of it for the other packets with their own packet numbers. -/
def reqHdrs (req : MsgBuffer) (hdr0 : PktHdr) : ℕ → PktHdr :=
  fun n => if n = 0 then hdr0 else if n < req.numPkts then { hdr0 with pktNum := n } else req.pkthdr n

/-- `Rpc::enqueue_request`, on the foreground thread. -/
def enqueueRequest (st : Rpc) (sessionNum reqType : ℕ) (req resp : MsgBuffer)
    (tag contEtid : ℕ) : Rpc :=
  let sess := st.sess sessionNum
  match sess.clientInfo.sslotFreeVec with
  | [] =>
    st.modifyCsi sessionNum fun csi =>
      { csi with enqReqBacklog := csi.enqReqBacklog ++ [⟨sessionNum, reqType, req, resp, tag, contEtid⟩] }
  | i :: rest =>
    let cur := (sess.sslotArr i).curReqNum + kSessionReqWindow
    let hdr0 : PktHdr :=
      { req.pkthdr 0 with
        reqType := reqType
        msgSize := req.dataSize
        destSessionNum := sess.remoteSessionNum
        pktType := .kReq
        pktNum := 0
        reqNum := reqNumField cur }
    let req := { req with pkthdr := reqHdrs req hdr0 }
    let st := st.modifyCsi sessionNum fun csi => { csi with sslotFreeVec := rest }
    let x := st.slot sessionNum i
    let st := st.setSlot sessionNum i
      { x with
        txMsgbuf := .app req
        curReqNum := cur
        clientInfo := { x.clientInfo with respMsgbuf := resp, tag := tag, progressTsc := st.evLoopTsc } }
    let st := st.addToActiveRpcList sessionNum i
    let st := st.modifyCi sessionNum i fun ci => { ci with numRx := 0, numTx := 0, contEtid := contEtid }
    let st := st.emit (.reqAssigned sessionNum i cur req)
    if 0 < (st.sess sessionNum).clientInfo.credits then st.kickReqSt T pacing sessionNum i
    else { st with stallq := st.stallq ++ [(sessionNum, i)] }

def processExplCrSt (st : Rpc) (s i : ℕ) (hdr : PktHdr) : Rpc :=
  if !inOrderClient pacing (st.slot s i) hdr then st
  else
    let st := st.bumpCredits s
    let st := st.modifyCi s i fun ci => { ci with numRx := ci.numRx + 1, progressTsc := st.evLoopTsc }
    if reqPktsPending (st.slot s i) then st.kickReqSt T pacing s i else st

/-- The single-packet response path: resize, then copy the header and the data. -/
def copyRespSmall (resp : MsgBuffer) (p : Pkt) : MsgBuffer :=
  let r := resizeMsgBuffer T resp p.hdr.msgSize
  { r with
    pkthdr := Function.update r.pkthdr 0 p.hdr
    buf := Chunk.write r.buf 0 p.data p.hdr.msgSize }

/-- The end of `process_resp_one_st` once the whole response is in: the sslot is freed, a
backlogged request takes it, and the continuation runs with the response buffer. -/
def completeResp (st : Rpc) (s i : ℕ) : Rpc :=
  let x := st.slot s i
  let st := st.setSlot s i { x with txMsgbuf := .null }
  let st := st.deleteFromActiveRpcList s i
  let st := st.modifyCsi s fun csi => { csi with sslotFreeVec := x.index :: csi.sslotFreeVec }
  let st :=
    match (st.sess s).clientInfo.enqReqBacklog with
    | [] => st
    | a :: _ =>
      let st := st.enqueueRequest T pacing a.sessionNum a.reqType a.reqMsgbuf a.respMsgbuf a.tag
        a.contEtid
      st.modifyCsi s fun csi => { csi with enqReqBacklog := csi.enqReqBacklog.tail }
  st.emit (.contFunc s i x.curReqNum x.clientInfo.tag x.clientInfo.respMsgbuf)

/-- `Rpc::process_resp_one_st`. Of a multi-packet response, the first packet sizes the response
buffer and brings its header. -/
def processRespOneSt (st : Rpc) (s i : ℕ) (p : Pkt) : Rpc :=
  if !inOrderClient pacing (st.slot s i) p.hdr then st
  else
    let st := st.bumpCredits s
    let st := st.modifyCi s i fun ci => { ci with numRx := ci.numRx + 1, progressTsc := st.evLoopTsc }
    if p.hdr.msgSize ≤ T.kMaxDataPerPkt then
      let st := st.modifyCi s i fun ci => { ci with respMsgbuf := copyRespSmall T ci.respMsgbuf p }
      st.completeResp T pacing s i
    else
      match (st.slot s i).txBuf with
      | none => st
      | some req =>
        let st :=
          if p.hdr.pktNum = req.numPkts - 1 then
            st.modifyCi s i fun ci =>
              { ci with
                respMsgbuf :=
                  let r := resizeMsgBuffer T ci.respMsgbuf p.hdr.msgSize
                  { r with pkthdr := Function.update r.pkthdr 0 p.hdr } }
          else st
        let st :=
          if (st.slot s i).clientInfo.numTx ≠ wirePkts req (st.slot s i).clientInfo.respMsgbuf then
            st.kickRfrSt s i
          else st
        let st := st.modifyCi s i fun ci =>
          { ci with respMsgbuf := copyDataToMsgbuf T ci.respMsgbuf (respNtoi p.hdr.pktNum req.numPkts) p }
        if (st.slot s i).clientInfo.numRx ≠ wirePkts req (st.slot s i).clientInfo.respMsgbuf then st
        else st.completeResp T pacing s i

/-- The loop of `process_credit_stall_queue_st`: kick the sslots whose session has credits, keep
the others in order. -/
def stallqLoop : List (ℕ × ℕ) → Rpc → List (ℕ × ℕ) → Rpc × List (ℕ × ℕ)
  | [], st, kept => (st, kept)
  | (s, i) :: rest, st, kept =>
    if 0 < (st.sess s).clientInfo.credits then
      stallqLoop rest
        (if reqPktsPending (st.slot s i) then st.kickReqSt T pacing s i else st.kickRfrSt s i) kept
    else stallqLoop rest st (kept ++ [(s, i)])

def processCreditStallQueueSt (st : Rpc) : Rpc :=
  let r := stallqLoop T pacing st.stallq st []
  { r.1 with stallq := r.2 }

/-- One ready entry of the wheel: its packet goes out, and it leaves the wheel. -/
def wheelSendOne (st : Rpc) (e : ℕ × ℕ × ℕ) : Rpc :=
  let (s, i, pktNum) := e
  let st :=
    match (st.slot s i).txBuf with
    | some req =>
      if pktNum < req.numPkts then st.enqueuePktTxBurstSt T s i pktNum
      else st.enqueueRfrSt s i ((st.slot s i).clientInfo.respMsgbuf.pkthdr 0)
    | none => st
  st.modifyCi s i fun ci =>
    { ci with
      wheelCount := ci.wheelCount - 1
      inWheel := Function.update ci.inWheel (pktNum % kSessionCredits) false }

/-- `Rpc::process_wheel_st`: `reaped` are the entries `reap` moved to the ready queue, in order. -/
def processWheelSt (st : Rpc) (reaped : List (ℕ × ℕ × ℕ)) : Rpc :=
  reaped.foldl (wheelSendOne T) { st with wheel := st.wheel.diff reaped }

/-- `Rpc::pkt_loss_retransmit_st`: roll back to the last packet received and kick again, unless
packets of the request are still in the wheel. -/
def pktLossRetransmitSt (st : Rpc) (s i : ℕ) : Rpc :=
  let ci := (st.slot s i).clientInfo
  let delta := ci.numTx - ci.numRx
  if delta = 0 then st
  else if 0 < ci.wheelCount then st
  else
    let st := st.modifyCsi s fun csi =>
      { csi with credits := csi.credits + delta, numReTx := csi.numReTx + 1 }
    let st := st.modifyCi s i fun ci => { ci with numTx := ci.numRx, progressTsc := st.evLoopTsc }
    if reqPktsPending (st.slot s i) then st.kickReqSt T pacing s i else st.kickRfrSt s i

/-- The datapath loop of `pkt_loss_scan_st`: walk the active-RPC list from `cur` and retransmit
for every sslot with packets outstanding whose last progress is older than the RTO. `fuel`
bounds the walk. -/
def scanActiveRpcs : ℕ → Ptr → Rpc → Rpc
  | 0, _, st => st
  | fuel + 1, .slot s i, st =>
    let ci := (st.slot s i).clientInfo
    if ci.numTx = ci.numRx then scanActiveRpcs fuel ci.next st
    else
      let st :=
        if st.rpcRtoCycles < st.evLoopTsc - ci.progressTsc then st.pktLossRetransmitSt T pacing s i
        else st
      scanActiveRpcs fuel (st.slot s i).clientInfo.next st
  | _ + 1, _, st => st

end Rpc

end ERpc
