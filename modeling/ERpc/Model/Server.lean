import ERpc.Model.Client

/-!
# The server datapath and the receive path

`process_small_req_st` and `process_large_req_one_st` (`rpc_req.cc`), `process_rfr_st`
(`rpc_rfr.cc`), `enqueue_cr_st` (`rpc_cr.cc`), `enqueue_response` (`rpc_resp.cc`) and the two
bury helpers of `rpc.h`, then `process_comps_st` (`rpc_rx.cc`), which hands each received packet
to the handler of its type on the sslot its request number selects.

A request handler is invoked, in the foreground or submitted to a background thread, at the
moment the model records `Event.reqFunc` with the request buffer it sees. The hugepage
allocator is not part of this model: the allocations of the datapath succeed (the code asserts
it), and freeing a buffer only buries it.
-/

namespace ERpc

def kZeroCopyRX : Bool := true

/-- `MsgBuffer (pkthdr, max_data_size)`: a single-packet buffer over a received packet. -/
def fakeMsgBuffer (p : Pkt) (maxDataSize : ℕ) : MsgBuffer :=
  ⟨maxDataSize, maxDataSize, 1, 1, fun b => p.data.getD b 0,
    Function.update (fun _ => default) 0 p.hdr, false, true⟩

/-- `Rpc::alloc_msg_buffer` when the allocation succeeds: data size and packet count at their
maximum, the magic set in header 0. The contents of a new allocation are unspecified; the model
starts them at zero and no result depends on them. -/
def allocMsgBuffer (T : Transport) (maxDataSize : ℕ) : MsgBuffer :=
  ⟨maxDataSize, maxDataSize, dataSizeToNumPkts T maxDataSize, dataSizeToNumPkts T maxDataSize,
    fun _ => 0, fun _ => { (default : PktHdr) with magic := kPktHdrMagic }, true, true⟩

namespace Rpc

variable (T : Transport) (pacing : Bool)

/-- `Rpc::enqueue_cr_st`: a credit return for a request packet. -/
def enqueueCrSt (st : Rpc) (s : ℕ) (reqHdr : PktHdr) : Rpc :=
  st.send ⟨{ reqType := reqHdr.reqType
             msgSize := 0
             destSessionNum := (st.sess s).remoteSessionNum
             pktType := .kExplCR
             pktNum := reqHdr.pktNum
             reqNum := reqNumField reqHdr.reqNum
             magic := kPktHdrMagic }, []⟩

def buryRespMsgbufServerSt (st : Rpc) (s i : ℕ) : Rpc :=
  st.setSlot s i { st.slot s i with txMsgbuf := .null }

def buryReqMsgbufServerSt (st : Rpc) (s i : ℕ) : Rpc :=
  st.modifySi s i fun si => { si with reqMsgbuf := { si.reqMsgbuf with dynamic := false, valid := false } }

/-- The type of the handler registered for `reqType` (`req_func_arr_[req_type].req_func_type_`).
`ReqFunc ()` leaves the type of an unregistered entry uninitialized; the model reads `kForeground`
there, and `invokeReqFunc` marks the dispatch on it as undefined. -/
def reqFuncType (st : Rpc) (reqType : ℕ) : ReqFuncType := (st.reqFuncArr reqType).getD .kForeground

/-- Remember the request's type and invoke its handler with the sslot's request buffer. An
unregistered type's `req_func_` is null, and the dispatch calls it, in the foreground or from a
background thread: undefined behaviour (`fault`). -/
def invokeReqFunc (st : Rpc) (s i reqType : ℕ) : Rpc :=
  let st := st.modifySi s i fun si =>
    { si with reqType := reqType, reqFuncType := st.reqFuncType reqType }
  let st := st.emit (.reqFunc s i (st.slot s i).curReqNum (st.slot s i).serverInfo.reqMsgbuf)
  { st with fault := st.fault || (st.reqFuncArr reqType).isNone }

/-- The request buffer `process_small_req_st` gives the handler: the received packet itself for
a foreground handler (`kZeroCopyRX`), else a copy in a new allocation. -/
def smallReqMsgbuf (st : Rpc) (p : Pkt) : MsgBuffer :=
  if st.reqFuncType p.hdr.reqType = .kForeground ∧ kZeroCopyRX then fakeMsgBuffer p p.hdr.msgSize
  else
    let m := allocMsgBuffer T p.hdr.msgSize
    { m with buf := Chunk.write m.buf 0 p.data p.hdr.msgSize }

/-- `Rpc::process_small_req_st`. A massively delayed old request is dropped; a retransmission of
the current one gets the response again if there is one. -/
def processSmallReqSt (st : Rpc) (s i : ℕ) (p : Pkt) : Rpc :=
  let x := st.slot s i
  if p.hdr.reqNum ≤ x.curReqNum then
    if p.hdr.reqNum < x.curReqNum then st
    else if x.txBuf.isSome then st.enqueuePktTxBurstSt T s i 0
    else st
  else
    let st := st.buryRespMsgbufServerSt s i
    let st := st.setSlot s i { st.slot s i with curReqNum := p.hdr.reqNum }
    let st := st.modifySi s i fun si => { si with numRx := 1 }
    let st := st.modifySi s i fun si => { si with reqMsgbuf := st.smallReqMsgbuf T p }
    st.invokeReqFunc s i p.hdr.reqType

/-- `Rpc::process_large_req_one_st`. Out of order, only past packets of the current request are
answered: with a credit return, or with the response for the last one. -/
def processLargeReqOneSt (st : Rpc) (s i : ℕ) (p : Pkt) : Rpc :=
  let x := st.slot s i
  let si := x.serverInfo
  if ¬ ((p.hdr.reqNum = x.curReqNum ∧ p.hdr.pktNum = si.numRx) ∨
      (p.hdr.reqNum = x.curReqNum + kSessionReqWindow ∧ p.hdr.pktNum = 0)) then
    if p.hdr.reqNum ≠ x.curReqNum ∨ si.numRx < p.hdr.pktNum then st
    else if p.hdr.pktNum ≠ dataSizeToNumPkts T p.hdr.msgSize - 1 then st.enqueueCrSt s p.hdr
    else if x.txBuf.isSome then st.enqueuePktTxBurstSt T s i 0
    else st
  else
    let st :=
      if p.hdr.pktNum = 0 then
        let st := st.buryRespMsgbufServerSt s i
        let st := st.modifySi s i fun si => { si with reqMsgbuf := allocMsgBuffer T p.hdr.msgSize }
        let st := st.setSlot s i { st.slot s i with curReqNum := p.hdr.reqNum }
        st.modifySi s i fun si => { si with numRx := 1 }
      else st.modifySi s i fun si => { si with numRx := si.numRx + 1 }
    let st :=
      if p.hdr.pktNum ≠ (st.slot s i).serverInfo.reqMsgbuf.numPkts - 1 then st.enqueueCrSt s p.hdr
      else st
    let st := st.modifySi s i fun si =>
      { si with reqMsgbuf := copyDataToMsgbuf T si.reqMsgbuf p.hdr.pktNum p }
    if (st.slot s i).serverInfo.numRx ≠ (st.slot s i).serverInfo.reqMsgbuf.numPkts then st
    else st.invokeReqFunc s i p.hdr.reqType

def processRfrSt (st : Rpc) (s i : ℕ) (hdr : PktHdr) : Rpc :=
  let x := st.slot s i
  let si := x.serverInfo
  if ¬ (hdr.reqNum = x.curReqNum ∧ hdr.pktNum = si.numRx) then
    if hdr.reqNum < x.curReqNum ∨ si.numRx < hdr.pktNum then st
    else st.enqueuePktTxBurstSt T s i (respNtoi hdr.pktNum si.savNumReqPkts)
  else
    let st := st.modifySi s i fun si => { si with numRx := si.numRx + 1 }
    st.enqueuePktTxBurstSt T s i (respNtoi hdr.pktNum si.savNumReqPkts)

/-- The headers `enqueue_response` writes into the response buffer: header 0, and copies of it
for the other packets with consecutive packet numbers. -/
def respHdrs (resp : MsgBuffer) (hdr0 : PktHdr) : ℕ → PktHdr :=
  fun n =>
    if n = 0 then hdr0
    else if n < resp.numPkts then { hdr0 with pktNum := hdr0.pktNum + n } else resp.pkthdr n

/-- `Rpc::enqueue_response` with one of the sslot's own response buffers, `dyn_resp_msgbuf_` if
`dyn`, else `pre_resp_msgbuf_`, which the handler has filled. In a session that is no longer
connected, a reset waits for this call: it is marked done and nothing is sent. -/
def enqueueResponse (st : Rpc) (s i : ℕ) (dyn : Bool) : Rpc :=
  let st := st.modifySi s i fun si => { si with savNumReqPkts := si.reqMsgbuf.numPkts }
  let st := st.buryReqMsgbufServerSt s i
  if (st.sess s).state ≠ .kConnected then
    st.modifySi s i fun si => { si with reqType := kInvalidReqType }
  else
    let x := st.slot s i
    let resp := if dyn then x.dynRespMsgbuf else x.preRespMsgbuf
    let hdr0 : PktHdr :=
      { resp.pkthdr 0 with
        reqType := x.serverInfo.reqType
        msgSize := resp.dataSize
        destSessionNum := (st.sess s).remoteSessionNum
        pktType := .kResp
        pktNum := x.serverInfo.savNumReqPkts - 1
        reqNum := reqNumField x.curReqNum }
    let resp := { resp with pkthdr := respHdrs resp hdr0 }
    let x :=
      if dyn then { x with dynRespMsgbuf := resp, txMsgbuf := .dynResp }
      else { x with preRespMsgbuf := resp, txMsgbuf := .preResp }
    let st := st.setSlot s i x
    let st := st.modifySi s i fun si => { si with reqType := kInvalidReqType }
    let st := st.emit (.respEnqueued s i x.curReqNum resp)
    st.enqueuePktTxBurstSt T s i 0

/-- The body of `process_comps_st` for one received packet. -/
def processPkt (st : Rpc) (p : Pkt) : Rpc :=
  if p.hdr.magic ≠ kPktHdrMagic then st
  else if st.sessionVecSize ≤ p.hdr.destSessionNum then st
  else
    match st.sessionVec p.hdr.destSessionNum with
    | none => st
    | some sess =>
      if sess.state ≠ .kConnected then st
      else
        let s := p.hdr.destSessionNum
        let i := p.hdr.reqNum % kSessionReqWindow
        match p.hdr.pktType with
        | .kReq =>
          if p.hdr.msgSize ≤ T.kMaxDataPerPkt then st.processSmallReqSt T s i p
          else st.processLargeReqOneSt T s i p
        | .kResp => st.processRespOneSt T pacing s i p
        | .kRFR => st.processRfrSt T s i p.hdr
        | .kExplCR => st.processExplCrSt T pacing s i p.hdr

/-- `Rpc::process_comps_st`: the packets of one RX burst, in order. -/
def processCompsSt (st : Rpc) (pkts : List Pkt) : Rpc :=
  pkts.foldl (processPkt T pacing) st

end Rpc

end ERpc
