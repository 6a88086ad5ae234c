import ERpc.Model.Server
import ERpc.Spec.Client

/-!
# What the server handlers do to their sslot

Every server handler changes one sslot, makes calls into the application and sends packets:
`slotStep st s i x es ps` is the state where sslot `(s, i)` is `x`, the calls `es` and the
packets `ps` added. The writes a handler makes one after another merge into one `slotStep`
(`slotStep_slotStep`, `modifySi_eq_slotStep`, `emit_slotStep`, `send_slotStep`), and each handler
has a closed form for each way the request number and packet number of a packet compare with
the sslot's `cur_req_num_` and `num_rx_`: an older request is dropped, a past packet of the
current one is answered again, the next packet of the current one is taken in, and the first
packet of the next request starts it.

The handler of a single-packet request writes the request's type into `req_type_` when it invokes
the handler; `kInvalidReqType` marks "no `enqueue_response` pending", and
`Nexus::register_req_func` accepts a handler for that very type. A request of that type is then
invoked with the sslot still marked idle (`invalid_req_type_hides_pending_handler`). Request
numbers on the wire are 44 bits wide; request `2 ^ 37` of sslot `0` wraps to `0`, which the
server takes for a massively delayed old request and no response packet can match at the client
(`wrapped_request_is_old`).
-/

namespace ERpc

/-- The response buffer the server's application fills before `enqueue_response`: the sslot's
`dyn_resp_msgbuf_` if `dyn`, else its `pre_resp_msgbuf_`. -/
def SSlot.withResp (x : SSlot) (dyn : Bool) (resp : MsgBuffer) : SSlot :=
  if dyn then { x with dynRespMsgbuf := resp } else { x with preRespMsgbuf := resp }

/-- The response buffer `enqueue_response` sends from sslot `x` whose handler filled `resp`:
header 0 names the request, and the other headers copy it with their own packet numbers. -/
def respOut (x : SSlot) (resp : MsgBuffer) (dest : ℕ) : MsgBuffer :=
  { resp with
    pkthdr := Rpc.respHdrs resp
      { resp.pkthdr 0 with
        reqType := x.serverInfo.reqType
        msgSize := resp.dataSize
        destSessionNum := dest
        pktType := .kResp
        pktNum := x.serverInfo.reqMsgbuf.numPkts - 1
        reqNum := reqNumField x.curReqNum } }

/-- Sslot `x` once `enqueue_response` has sent `resp` from it. -/
def respondedSlot (x : SSlot) (dyn : Bool) (resp : MsgBuffer) : SSlot :=
  { x.withResp dyn resp with
    txMsgbuf := if dyn then .dynResp else .preResp
    serverInfo :=
      { x.serverInfo with
        savNumReqPkts := x.serverInfo.reqMsgbuf.numPkts
        reqMsgbuf := { x.serverInfo.reqMsgbuf with dynamic := false, valid := false }
        reqType := kInvalidReqType } }

section Responses

variable {x : SSlot} {dyn : Bool} {r r' : MsgBuffer} {dest : ℕ}

@[simp] theorem SSlot.withResp_curReqNum : (x.withResp dyn r).curReqNum = x.curReqNum := by
  cases dyn <;> rfl

@[simp] theorem SSlot.withResp_serverInfo : (x.withResp dyn r).serverInfo = x.serverInfo := by
  cases dyn <;> rfl

theorem SSlot.withResp_resp :
    (if dyn then (x.withResp dyn r).dynRespMsgbuf else (x.withResp dyn r).preRespMsgbuf) = r := by
  cases dyn <;> rfl

theorem respOut_withResp : respOut (x.withResp dyn r) = respOut x := by
  funext r' dest
  simp only [respOut, SSlot.withResp_curReqNum, SSlot.withResp_serverInfo]

theorem respondedSlot_withResp : respondedSlot (x.withResp dyn r) dyn r' = respondedSlot x dyn r' := by
  cases dyn <;> rfl

@[simp] theorem respondedSlot_curReqNum : (respondedSlot x dyn r).curReqNum = x.curReqNum := by
  cases dyn <;> rfl

@[simp] theorem respondedSlot_serverInfo :
    (respondedSlot x dyn r).serverInfo =
      { x.serverInfo with
        savNumReqPkts := x.serverInfo.reqMsgbuf.numPkts
        reqMsgbuf := { x.serverInfo.reqMsgbuf with dynamic := false, valid := false }
        reqType := kInvalidReqType } := by
  cases dyn <;> rfl

@[simp] theorem respondedSlot_txBuf : (respondedSlot x dyn r).txBuf = some r := by
  cases dyn <;> rfl

@[simp] theorem respondedSlot_txMsgbuf :
    (respondedSlot x dyn r).txMsgbuf = if dyn then .dynResp else .preResp := by
  cases dyn <;> rfl

@[simp] theorem respOut_dataSize : (respOut x r dest).dataSize = r.dataSize := rfl
@[simp] theorem respOut_numPkts : (respOut x r dest).numPkts = r.numPkts := rfl
@[simp] theorem respOut_maxDataSize : (respOut x r dest).maxDataSize = r.maxDataSize := rfl

end Responses

/-- The credit return `enqueue_cr_st` sends for the request packet with header `reqHdr`, to
remote session `dest`. -/
def crPkt (reqHdr : PktHdr) (dest : ℕ) : Pkt :=
  ⟨{ reqType := reqHdr.reqType
     msgSize := 0
     destSessionNum := dest
     pktType := .kExplCR
     pktNum := reqHdr.pktNum
     reqNum := reqNumField reqHdr.reqNum
     magic := kPktHdrMagic }, []⟩

section Buffers

variable (T : Transport)

@[simp] theorem copyDataToMsgbuf_numPkts (m : MsgBuffer) (k : ℕ) (q : Pkt) :
    (copyDataToMsgbuf T m k q).numPkts = m.numPkts := by
  simp only [copyDataToMsgbuf]

@[simp] theorem copyDataToMsgbuf_dataSize (m : MsgBuffer) (k : ℕ) (q : Pkt) :
    (copyDataToMsgbuf T m k q).dataSize = m.dataSize := by
  simp only [copyDataToMsgbuf]

@[simp] theorem allocMsgBuffer_numPkts (n : ℕ) : (allocMsgBuffer T n).numPkts = dataSizeToNumPkts T n :=
  rfl

@[simp] theorem allocMsgBuffer_dataSize (n : ℕ) : (allocMsgBuffer T n).dataSize = n := rfl

end Buffers

namespace Rpc

/-- Sslot `(s, i)` becomes `x`; the handler made the calls `es` and sent the packets `ps`. -/
def slotStep (st : Rpc) (s i : ℕ) (x : SSlot) (es : List Event) (ps : List Pkt) : Rpc :=
  { st.setSlot s i x with events := st.events ++ es, tx := st.tx ++ ps }

variable (T : Transport) {st : Rpc} {s i t j : ℕ} {p : Pkt}

section SlotStep

variable {x y : SSlot} {es es' : List Event} {ps ps' : List Pkt}

theorem slot_slotStep : (st.slotStep s i x es ps).slot t j = if t = s ∧ j = i then x else st.slot t j :=
  slot_setSlot x

@[simp] theorem slot_slotStep_self : (st.slotStep s i x es ps).slot s i = x := by
  simp [slot_slotStep]

theorem sess_slotStep_remote :
    ((st.slotStep s i x es ps).sess t).remoteSessionNum = (st.sess t).remoteSessionNum := by
  by_cases h : t = s <;> simp [slotStep, setSlot, h]

theorem sess_slotStep_state : ((st.slotStep s i x es ps).sess t).state = (st.sess t).state := by
  by_cases h : t = s <;> simp [slotStep, setSlot, h]

@[simp] theorem reqFuncType_slotStep : (st.slotStep s i x es ps).reqFuncType = st.reqFuncType := rfl

@[simp] theorem reqFuncArr_slotStep : (st.slotStep s i x es ps).reqFuncArr = st.reqFuncArr := rfl

@[simp] theorem fault_slotStep : (st.slotStep s i x es ps).fault = st.fault := rfl

theorem slotStep_slotStep :
    (st.slotStep s i x es ps).slotStep s i y es' ps' = st.slotStep s i y (es ++ es') (ps ++ ps') := by
  simp [slotStep, setSlot, Function.update_idem, List.append_assoc]

theorem send_slotStep (q : Pkt) : (st.slotStep s i x es ps).send q = st.slotStep s i x es (ps ++ [q]) := by
  simp [slotStep]

theorem sendAll_slotStep (qs : List Pkt) :
    (st.slotStep s i x es ps).sendAll qs = st.slotStep s i x es (ps ++ qs) := by
  simp [slotStep]

theorem emit_slotStep (e : Event) : (st.slotStep s i x es ps).emit e = st.slotStep s i x (es ++ [e]) ps := by
  simp [slotStep]

theorem modifySi_eq_slotStep (f : ServerInfo → ServerInfo) :
    st.modifySi s i f =
      st.slotStep s i { st.slot s i with serverInfo := f (st.slot s i).serverInfo } [] [] := by
  simp only [slotStep, List.append_nil]
  rfl

theorem setSlot_eq_slotStep : st.setSlot s i y = st.slotStep s i y [] [] := by
  simp only [slotStep, List.append_nil]
  rfl

theorem ite_slotStep (c : Prop) [Decidable c] :
    (if c then st.slotStep s i x es ps else st.slotStep s i x es ps') =
      st.slotStep s i x es (if c then ps else ps') := by
  split_ifs <;> rfl

end SlotStep

theorem enqueueCrSt_eq (h : PktHdr) :
    st.enqueueCrSt s h = st.send (crPkt h (st.sess s).remoteSessionNum) :=
  rfl

theorem enqueuePktTxBurstSt_eq (k : ℕ) :
    st.enqueuePktTxBurstSt T s i k = st.sendAll ((st.slot s i).txBuf.map (·.pkt T k)).toList := by
  unfold enqueuePktTxBurstSt
  cases (st.slot s i).txBuf <;> simp

/-! ### Single-packet requests -/

theorem processSmallReqSt_of_lt (h : p.hdr.reqNum < (st.slot s i).curReqNum) :
    st.processSmallReqSt T s i p = st := by
  simp [processSmallReqSt, h.le, h]

/-- A retransmission of the current request gets the response again, if there is one. -/
theorem processSmallReqSt_of_eq (h : p.hdr.reqNum = (st.slot s i).curReqNum) :
    st.processSmallReqSt T s i p = st.sendAll ((st.slot s i).txBuf.map (·.pkt T 0)).toList := by
  simp only [processSmallReqSt, h, le_refl, lt_irrefl, if_true, if_false, enqueuePktTxBurstSt_eq]
  cases (st.slot s i).txBuf <;> simp

/-- A new single-packet request: the previous response is buried, the sslot moves to the
request's number with its buffer and type, and the handler is invoked, undefined if the type has
none. -/
theorem processSmallReqSt_of_gt (h : (st.slot s i).curReqNum < p.hdr.reqNum) :
    st.processSmallReqSt T s i p =
      { st.slotStep s i
          { st.slot s i with
            txMsgbuf := .null
            curReqNum := p.hdr.reqNum
            serverInfo :=
              { (st.slot s i).serverInfo with
                numRx := 1
                reqMsgbuf := st.smallReqMsgbuf T p
                reqType := p.hdr.reqType
                reqFuncType := st.reqFuncType p.hdr.reqType } }
          [.reqFunc s i p.hdr.reqNum (st.smallReqMsgbuf T p)] [] with
        fault := st.fault || (st.reqFuncArr p.hdr.reqType).isNone } := by
  have h1 : ¬ p.hdr.reqNum ≤ (st.slot s i).curReqNum := by omega
  simp only [processSmallReqSt, h1, if_false, buryRespMsgbufServerSt, invokeReqFunc, setSlot_eq_slotStep,
    modifySi_eq_slotStep, slot_slotStep_self, slotStep_slotStep, emit_slotStep, List.nil_append]
  rfl

/-! ### Multi-packet requests -/

/-- A packet of a multi-packet request that is neither the next one of the current request nor
the first one of the next request, and is not a past packet of the current request, is
dropped. -/
theorem processLargeReqOneSt_of_drop
    (h : p.hdr.reqNum ≠ (st.slot s i).curReqNum ∨ (st.slot s i).serverInfo.numRx < p.hdr.pktNum)
    (hfirst : ¬ (p.hdr.reqNum = (st.slot s i).curReqNum + kSessionReqWindow ∧ p.hdr.pktNum = 0)) :
    st.processLargeReqOneSt T s i p = st := by
  have hin : ¬ ((p.hdr.reqNum = (st.slot s i).curReqNum ∧
      p.hdr.pktNum = (st.slot s i).serverInfo.numRx) ∨
      (p.hdr.reqNum = (st.slot s i).curReqNum + kSessionReqWindow ∧ p.hdr.pktNum = 0)) := by
    rintro (⟨h1, h2⟩ | h3)
    · rcases h with h | h <;> omega
    · exact hfirst h3
  simp only [processLargeReqOneSt, hin, not_false_eq_true, if_true, h, if_true]

/-- A past packet of the current request is answered with a credit return, or with the first
response packet if it is the last request packet and the response exists. -/
theorem processLargeReqOneSt_past (h1 : p.hdr.reqNum = (st.slot s i).curReqNum)
    (h2 : p.hdr.pktNum < (st.slot s i).serverInfo.numRx) :
    st.processLargeReqOneSt T s i p =
      st.sendAll (if p.hdr.pktNum ≠ dataSizeToNumPkts T p.hdr.msgSize - 1 then
        [crPkt p.hdr (st.sess s).remoteSessionNum] else ((st.slot s i).txBuf.map (·.pkt T 0)).toList) := by
  have hin : ¬ ((p.hdr.reqNum = (st.slot s i).curReqNum ∧ p.hdr.pktNum = (st.slot s i).serverInfo.numRx) ∨
      (p.hdr.reqNum = (st.slot s i).curReqNum + kSessionReqWindow ∧ p.hdr.pktNum = 0)) := by
    simp only [kSessionReqWindow] at *
    omega
  have hold : ¬ (p.hdr.reqNum ≠ (st.slot s i).curReqNum ∨ (st.slot s i).serverInfo.numRx < p.hdr.pktNum) := by
    omega
  simp only [processLargeReqOneSt]
  rw [if_pos hin, if_neg hold]
  split_ifs with hc hb
  · simp [enqueueCrSt_eq]
  · rw [enqueuePktTxBurstSt_eq]
  · rw [Option.not_isSome_iff_eq_none] at hb
    simp [hb]

/-- The next packet of the current request: its data goes into the request buffer, all but the
last request packet get a credit return, and the last one invokes the handler, undefined if the
type has none. -/
theorem processLargeReqOneSt_next (h1 : p.hdr.reqNum = (st.slot s i).curReqNum)
    (h2 : p.hdr.pktNum = (st.slot s i).serverInfo.numRx) (h0 : 0 < (st.slot s i).serverInfo.numRx) :
    st.processLargeReqOneSt T s i p =
      { st.slotStep s i
        { st.slot s i with
          serverInfo :=
            { (st.slot s i).serverInfo with
              numRx := (st.slot s i).serverInfo.numRx + 1
              reqMsgbuf := copyDataToMsgbuf T (st.slot s i).serverInfo.reqMsgbuf p.hdr.pktNum p
              reqType :=
                if (st.slot s i).serverInfo.numRx + 1 = (st.slot s i).serverInfo.reqMsgbuf.numPkts then
                  p.hdr.reqType else (st.slot s i).serverInfo.reqType
              reqFuncType :=
                if (st.slot s i).serverInfo.numRx + 1 = (st.slot s i).serverInfo.reqMsgbuf.numPkts then
                  st.reqFuncType p.hdr.reqType else (st.slot s i).serverInfo.reqFuncType } }
        (if (st.slot s i).serverInfo.numRx + 1 = (st.slot s i).serverInfo.reqMsgbuf.numPkts then
          [.reqFunc s i (st.slot s i).curReqNum
            (copyDataToMsgbuf T (st.slot s i).serverInfo.reqMsgbuf p.hdr.pktNum p)] else [])
        (if p.hdr.pktNum ≠ (st.slot s i).serverInfo.reqMsgbuf.numPkts - 1 then
          [crPkt p.hdr (st.sess s).remoteSessionNum] else [])
        with
        fault := st.fault || ((st.slot s i).serverInfo.numRx + 1 =
          (st.slot s i).serverInfo.reqMsgbuf.numPkts && (st.reqFuncArr p.hdr.reqType).isNone) } := by
  have hp0 : p.hdr.pktNum ≠ 0 := by omega
  have hin : (p.hdr.reqNum = (st.slot s i).curReqNum ∧ p.hdr.pktNum = (st.slot s i).serverInfo.numRx) ∨
      (p.hdr.reqNum = (st.slot s i).curReqNum + kSessionReqWindow ∧ p.hdr.pktNum = 0) := .inl ⟨h1, h2⟩
  simp only [processLargeReqOneSt]
  rw [if_neg (not_not.mpr hin), if_neg hp0]
  simp only [modifySi_eq_slotStep, slot_slotStep_self, enqueueCrSt_eq, send_slotStep,
    sess_slotStep_remote, ite_slotStep, copyDataToMsgbuf_numPkts, slotStep_slotStep, List.nil_append,
    List.append_nil]
  by_cases hd : (st.slot s i).serverInfo.numRx + 1 = (st.slot s i).serverInfo.reqMsgbuf.numPkts
  · simp only [hd, ne_eq, not_true_eq_false, if_false, if_true, invokeReqFunc, modifySi_eq_slotStep,
      slot_slotStep_self, emit_slotStep, reqFuncType_slotStep, slotStep_slotStep, List.nil_append,
      List.append_nil, fault_slotStep, reqFuncArr_slotStep, decide_true, Bool.true_and]
  · simp only [hd, ne_eq, not_false_eq_true, if_true, if_false, decide_false, Bool.false_and,
      Bool.or_false]
    rfl

/-- The first packet of the next multi-packet request buries the previous response, starts a
request buffer of the request's size and gets a credit return. -/
theorem processLargeReqOneSt_first (h1 : p.hdr.reqNum = (st.slot s i).curReqNum + kSessionReqWindow)
    (h2 : p.hdr.pktNum = 0) (hl : T.kMaxDataPerPkt < p.hdr.msgSize) :
    st.processLargeReqOneSt T s i p =
      st.slotStep s i
        { st.slot s i with
          txMsgbuf := .null
          curReqNum := p.hdr.reqNum
          serverInfo :=
            { (st.slot s i).serverInfo with
              numRx := 1
              reqMsgbuf := copyDataToMsgbuf T (allocMsgBuffer T p.hdr.msgSize) 0 p } }
        [] [crPkt p.hdr (st.sess s).remoteSessionNum] := by
  have hin : (p.hdr.reqNum = (st.slot s i).curReqNum ∧ p.hdr.pktNum = (st.slot s i).serverInfo.numRx) ∨
      (p.hdr.reqNum = (st.slot s i).curReqNum + kSessionReqWindow ∧ p.hdr.pktNum = 0) := .inr ⟨h1, h2⟩
  have hN : 1 < dataSizeToNumPkts T p.hdr.msgSize := by
    have h := dataSizeToNumPkts_pos T p.hdr.msgSize
    have h' : dataSizeToNumPkts T p.hdr.msgSize ≠ 1 := fun h' =>
      absurd ((dataSizeToNumPkts_eq_one T).1 h') (by omega)
    omega
  have hcr : ¬ 0 = dataSizeToNumPkts T p.hdr.msgSize - 1 := by omega
  have hdone : 1 ≠ dataSizeToNumPkts T p.hdr.msgSize := by omega
  simp only [processLargeReqOneSt]
  rw [if_neg (not_not.mpr hin), if_pos h2]
  simp only [buryRespMsgbufServerSt, setSlot_eq_slotStep, slot_slotStep_self, modifySi_eq_slotStep,
    slotStep_slotStep, enqueueCrSt_eq, send_slotStep, sess_slotStep_remote, copyDataToMsgbuf_numPkts,
    allocMsgBuffer_numPkts, ne_eq, hcr, not_false_eq_true, if_true, hdone, List.nil_append,
    List.append_nil, h2]

/-! ### Requests for response -/

theorem processRfrSt_next (h1 : p.hdr.reqNum = (st.slot s i).curReqNum)
    (h2 : p.hdr.pktNum = (st.slot s i).serverInfo.numRx) :
    st.processRfrSt T s i p.hdr =
      st.slotStep s i
        { st.slot s i with
          serverInfo := { (st.slot s i).serverInfo with numRx := (st.slot s i).serverInfo.numRx + 1 } } []
        ((st.slot s i).txBuf.map
          (·.pkt T (respNtoi p.hdr.pktNum (st.slot s i).serverInfo.savNumReqPkts))).toList := by
  simp only [processRfrSt]
  rw [if_neg (not_not.mpr ⟨h1, h2⟩), modifySi_eq_slotStep, enqueuePktTxBurstSt_eq, sendAll_slotStep,
    slot_slotStep_self, List.nil_append]
  rfl

theorem processRfrSt_past (h1 : p.hdr.reqNum = (st.slot s i).curReqNum)
    (h2 : p.hdr.pktNum < (st.slot s i).serverInfo.numRx) :
    st.processRfrSt T s i p.hdr =
      st.sendAll ((st.slot s i).txBuf.map
        (·.pkt T (respNtoi p.hdr.pktNum (st.slot s i).serverInfo.savNumReqPkts))).toList := by
  simp only [processRfrSt]
  rw [if_pos (by omega), if_neg (by omega), enqueuePktTxBurstSt_eq]

theorem processRfrSt_drop
    (h : p.hdr.reqNum < (st.slot s i).curReqNum ∨ (st.slot s i).serverInfo.numRx < p.hdr.pktNum) :
    st.processRfrSt T s i p.hdr = st := by
  simp only [processRfrSt]
  rw [if_pos (by omega), if_pos h]

/-! ### Responses -/

/-- `enqueue_response` in a connected session: the response goes out from the sslot with the
headers `respOut` gives it, and its first packet is sent. -/
theorem enqueueResponse_eq (dyn : Bool) (hc : (st.sess s).state = .kConnected) :
    st.enqueueResponse T s i dyn =
      st.slotStep s i (respondedSlot (st.slot s i) dyn
          (respOut (st.slot s i) (if dyn then (st.slot s i).dynRespMsgbuf else (st.slot s i).preRespMsgbuf)
            (st.sess s).remoteSessionNum))
        [.respEnqueued s i (st.slot s i).curReqNum
          (respOut (st.slot s i) (if dyn then (st.slot s i).dynRespMsgbuf else (st.slot s i).preRespMsgbuf)
            (st.sess s).remoteSessionNum)]
        [(respOut (st.slot s i) (if dyn then (st.slot s i).dynRespMsgbuf else (st.slot s i).preRespMsgbuf)
            (st.sess s).remoteSessionNum).pkt T 0] := by
  simp only [enqueueResponse, buryReqMsgbufServerSt, modifySi_eq_slotStep, slot_slotStep_self,
    slotStep_slotStep, sess_slotStep_state, hc, ne_eq, not_true_eq_false, if_false]
  cases dyn <;>
  simp only [Bool.false_eq_true, ↓reduceIte, setSlot_eq_slotStep, slot_slotStep_self,
    slotStep_slotStep, emit_slotStep, enqueuePktTxBurstSt_eq, sendAll_slotStep, sess_slotStep_remote,
    SSlot.txBuf, Option.map_some, Option.toList_some, List.nil_append, List.append_nil] <;>
  rfl

/-! ### The receive path -/

theorem processPkt_of_magic (pacing : Bool) (h : p.hdr.magic ≠ kPktHdrMagic) : st.processPkt T pacing p = st := by
  simp [processPkt, h]

/-- A packet for a connected session that exists goes to the handler of its type, on the sslot
its request number selects. -/
theorem processPkt_of_connected (pacing : Bool) (hm : p.hdr.magic = kPktHdrMagic)
    (hs : p.hdr.destSessionNum < st.sessionVecSize)
    (hv : st.sessionVec p.hdr.destSessionNum = some (st.sess p.hdr.destSessionNum))
    (hc : (st.sess p.hdr.destSessionNum).state = .kConnected) :
    st.processPkt T pacing p =
      match p.hdr.pktType with
      | .kReq =>
        if p.hdr.msgSize ≤ T.kMaxDataPerPkt then
          st.processSmallReqSt T p.hdr.destSessionNum (p.hdr.reqNum % kSessionReqWindow) p
        else st.processLargeReqOneSt T p.hdr.destSessionNum (p.hdr.reqNum % kSessionReqWindow) p
      | .kResp => st.processRespOneSt T pacing p.hdr.destSessionNum (p.hdr.reqNum % kSessionReqWindow) p
      | .kRFR => st.processRfrSt T p.hdr.destSessionNum (p.hdr.reqNum % kSessionReqWindow) p.hdr
      | .kExplCR => st.processExplCrSt T pacing p.hdr.destSessionNum (p.hdr.reqNum % kSessionReqWindow) p.hdr := by
  rcases hk : p.hdr.pktType <;>
    simp only [processPkt, hm, ne_eq, not_true_eq_false, if_false, not_le.2 hs, hv, hc, hk]

theorem invalid_req_type_hides_pending_handler (hnew : (st.slot s i).curReqNum < p.hdr.reqNum)
    (htype : p.hdr.reqType = kInvalidReqType) :
    (st.processSmallReqSt T s i p).events =
        st.events ++ [.reqFunc s i ((st.processSmallReqSt T s i p).slot s i).curReqNum
          (st.smallReqMsgbuf T p)] ∧
      ((st.processSmallReqSt T s i p).slot s i).serverInfo.reqType = kInvalidReqType := by
  rw [processSmallReqSt_of_gt T hnew]
  simp [htype, slotStep]

/-- A server Rpc whose application registered a foreground handler for request type
`kInvalidReqType`, with one connected server session. -/
def reqType255Server : Rpc :=
  { Rpc.init 2 "server" 31850 0 2 (fun t => if t = kInvalidReqType then some .kForeground else none)
      5000 100000 with
    sessionVec := fun n => if n = 0 then some (Session.init .kServer 7 .kConnected) else none
    sessionVecSize := 1 }

/-- A single-packet request of type `kInvalidReqType` for sslot `0`. -/
def reqType255Pkt : Pkt :=
  ⟨{ reqType := kInvalidReqType, msgSize := 4, destSessionNum := 0, pktType := .kReq, pktNum := 0,
     reqNum := kSessionReqWindow, magic := kPktHdrMagic }, [1, 2, 3, 4]⟩

theorem invalid_req_type_hides_pending_handler_at :
    (reqType255Server.slot 0 0).curReqNum < reqType255Pkt.hdr.reqNum ∧
      reqType255Pkt.hdr.reqType = kInvalidReqType ∧
      ((reqType255Server.processSmallReqSt Transport.dpdk 0 0 reqType255Pkt).slot 0 0).serverInfo.reqType =
        kInvalidReqType :=
  ⟨by decide, rfl, (invalid_req_type_hides_pending_handler Transport.dpdk (by decide) rfl).2⟩

theorem reqNumField_wrap : reqNumField (2 ^ 37 * kSessionReqWindow) = 0 := by
  simp [reqNumField, kReqNumBits, kSessionReqWindow]

theorem wrapped_request_is_old (pacing : Bool) (x : SSlot) (hdr : PktHdr)
    (hv : (st.slot s 0).curReqNum = (2 ^ 37 - 1) * kSessionReqWindow)
    (hp : p.hdr.reqNum = reqNumField (2 ^ 37 * kSessionReqWindow))
    (hx : x.curReqNum = 2 ^ 37 * kSessionReqWindow) (hh : hdr.reqNum < 2 ^ kReqNumBits) :
    st.processSmallReqSt T s 0 p = st ∧ st.processLargeReqOneSt T s 0 p = st ∧
      inOrderClient pacing x hdr = false := by
  rw [reqNumField_wrap] at hp
  have hpos : 0 < (st.slot s 0).curReqNum := by
    rw [hv]
    simp [kSessionReqWindow]
  have hne : hdr.reqNum ≠ x.curReqNum := by
    rw [hx]
    simp only [kReqNumBits, kSessionReqWindow] at hh ⊢
    omega
  refine ⟨processSmallReqSt_of_lt T (by omega), processLargeReqOneSt_of_drop T (.inl (by omega))
    (by omega), ?_⟩
  simp [inOrderClient, hne]

/-- Sslot `0` of `reqType255Server` after request `2 ^ 37 - 1`. -/
def wrapServer : Rpc :=
  reqType255Server.setSlot 0 0
    { reqType255Server.slot 0 0 with curReqNum := (2 ^ 37 - 1) * kSessionReqWindow }

theorem wrapped_request_is_old_at :
    (wrapServer.slot 0 0).curReqNum = (2 ^ 37 - 1) * kSessionReqWindow ∧
      wrapServer.processSmallReqSt Transport.dpdk 0 0 ⟨{ reqType255Pkt.hdr with reqNum := 0 }, []⟩ =
        wrapServer :=
  ⟨by simp [wrapServer],
   (wrapped_request_is_old Transport.dpdk false { SSlot.init true 0 with curReqNum := 2 ^ 37 * kSessionReqWindow }
      { (default : PktHdr) with reqNum := 0 } (by simp [wrapServer]) reqNumField_wrap.symm rfl
      (by simp [kReqNumBits])).1⟩

end Rpc

end ERpc
