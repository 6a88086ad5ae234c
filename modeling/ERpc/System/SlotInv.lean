import ERpc.System.View

/-!
# The invariant of one sslot pair

What holds of sslot `i` of client session `s` and sslot `i` of server session `s` in every
reachable state.

The client's request number `c` is either the server's `v` or one window ahead: the client has
enqueued request `c` and the server has not yet seen a packet of it (`cur`). A client sslot is
idle or carries its request buffer, shaped by `enqueue_request` (`ReqShape`); its counters never
pass the request's packets before the first response packet, nor `wire_pkts` after it (`counts`).
Each wheel entry is a packet sent for the current request and not yet answered (`wheel_mem`), and
`in_wheel_` and `wheel_count_` describe the entries exactly.

The server's sslot is in one of four phases for `v`: nothing received (`num_rx_ = 0`, only before
the first request), receiving, waiting for `enqueue_response` (the handler invoked) and responded
(`tx_msgbuf_` set, with the response's headers as `enqueue_response` wrote them, `RespShape`).
While the client works on the server's request, the server's request buffer holds the client's
data packet by packet, and once the client has the first response packet its response buffer
holds the server's response packet by packet (`Sync`).

Every packet in flight for the pair is one the other end can only process as it should: a request
packet of request `v` or of the client's next request, an RFR for the response that exists
(`UpOk`); a credit return for a request packet other than the last one, or a packet of the
response (`DownOk`).

The events tie the two ends together: every handler call names a request the client enqueued,
with its bytes, and every continuation a response the server enqueued, with its bytes.
-/

namespace ERpc

section Shapes

variable (T : Transport)

/-- A request buffer as `enqueue_request` leaves it for request `r` of session `s`: sized, and
each packet header names the request, its size and its own packet number. -/
def ReqShape (s r : ℕ) (R : MsgBuffer) : Prop :=
  R.Sized T ∧ ∀ k < R.numPkts, (R.pkthdr k).msgSize = R.dataSize ∧
    (R.pkthdr k).destSessionNum = s ∧ (R.pkthdr k).pktType = .kReq ∧ (R.pkthdr k).pktNum = k ∧
    (R.pkthdr k).reqNum = reqNumField r

/-- A response buffer as `enqueue_response` leaves it for request `r` of session `s`, which came
in `nv` packets: its packet numbers continue those of the request. -/
def RespShape (s r nv : ℕ) (resp : MsgBuffer) : Prop :=
  resp.Sized T ∧ ∀ j < resp.numPkts, (resp.pkthdr j).msgSize = resp.dataSize ∧
    (resp.pkthdr j).destSessionNum = s ∧ (resp.pkthdr j).pktType = .kResp ∧
    (resp.pkthdr j).pktNum = nv - 1 + j ∧ (resp.pkthdr j).reqNum = r

/-- The client's response buffer `b` holds the size, header 0 and the first `m` packets of
`resp`. -/
def RespAgree (b resp : MsgBuffer) (m : ℕ) : Prop :=
  b.dataSize = resp.dataSize ∧ b.numPkts = resp.numPkts ∧ b.pkthdr 0 = resp.pkthdr 0 ∧
    Chunk.Agree b.buf resp.buf (min (m * T.kMaxDataPerPkt) resp.dataSize)

/-- A packet the client sent for this sslot pair, with client sslot `cx` and server sslot `y`. -/
def UpOk (cx : ClientSlot) (y : SSlot) (p : Pkt) : Prop :=
  (p.hdr.pktType = .kReq ∨ p.hdr.pktType = .kRFR) ∧
  (p.hdr.reqNum < y.curReqNum ∨
   (p.hdr.reqNum = y.curReqNum ∧ 0 < y.serverInfo.numRx ∧
     (p.hdr.pktType = .kReq → p.hdr.pktNum < y.serverInfo.reqMsgbuf.numPkts ∧
        dataSizeToNumPkts T p.hdr.msgSize = y.serverInfo.reqMsgbuf.numPkts ∧
        ∀ R, cx.txMsgbuf = .app R → y.curReqNum = cx.curReqNum → p = R.pkt T p.hdr.pktNum) ∧
     (p.hdr.pktType = .kRFR → ∃ resp, y.txBuf = some resp ∧
        y.serverInfo.reqMsgbuf.numPkts ≤ p.hdr.pktNum ∧
        p.hdr.pktNum + 1 < y.serverInfo.reqMsgbuf.numPkts + resp.numPkts)) ∨
   (y.curReqNum < p.hdr.reqNum ∧ p.hdr.reqNum = cx.curReqNum ∧
     ∃ R, cx.txMsgbuf = .app R ∧ p.hdr.pktNum < R.numPkts ∧ p = R.pkt T p.hdr.pktNum))

/-- A packet the server sent for this sslot pair, with server sslot `y`. -/
def DownOk (y : SSlot) (p : Pkt) : Prop :=
  (p.hdr.pktType = .kExplCR ∨ p.hdr.pktType = .kResp) ∧ p.hdr.reqNum ≤ y.curReqNum ∧
  (p.hdr.reqNum = y.curReqNum →
    (p.hdr.pktType = .kExplCR → p.hdr.pktNum + 1 < y.serverInfo.reqMsgbuf.numPkts) ∧
    (p.hdr.pktType = .kResp → ∃ resp, y.txBuf = some resp ∧ ∃ j < resp.numPkts, p = resp.pkt T j))

/-- Both ends at the client's request `R`: the server sslot `y` has its packets so far, and the
client sslot `cx` has the server's response so far. -/
structure Sync (cx : ClientSlot) (y : SSlot) (R : MsgBuffer) : Prop where
  started : 0 < y.serverInfo.numRx
  numPkts : y.serverInfo.reqMsgbuf.numPkts = R.numPkts
  recv : y.txMsgbuf = .null → y.serverInfo.numRx < R.numPkts →
    y.serverInfo.reqMsgbuf.dataSize = R.dataSize ∧
    Chunk.Agree y.serverInfo.reqMsgbuf.buf R.buf
      (min (y.serverInfo.numRx * T.kMaxDataPerPkt) R.dataSize)
  answered : R.numPkts ≤ cx.numRx → ∃ resp, y.txBuf = some resp ∧
    RespAgree T cx.respMsgbuf resp (cx.numRx + 1 - R.numPkts)

end Shapes

variable (T : Transport) (pacing : Bool) (s i : ℕ)

/-- The invariant of a sslot pair, but for the progress of an active client sslot, which the
datapath restores by kicking it at the end of each handler. -/
structure SlotCore (c : ClientView) (v : ServerView) : Prop where
  index : c.x.index = i
  tx_app : c.x.txMsgbuf = .null ∨ ∃ R, c.x.txMsgbuf = .app R
  cur_mod : c.x.curReqNum % kSessionReqWindow = i
  req : ∀ R, c.x.txMsgbuf = .app R →
    ReqShape T s c.x.curReqNum R ∧ .reqAssigned s i c.x.curReqNum R ∈ c.events
  counts : ∀ R, c.x.txMsgbuf = .app R → c.x.numRx ≤ c.x.numTx ∧
    (c.x.numRx < R.numPkts → c.x.numTx ≤ R.numPkts) ∧
    (R.numPkts ≤ c.x.numRx → c.x.numRx < wirePkts R c.x.respMsgbuf ∧
      c.x.numTx ≤ wirePkts R c.x.respMsgbuf)
  idle : c.x.txMsgbuf = .null → c.x.numTx = c.x.numRx
  stalled : c.stalled = true → c.x.txMsgbuf ≠ .null ∧ c.x.numTx = 0
  wheel_nodup : c.wheel.Nodup
  wheel_mem : ∀ p ∈ c.wheel, ∃ R, c.x.txMsgbuf = .app R ∧ c.x.numRx ≤ p ∧ p < c.x.numTx ∧
    p < R.numPkts
  wheel_count : c.x.wheelCount = c.wheel.length
  in_wheel : ∀ q, c.x.inWheel q = true ↔ ∃ p ∈ c.wheel, p % kSessionCredits = q
  wheel_pacing : pacing = false → c.wheel = []
  assigned_sorted : (assignedNums c.events).Pairwise (· < ·)
  assigned_le : ∀ r ∈ assignedNums c.events, r ≤ c.x.curReqNum
  cont_sorted : (contNums c.events).Pairwise (· < ·)
  cont_lt : ∀ r ∈ contNums c.events, r < c.x.curReqNum ∨ (r = c.x.curReqNum ∧ c.x.txMsgbuf = .null)
  v_mod : v.x.curReqNum % kSessionReqWindow = i
  v_lt : v.x.curReqNum < 2 ^ kReqNumBits
  server_tx : ∀ m, v.x.txMsgbuf ≠ .app m
  rx_le : v.x.txMsgbuf = .null → v.x.serverInfo.numRx ≤ v.x.serverInfo.reqMsgbuf.numPkts
  responded : ∀ resp, v.x.txBuf = some resp →
    RespShape T s v.x.curReqNum v.x.serverInfo.reqMsgbuf.numPkts resp ∧
    v.x.serverInfo.savNumReqPkts = v.x.serverInfo.reqMsgbuf.numPkts ∧
    v.x.serverInfo.reqMsgbuf.numPkts ≤ v.x.serverInfo.numRx ∧
    v.x.serverInfo.numRx + 1 ≤ v.x.serverInfo.reqMsgbuf.numPkts + resp.numPkts ∧
    0 < v.x.serverInfo.reqMsgbuf.numPkts ∧
    .respEnqueued s i v.x.curReqNum resp ∈ v.events
  req_sorted : (reqFuncNums v.events).Pairwise (· < ·)
  req_le : ∀ r ∈ reqFuncNums v.events, r ≤ v.x.curReqNum
  fresh : (v.x.txMsgbuf = .null ∧ v.x.serverInfo.numRx < v.x.serverInfo.reqMsgbuf.numPkts) ∨
    v.x.serverInfo.numRx = 0 → v.x.curReqNum ∉ reqFuncNums v.events
  unanswered : ∀ r ∈ reqFuncNums v.events, r ∉ respNums v.events →
    r = v.x.curReqNum ∧ v.x.txMsgbuf = .null ∧ 0 < v.x.serverInfo.numRx ∧
    v.x.serverInfo.numRx = v.x.serverInfo.reqMsgbuf.numPkts
  resp_sorted : (respNums v.events).Pairwise (· < ·)
  resp_le : ∀ r ∈ respNums v.events, r ≤ v.x.curReqNum
  cur : v.x.curReqNum = c.x.curReqNum ∨ v.x.curReqNum + kSessionReqWindow = c.x.curReqNum
  idle_cur : c.x.txMsgbuf = .null →
    v.x.curReqNum = c.x.curReqNum ∧ (v.x.txMsgbuf ≠ .null ∨ v.x.serverInfo.numRx = 0)
  behind : v.x.curReqNum + kSessionReqWindow = c.x.curReqNum →
    c.x.numRx = 0 ∧ (v.x.txMsgbuf ≠ .null ∨ v.x.serverInfo.numRx = 0)
  sync : ∀ R, c.x.txMsgbuf = .app R → v.x.curReqNum = c.x.curReqNum → Sync T c.x v.x R
  req_hist : ∀ r B, .reqFunc s i r B ∈ v.events → ∃ R, .reqAssigned s i r R ∈ c.events ∧
    B.dataSize = R.dataSize ∧ Chunk.Agree B.buf R.buf R.dataSize
  cont_hist : ∀ r tag B, .contFunc s i r tag B ∈ c.events → ∃ resp, .respEnqueued s i r resp ∈ v.events ∧
    B.dataSize = resp.dataSize ∧ Chunk.Agree B.buf resp.buf resp.dataSize
  up : ∀ p ∈ c.sent, UpOk T c.x v.x p
  down : ∀ p ∈ v.sent, DownOk T v.x p

/-- The invariant of a sslot pair: an active client sslot waits in the credit stall queue or has
a packet outstanding. -/
structure SlotInv (c : ClientView) (v : ServerView) : Prop extends SlotCore T pacing s i c v where
  progress : c.x.txMsgbuf ≠ .null → c.stalled = false → c.x.numRx < c.x.numTx

end ERpc
