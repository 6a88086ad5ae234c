import ERpc.System.SmNet
import ERpc.System.HugeAlloc

/-!
# What a server session takes from the hugepage allocator

`handle_connect_req_st` gives each sslot of a new server session a preallocated response
MsgBuffer from `alloc_msg_buffer`. If one allocation fails, it frees those it made, in order, and
answers `kOutOfMemory` (`preallocRespMsgbufs`). The Rpc model of `Model/Sm.lean` leaves the
outcome of these allocations to the oracle's `allocOk`; `handleConnectReqAllocSt` lets the
Rpc's allocator decide it. A connect request answered with an error then leaves the Rpc's
sessions, token map and ring entries as they were, and `user_alloc_tot_` too, from any state of
the allocator (`failed_connect_req_restores_server`).

Over a server session's life the allocator sees the preallocation, then on each sslot a request
buffer for a copied or large request, freed by `enqueue_response`, and the application's dynamic
response, freed when the next request on the sslot buries it, and last `bury_session_st`, which
frees the preallocated buffers only (`SrvHeap`). What the sslots hold stays balanced against
`user_alloc_tot_` along every run (`SrvInv`), so after the burial `user_alloc_tot_` stands above
its value before the connect request by the dynamic responses still held
(`server_session_keeps_dyn_resps`).
-/

namespace ERpc

namespace HugeAlloc

variable (T : Transport)

/-- The bytes `Rpc::alloc_msg_buffer (max_data_size)` asks of the allocator: the data and a
`pkthdr_t` for each packet. -/
def msgBufferAllocSize (maxDataSize : ℕ) : ℕ :=
  maxDataSize + dataSizeToNumPkts T maxDataSize * T.pkthdrSize

/-- `Rpc::alloc_msg_buffer` on the Rpc's allocator: the Buffer behind the new MsgBuffer, `none`
when its `buf_` is null. -/
def allocMsgBuffer (ha : HugeAlloc) (maxDataSize : ℕ) (raw : Option ℕ) : HugeAlloc × Option Buffer :=
  ha.alloc (msgBufferAllocSize T maxDataSize) raw

def freeMsgBuffer (ha : HugeAlloc) (b : Buffer) : HugeAlloc := ha.freeBuf b

/-- The loop of `handle_connect_req_st` from sslot `i` on, for `fuel` more sslots; `bufs` holds the
Buffers of sslots `0, …, i - 1`, the last first, and `raw i` is what a reservation during the
allocation of sslot `i` would get. A failed allocation frees the Buffers of sslots
`0, …, i - 1` in that order and ends the loop with `none`. -/
def preallocRespMsgbufs (preRespMsgbufSize : ℕ) (raw : ℕ → Option ℕ) :
    ℕ → HugeAlloc → List Buffer → ℕ → HugeAlloc × Option (List Buffer)
  | 0, ha, bufs, _ => (ha, some bufs)
  | fuel + 1, ha, bufs, i =>
    match ha.allocMsgBuffer T preRespMsgbufSize (raw i) with
    | (ha, none) => (bufs.reverse.foldl freeMsgBuffer ha, none)
    | (ha, some b) => preallocRespMsgbufs preRespMsgbufSize raw fuel ha (b :: bufs) (i + 1)

@[simp] theorem freeMsgBuffer_userAllocTot (ha : HugeAlloc) (b : Buffer) :
    (ha.freeMsgBuffer b).userAllocTot = ha.userAllocTot - b.classSize := rfl

theorem foldl_freeMsgBuffer_userAllocTot (bufs : List Buffer) (ha : HugeAlloc) :
    (bufs.foldl freeMsgBuffer ha).userAllocTot = ha.userAllocTot - (bufs.map Buffer.classSize).sum := by
  induction bufs generalizing ha with
  | nil => rfl
  | cons b bufs ih =>
    rw [List.foldl_cons, ih, List.map_cons, List.sum_cons, ← Nat.sub_sub]
    rfl

/-- One sslot of the loop: the allocation fails, taking nothing, and the loop frees what it
holds; or it gives a Buffer, and the loop goes on holding it. -/
theorem preallocRespMsgbufs_succ (preRespMsgbufSize : ℕ) (raw : ℕ → Option ℕ) (fuel : ℕ)
    (ha : HugeAlloc) (bufs : List Buffer) (i : ℕ) :
    (∃ ha' : HugeAlloc, ha'.userAllocTot = ha.userAllocTot ∧
      preallocRespMsgbufs T preRespMsgbufSize raw (fuel + 1) ha bufs i =
        (bufs.reverse.foldl freeMsgBuffer ha', none)) ∨
    (∃ (ha' : HugeAlloc) (b : Buffer), ha'.userAllocTot = ha.userAllocTot + b.classSize ∧
      preallocRespMsgbufs T preRespMsgbufSize raw (fuel + 1) ha bufs i =
        preallocRespMsgbufs T preRespMsgbufSize raw fuel ha' (b :: bufs) (i + 1)) := by
  have hal := ha.alloc_userAllocTot (msgBufferAllocSize T preRespMsgbufSize) (raw i)
  simp only [preallocRespMsgbufs, allocMsgBuffer]
  generalize ha.alloc (msgBufferAllocSize T preRespMsgbufSize) (raw i) = r at hal ⊢
  rcases r with ⟨ha', _ | b⟩
  · exact Or.inl ⟨ha', by simpa using hal, rfl⟩
  · exact Or.inr ⟨ha', b, by simpa using hal, rfl⟩

/-- A loop that fails gives back exactly what it took: with `user_alloc_tot_` at `t0` plus the
sizes of the Buffers it holds, it ends at `t0`. -/
theorem preallocRespMsgbufs_userAllocTot_of_none {preRespMsgbufSize : ℕ} {raw : ℕ → Option ℕ}
    {t0 : ℕ} : ∀ {fuel : ℕ} {ha : HugeAlloc} {bufs : List Buffer} {i : ℕ},
    ha.userAllocTot = t0 + (bufs.map Buffer.classSize).sum →
    (preallocRespMsgbufs T preRespMsgbufSize raw fuel ha bufs i).2 = none →
    (preallocRespMsgbufs T preRespMsgbufSize raw fuel ha bufs i).1.userAllocTot = t0
  | 0, _, _, _, _, hn => absurd hn (by simp [preallocRespMsgbufs])
  | fuel + 1, ha, bufs, i, htot, hn => by
    rcases preallocRespMsgbufs_succ T preRespMsgbufSize raw fuel ha bufs i with
      ⟨ha', hta, heq⟩ | ⟨ha', b, hta, heq⟩ <;> rw [heq] at hn ⊢
    · rw [foldl_freeMsgBuffer_userAllocTot, List.map_reverse, List.sum_reverse, hta, htot]
      omega
    · refine preallocRespMsgbufs_userAllocTot_of_none ?_ hn
      rw [hta, htot, List.map_cons, List.sum_cons]
      omega

/-- A loop that succeeds holds one Buffer for each sslot, and `user_alloc_tot_` has grown by
their sizes. -/
theorem preallocRespMsgbufs_of_some {preRespMsgbufSize : ℕ} {raw : ℕ → Option ℕ} {t0 : ℕ} :
    ∀ {fuel : ℕ} {ha : HugeAlloc} {bufs bufs' : List Buffer} {i : ℕ},
    ha.userAllocTot = t0 + (bufs.map Buffer.classSize).sum →
    (preallocRespMsgbufs T preRespMsgbufSize raw fuel ha bufs i).2 = some bufs' →
    (preallocRespMsgbufs T preRespMsgbufSize raw fuel ha bufs i).1.userAllocTot =
      t0 + (bufs'.map Buffer.classSize).sum ∧ bufs'.length = bufs.length + fuel
  | 0, _, _, _, _, htot, hs => by
    simp only [preallocRespMsgbufs, Option.some.injEq] at hs ⊢
    subst hs
    exact ⟨htot, rfl⟩
  | fuel + 1, ha, bufs, _, i, htot, hs => by
    rcases preallocRespMsgbufs_succ T preRespMsgbufSize raw fuel ha bufs i with
      ⟨ha', hta, heq⟩ | ⟨ha', b, hta, heq⟩ <;> rw [heq] at hs ⊢
    · simp at hs
    · have htot' : ha'.userAllocTot = t0 + ((b :: bufs).map Buffer.classSize).sum := by
        rw [hta, htot, List.map_cons, List.sum_cons]
        omega
      obtain ⟨h1, h2⟩ := preallocRespMsgbufs_of_some htot' hs
      refine ⟨h1, ?_⟩
      rw [h2, List.length_cons]
      omega

end HugeAlloc

namespace Rpc

variable (T : Transport)

/-- `Rpc::handle_connect_req_st` with the Rpc's hugepage allocator `ha`, and
`pre_resp_msgbuf_size_`: the preallocation runs once a new request has passed the transport, ring
and routing checks, and its outcome is what `handleConnectReqSt` takes as `allocOk`. -/
def handleConnectReqAllocSt (st : Rpc) (ha : HugeAlloc) (p : SmPkt) (resolveOk : Bool)
    (preRespMsgbufSize : ℕ) (raw : ℕ → Option ℕ) : Rpc × HugeAlloc :=
  if st.connReqTokenMap p.uniqToken = none ∧ p.server.transportType = st.transportType ∧
      st.haveRingEntries = true ∧ resolveOk = true then
    let r := HugeAlloc.preallocRespMsgbufs T preRespMsgbufSize raw kSessionReqWindow ha [] 0
    (st.handleConnectReqSt T p ⟨resolveOk, r.2.isSome⟩, r.1)
  else (st.handleConnectReqSt T p ⟨resolveOk, true⟩, ha)

/-- When `handle_connect_req_st` answers with an error, it sent that answer and changed nothing
else. -/
theorem handleConnectReqSt_of_error {st : Rpc} {p q : SmPkt} (o : SmOracle)
    (hq : (st.handleConnectReqSt T p o).smTx = st.smTx ++ [q]) (herr : q.errType ≠ .kNoError) :
    st.handleConnectReqSt T p o = st.smPktUdpTxSt q := by
  unfold handleConnectReqSt at hq ⊢
  rcases hn : st.connReqTokenMap p.uniqToken with _ | n <;> simp only [hn] at hq ⊢
  · split_ifs at hq ⊢
    · simp_all
    · simp_all
    · simp_all
    · simp_all
    · simp only [smPktUdpTxSt, pushSession, allocRingEntries, List.append_cancel_left_eq,
        List.cons.injEq, and_true] at hq
      subst hq
      simp [smConstructResp] at herr
  · by_cases hle : st.sessionVecSize ≤ n
    · simp [hle] at hq
    rw [if_neg hle] at hq ⊢
    rcases hx : st.sessionVec n with _ | x <;> simp only [hx] at hq ⊢
    · simp at hq
    · split_ifs at hq ⊢
      · simp only [smPktUdpTxSt, List.append_cancel_left_eq, List.cons.injEq, and_true] at hq
        subst hq
        simp [smConstructResp] at herr
      · simp at hq

/-- Past the transport, ring and routing checks, the only error answer is the one for a failed
allocation. -/
theorem allocOk_eq_false_of_error {st : Rpc} {p q : SmPkt} {resolveOk allocOk : Bool}
    (hg : st.connReqTokenMap p.uniqToken = none ∧ p.server.transportType = st.transportType ∧
      st.haveRingEntries = true ∧ resolveOk = true)
    (hq : (st.handleConnectReqSt T p ⟨resolveOk, allocOk⟩).smTx = st.smTx ++ [q])
    (herr : q.errType ≠ .kNoError) : allocOk = false := by
  obtain ⟨h1, h2, h3, rfl⟩ := hg
  cases allocOk with
  | false => rfl
  | true =>
    simp only [handleConnectReqSt, h1, h2, h3, ne_eq, not_true_eq_false, if_false,
      Bool.not_true, Bool.false_eq_true, smPktUdpTxSt, pushSession, allocRingEntries,
      List.append_cancel_left_eq, List.cons.injEq, and_true] at hq
    subst hq
    simp [smConstructResp] at herr

/-- A connect request that `handle_connect_req_st` answers with an error (`kInvalidTransport`,
`kRingExhausted`, `kRoutingResolutionFailure`, or `kOutOfMemory` after some allocations) leaves
the sessions, the token map and the ring entries of the server as they were, and its allocator's
`user_alloc_tot_` too, from any state of the allocator. -/
theorem failed_connect_req_restores_server (st : Rpc) (ha : HugeAlloc) (p : SmPkt)
    (resolveOk : Bool) (preRespMsgbufSize : ℕ) (raw : ℕ → Option ℕ) {q : SmPkt}
    (hq : (st.handleConnectReqAllocSt T ha p resolveOk preRespMsgbufSize raw).1.smTx =
      st.smTx ++ [q])
    (herr : q.errType ≠ .kNoError) :
    (st.handleConnectReqAllocSt T ha p resolveOk preRespMsgbufSize raw).1.sessionVec =
        st.sessionVec ∧
      (st.handleConnectReqAllocSt T ha p resolveOk preRespMsgbufSize raw).1.sessionVecSize =
        st.sessionVecSize ∧
      (st.handleConnectReqAllocSt T ha p resolveOk preRespMsgbufSize raw).1.connReqTokenMap =
        st.connReqTokenMap ∧
      (st.handleConnectReqAllocSt T ha p resolveOk preRespMsgbufSize raw).1.ringEntriesAvailable =
        st.ringEntriesAvailable ∧
      (st.handleConnectReqAllocSt T ha p resolveOk preRespMsgbufSize raw).2.userAllocTot =
        ha.userAllocTot := by
  unfold handleConnectReqAllocSt at hq ⊢
  split_ifs at hq ⊢ with hg
  · dsimp only at hq ⊢
    have he := handleConnectReqSt_of_error T _ hq herr
    have hnone : (HugeAlloc.preallocRespMsgbufs T preRespMsgbufSize raw kSessionReqWindow ha [] 0).2
        = none := by
      simpa using allocOk_eq_false_of_error T hg hq herr
    rw [he]
    exact ⟨rfl, rfl, rfl, rfl,
      HugeAlloc.preallocRespMsgbufs_userAllocTot_of_none T (by simp) hnone⟩
  · rw [handleConnectReqSt_of_error T _ hq herr]
    exact ⟨rfl, rfl, rfl, rfl, rfl⟩

end Rpc

/-- The connect request of `smClient`'s session 0 to `smServer`. -/
def oomConnectReq : SmPkt :=
  { pktType := .kConnectReq, errType := .kNoError, uniqToken := 7
    client := ⟨0, "client", 31850, 1, 0, 1⟩
    server := ⟨0, "server", 31850, 2, kInvalidSessionNum, 0⟩ }

/-- The first reservation gets 16 MB, room for two of the 8 MB Buffers that 4 MB response
MsgBuffers take; the reservation for the third fails. -/
def oomRaw (i : ℕ) : Option ℕ := if i = 0 then some 0x40000000 else none

theorem failed_connect_req_restores_server_oom :
    (smServer.handleConnectReqAllocSt Transport.dpdk (HugeAlloc.init 0) oomConnectReq true
        (4 * 1024 * 1024) oomRaw).1.smTx = [smConstructResp oomConnectReq .kOutOfMemory] ∧
      (smServer.handleConnectReqAllocSt Transport.dpdk (HugeAlloc.init 0) oomConnectReq true
        (4 * 1024 * 1024) oomRaw).2.userAllocTot = 0 :=
  ⟨by decide, (Rpc.failed_connect_req_restores_server Transport.dpdk smServer (HugeAlloc.init 0)
    oomConnectReq true (4 * 1024 * 1024) oomRaw (q := smConstructResp oomConnectReq .kOutOfMemory)
    (by decide) (by decide)).2.2.2.2⟩

/-- What a server sslot holds from the allocator: the Buffers of `pre_resp_msgbuf_` and
`dyn_resp_msgbuf_`, the one of the two `tx_msgbuf_` points at, the Buffer of `req_msgbuf_` when it
is dynamic, and whether an `enqueue_response` is pending (`req_type_` set). -/
structure SlotBufs where
  preResp : Buffer
  dynResp : Buffer
  txMsgbuf : TxMsgbuf
  reqMsgbuf : Option Buffer
  pending : Bool

namespace SlotBufs

/-- The dynamic response's bytes while `tx_msgbuf_` points at it. -/
def dynHeld (x : SlotBufs) : ℕ :=
  match x.txMsgbuf with
  | .dynResp => x.dynResp.classSize
  | _ => 0

/-- The bytes the sslot holds. -/
def held (x : SlotBufs) : ℕ :=
  x.preResp.classSize + x.dynHeld + (x.reqMsgbuf.map Buffer.classSize).getD 0

end SlotBufs

/-- The Rpc's allocator and the sslots of one of its server sessions. -/
structure SrvHeap where
  ha : HugeAlloc
  sslotArr : ℕ → SlotBufs

/-- The server-side events that reach the allocator, on sslot `i`. -/
inductive SrvAct
  | smallReq (i msgSize : ℕ) (ftype : ReqFuncType) (raw : Option ℕ)
  | largeReq (i msgSize : ℕ) (raw : Option ℕ)
  | respond (i : ℕ) (dyn : Option (ℕ × Option ℕ))

namespace SrvHeap

variable (T : Transport)

/-- `Rpc::bury_resp_msgbuf_server_st`: only the dynamic response goes back to the allocator. -/
def buryRespMsgbufServerSt (w : SrvHeap) (i : ℕ) : SrvHeap :=
  let x := w.sslotArr i
  let ha :=
    match x.txMsgbuf with
    | .dynResp => w.ha.freeMsgBuffer x.dynResp
    | _ => w.ha
  ⟨ha, Function.update w.sslotArr i { x with txMsgbuf := .null }⟩

/-- `Rpc::bury_req_msgbuf_server_st`: a dynamic request buffer goes back to the allocator. -/
def buryReqMsgbufServerSt (w : SrvHeap) (i : ℕ) : SrvHeap :=
  let x := w.sslotArr i
  let ha :=
    match x.reqMsgbuf with
    | some b => w.ha.freeMsgBuffer b
    | none => w.ha
  ⟨ha, Function.update w.sslotArr i { x with reqMsgbuf := none }⟩

/-- A new request on sslot `i`: the previous response is buried, and a request buffer of
`msgSize` bytes is taken when the request is copied (`copy`); `alloc_msg_buffer` may give the
null buffer. -/
def newRequest (w : SrvHeap) (i msgSize : ℕ) (copy : Bool) (raw : Option ℕ) : SrvHeap :=
  let w := w.buryRespMsgbufServerSt i
  let x := w.sslotArr i
  if copy then
    let r := w.ha.allocMsgBuffer T msgSize raw
    ⟨r.1, Function.update w.sslotArr i { x with reqMsgbuf := r.2, pending := true }⟩
  else ⟨w.ha, Function.update w.sslotArr i { x with pending := true }⟩

/-- `Rpc::enqueue_response` on a connected session, with `pre_resp_msgbuf_` or with the dynamic
response `b`, whose ownership passes to eRPC. -/
def enqueueResponse (w : SrvHeap) (i : ℕ) (dyn : Option Buffer) : SrvHeap :=
  let w := w.buryReqMsgbufServerSt i
  let x := w.sslotArr i
  let x :=
    match dyn with
    | some b => { x with dynResp := b, txMsgbuf := .dynResp, pending := false }
    | none => { x with txMsgbuf := .preResp, pending := false }
  ⟨w.ha, Function.update w.sslotArr i x⟩

/-- One event. A new request comes only after the previous one's response was enqueued, and a
response only for a pending request; the application dies if its dynamic response cannot be
allocated. -/
def step (w : SrvHeap) : SrvAct → Option SrvHeap
  | .smallReq i msgSize ftype raw =>
    if i < kSessionReqWindow ∧ (w.sslotArr i).pending = false then
      some (w.newRequest T i msgSize (!(ftype == .kForeground && kZeroCopyRX)) raw)
    else none
  | .largeReq i msgSize raw =>
    if i < kSessionReqWindow ∧ (w.sslotArr i).pending = false then
      some (w.newRequest T i msgSize true raw)
    else none
  | .respond i none =>
    if i < kSessionReqWindow ∧ (w.sslotArr i).pending = true then some (w.enqueueResponse i none)
    else none
  | .respond i (some (size, raw)) =>
    if i < kSessionReqWindow ∧ (w.sslotArr i).pending = true then
      match w.ha.allocMsgBuffer T size raw with
      | (ha, some b) => some (SrvHeap.enqueueResponse ⟨ha, w.sslotArr⟩ i (some b))
      | (_, none) => none
    else none

/-- The sslots of the session `handle_connect_req_st` creates: sslot `i` gets the `i`-th
preallocated response Buffer. -/
def connect (ha : HugeAlloc) (preRespMsgbufSize : ℕ) (raw : ℕ → Option ℕ) : Option SrvHeap :=
  match HugeAlloc.preallocRespMsgbufs T preRespMsgbufSize raw kSessionReqWindow ha [] 0 with
  | (ha, some bufs) => some ⟨ha, fun i => ⟨bufs.reverse.getD i ⟨0, 0⟩, ⟨0, 0⟩, .null, none, false⟩⟩
  | (_, none) => none

/-- `Rpc::bury_session_st` on a server session: the `pre_resp_msgbuf_` of each sslot goes back. -/
def burySessionSt (w : SrvHeap) : HugeAlloc :=
  ((List.range kSessionReqWindow).map fun i => (w.sslotArr i).preResp).foldl
    HugeAlloc.freeMsgBuffer w.ha

/-- The allocator's `user_alloc_tot_` is `t0` plus what the sslots hold. -/
def Balanced (t0 : ℕ) (w : SrvHeap) : Prop :=
  w.ha.userAllocTot = t0 + ∑ i ∈ Finset.range kSessionReqWindow, (w.sslotArr i).held

section Balance

variable {T} {t0 t1 : ℕ} {w : SrvHeap} {i : ℕ}

theorem Balanced.held_le (h : Balanced t0 w) (hi : i < kSessionReqWindow) :
    (w.sslotArr i).held ≤ w.ha.userAllocTot := by
  have := Finset.single_le_sum (f := fun j => (w.sslotArr j).held) (fun j _ => Nat.zero_le _)
    (Finset.mem_range.2 hi)
  unfold Balanced at h
  omega

/-- Changing sslot `i` and the allocator by the same amount keeps the balance; the base moves by
what the two changes differ. -/
theorem Balanced.update (h : Balanced t0 w) (hi : i < kSessionReqWindow) {ha' : HugeAlloc}
    {x : SlotBufs}
    (hbal : ha'.userAllocTot + (w.sslotArr i).held + t0 = w.ha.userAllocTot + x.held + t1) :
    Balanced t1 ⟨ha', Function.update w.sslotArr i x⟩ := by
  have hs := sum_comp_update_add SlotBufs.held (Finset.mem_range.2 hi) w.sslotArr x
  unfold Balanced at h ⊢
  dsimp only
  omega

theorem Balanced.buryResp (h : Balanced t0 w) (hi : i < kSessionReqWindow) :
    Balanced t0 (w.buryRespMsgbufServerSt i) := by
  have hle := h.held_le hi
  refine h.update hi ?_
  cases hx : (w.sslotArr i).txMsgbuf with
  | dynResp =>
    simp only [SlotBufs.held, SlotBufs.dynHeld, hx, HugeAlloc.freeMsgBuffer_userAllocTot] at hle ⊢
    omega
  | _ => simp only [SlotBufs.held, SlotBufs.dynHeld, hx]

theorem Balanced.buryReq (h : Balanced t0 w) (hi : i < kSessionReqWindow) :
    Balanced t0 (w.buryReqMsgbufServerSt i) := by
  have hle := h.held_le hi
  refine h.update hi ?_
  cases hx : (w.sslotArr i).reqMsgbuf with
  | none => simp only [SlotBufs.held, SlotBufs.dynHeld, hx]
  | some b =>
    simp only [SlotBufs.held, SlotBufs.dynHeld, hx, HugeAlloc.freeMsgBuffer_userAllocTot,
      Option.map_some, Option.map_none, Option.getD_some, Option.getD_none] at hle ⊢
    omega

/-- A new request on an sslot without a request buffer: what the allocator gives, the sslot
holds. -/
theorem Balanced.newRequest (h : Balanced t0 w) (hi : i < kSessionReqWindow)
    (hreq : (w.sslotArr i).reqMsgbuf = none) (msgSize : ℕ) (copy : Bool) (raw : Option ℕ) :
    Balanced t0 (w.newRequest T i msgSize copy raw) := by
  have h1 := h.buryResp hi
  have hreq1 : ((w.buryRespMsgbufServerSt i).sslotArr i).reqMsgbuf = none := by
    simp [buryRespMsgbufServerSt, hreq]
  unfold SrvHeap.newRequest
  split
  · refine h1.update hi ?_
    rw [HugeAlloc.allocMsgBuffer, HugeAlloc.alloc_userAllocTot]
    simp only [SlotBufs.held, SlotBufs.dynHeld, hreq1, Option.map_none, Option.getD_none]
    omega
  · exact h1.update hi rfl

/-- The response of sslot `i`, with the dynamic one's bytes taken beforehand and counted in the
base until the sslot holds them. -/
theorem Balanced.enqueueResponse {dyn : Option Buffer}
    (h : Balanced (t0 + (dyn.map Buffer.classSize).getD 0) w) (hi : i < kSessionReqWindow)
    (htx : (w.sslotArr i).txMsgbuf = .null) :
    Balanced t0 (w.enqueueResponse i dyn) := by
  have h1 := h.buryReq hi
  have htx1 : ((w.buryReqMsgbufServerSt i).sslotArr i).txMsgbuf = .null := by
    simp [buryReqMsgbufServerSt, htx]
  have hreq1 : ((w.buryReqMsgbufServerSt i).sslotArr i).reqMsgbuf = none := by
    simp [buryReqMsgbufServerSt]
  refine h1.update hi ?_
  cases dyn <;>
    simp only [SlotBufs.held, SlotBufs.dynHeld, htx1, hreq1, Option.map_none, Option.getD_none,
      Option.map_some, Option.getD_some] <;>
    omega

end Balance

section Slots

variable {T} {w : SrvHeap} {i j : ℕ}

theorem buryRespMsgbufServerSt_slot_ne (hj : j ≠ i) :
    (w.buryRespMsgbufServerSt i).sslotArr j = w.sslotArr j := by
  simp [buryRespMsgbufServerSt, Function.update_of_ne hj]

theorem newRequest_slot_ne (hj : j ≠ i) (msgSize : ℕ) (copy : Bool) (raw : Option ℕ) :
    (w.newRequest T i msgSize copy raw).sslotArr j = w.sslotArr j := by
  unfold newRequest
  split <;> simp [Function.update_of_ne hj, buryRespMsgbufServerSt_slot_ne hj]

theorem newRequest_slot (msgSize : ℕ) (copy : Bool) (raw : Option ℕ) :
    ((w.newRequest T i msgSize copy raw).sslotArr i).pending = true ∧
      ((w.newRequest T i msgSize copy raw).sslotArr i).txMsgbuf = .null := by
  unfold newRequest
  split <;> simp [buryRespMsgbufServerSt]

theorem enqueueResponse_slot_ne (hj : j ≠ i) (dyn : Option Buffer) :
    (w.enqueueResponse i dyn).sslotArr j = w.sslotArr j := by
  simp [enqueueResponse, buryReqMsgbufServerSt, Function.update_of_ne hj]

theorem enqueueResponse_slot (dyn : Option Buffer) :
    ((w.enqueueResponse i dyn).sslotArr i).pending = false ∧
      ((w.enqueueResponse i dyn).sslotArr i).reqMsgbuf = none := by
  cases dyn <;> simp [enqueueResponse, buryReqMsgbufServerSt]

/-- What an event can do: start a request on an idle sslot, or answer a pending one, with a
dynamic response taken from the allocator first. -/
theorem step_cases {a : SrvAct} {w' : SrvHeap} (hs : w.step T a = some w') :
    (∃ i msgSize copy raw, i < kSessionReqWindow ∧ (w.sslotArr i).pending = false ∧
      w' = w.newRequest T i msgSize copy raw) ∨
    (∃ i, i < kSessionReqWindow ∧ (w.sslotArr i).pending = true ∧
      w' = w.enqueueResponse i none) ∨
    (∃ i ha' b, i < kSessionReqWindow ∧ (w.sslotArr i).pending = true ∧
      ha'.userAllocTot = w.ha.userAllocTot + b.classSize ∧
      w' = SrvHeap.enqueueResponse ⟨ha', w.sslotArr⟩ i (some b)) := by
  cases a with
  | smallReq i msgSize ftype raw =>
    simp only [SrvHeap.step] at hs
    split_ifs at hs with hg
    exact Or.inl ⟨i, msgSize, _, raw, hg.1, hg.2, (Option.some.inj hs).symm⟩
  | largeReq i msgSize raw =>
    simp only [SrvHeap.step] at hs
    split_ifs at hs with hg
    exact Or.inl ⟨i, msgSize, true, raw, hg.1, hg.2, (Option.some.inj hs).symm⟩
  | respond i dyn =>
    rcases dyn with _ | ⟨size, raw⟩ <;> simp only [SrvHeap.step] at hs <;> split_ifs at hs with hg
    · exact Or.inr (Or.inl ⟨i, hg.1, hg.2, (Option.some.inj hs).symm⟩)
    · have hal := w.ha.alloc_userAllocTot (HugeAlloc.msgBufferAllocSize T size) raw
      unfold HugeAlloc.allocMsgBuffer at hs
      generalize w.ha.alloc (HugeAlloc.msgBufferAllocSize T size) raw = r at hal hs
      rcases r with ⟨ha', _ | b⟩ <;> simp only [Option.some.injEq, reduceCtorEq] at hs
      exact Or.inr (Or.inr ⟨i, ha', b, hg.1, hg.2, by simpa using hal, hs.symm⟩)

end Slots

/-- What holds of a server session's sslots along a run from its creation, with `t0` the
allocator's total before the connect request: the balance, no response held while a request is
pending, and no request buffer while none is. -/
structure SrvInv (t0 : ℕ) (w : SrvHeap) : Prop where
  balanced : Balanced t0 w
  pending_tx : ∀ i, (w.sslotArr i).pending = true → (w.sslotArr i).txMsgbuf = .null
  idle_req : ∀ i, (w.sslotArr i).pending = false → (w.sslotArr i).reqMsgbuf = none

section Inv

variable {T} {t0 : ℕ} {w : SrvHeap} {i : ℕ}

theorem SrvInv.newRequest (h : SrvInv t0 w) (hi : i < kSessionReqWindow)
    (hp : (w.sslotArr i).pending = false) (msgSize : ℕ) (copy : Bool) (raw : Option ℕ) :
    SrvInv t0 (w.newRequest T i msgSize copy raw) := by
  have hslot := newRequest_slot (T := T) (w := w) (i := i) msgSize copy raw
  refine ⟨h.balanced.newRequest hi (h.idle_req i hp) msgSize copy raw, fun j hj => ?_,
    fun j hj => ?_⟩ <;> by_cases hji : j = i
  · subst hji
    exact hslot.2
  · rw [newRequest_slot_ne hji] at hj ⊢
    exact h.pending_tx j hj
  · subst hji
    simp [hslot.1] at hj
  · rw [newRequest_slot_ne hji] at hj ⊢
    exact h.idle_req j hj

theorem SrvInv.enqueueResponse (dyn : Option Buffer)
    (h : SrvInv (t0 + (dyn.map Buffer.classSize).getD 0) w)
    (hi : i < kSessionReqWindow) (hp : (w.sslotArr i).pending = true) :
    SrvInv t0 (w.enqueueResponse i dyn) := by
  have hslot := enqueueResponse_slot (w := w) (i := i) dyn
  refine ⟨h.balanced.enqueueResponse hi (h.pending_tx i hp), fun j hj => ?_, fun j hj => ?_⟩ <;>
    by_cases hji : j = i
  · subst hji
    simp [hslot.1] at hj
  · rw [enqueueResponse_slot_ne hji] at hj ⊢
    exact h.pending_tx j hj
  · subst hji
    exact hslot.2
  · rw [enqueueResponse_slot_ne hji] at hj ⊢
    exact h.idle_req j hj

theorem SrvInv.step (h : SrvInv t0 w) {a : SrvAct} {w' : SrvHeap} (hs : w.step T a = some w') :
    SrvInv t0 w' := by
  rcases step_cases hs with ⟨i, msgSize, copy, raw, hi, hp, rfl⟩ | ⟨i, hi, hp, rfl⟩ |
    ⟨i, ha', b, hi, hp, hta, rfl⟩
  · exact h.newRequest hi hp msgSize copy raw
  · exact SrvInv.enqueueResponse none (by simpa using h) hi hp
  · refine SrvInv.enqueueResponse (w := ⟨ha', w.sslotArr⟩) (some b) { h with balanced := ?_ } hi hp
    have hb := h.balanced
    unfold Balanced at hb ⊢
    simp only [Option.map_some, Option.getD_some]
    omega

theorem sum_range_getD_classSize (l : List Buffer) (d : Buffer) :
    ∑ i ∈ Finset.range l.length, (l.getD i d).classSize = (l.map Buffer.classSize).sum := by
  induction l with
  | nil => simp
  | cons a t ih =>
    simp only [List.length_cons, Finset.sum_range_succ', List.getD_cons_zero,
      List.getD_cons_succ, ih, List.map_cons, List.sum_cons]
    omega

theorem SrvInv.connect {ha : HugeAlloc} {preRespMsgbufSize : ℕ} {raw : ℕ → Option ℕ}
    (hc : connect T ha preRespMsgbufSize raw = some w) : SrvInv ha.userAllocTot w := by
  unfold SrvHeap.connect at hc
  rcases hr : HugeAlloc.preallocRespMsgbufs T preRespMsgbufSize raw kSessionReqWindow ha [] 0 with
    ⟨ha', _ | bufs⟩ <;> rw [hr] at hc
  · simp at hc
  · simp only [Option.some.injEq] at hc
    subst hc
    obtain ⟨htot, hlen⟩ := @HugeAlloc.preallocRespMsgbufs_of_some T preRespMsgbufSize raw
      ha.userAllocTot kSessionReqWindow ha [] bufs 0 (by simp) (by rw [hr])
    rw [hr] at htot
    refine ⟨?_, fun i hp => by simp at hp, fun i _ => rfl⟩
    have hn : kSessionReqWindow = bufs.reverse.length := by simpa using hlen.symm
    unfold Balanced
    simp only [SlotBufs.held, SlotBufs.dynHeld, Option.map_none, Option.getD_none, add_zero]
    rw [htot, hn, sum_range_getD_classSize, List.map_reverse, List.sum_reverse]

end Inv

theorem burySessionSt_userAllocTot (w : SrvHeap) :
    w.burySessionSt.userAllocTot = w.ha.userAllocTot -
      ∑ i ∈ Finset.range kSessionReqWindow, (w.sslotArr i).preResp.classSize := by
  rw [burySessionSt, HugeAlloc.foldl_freeMsgBuffer_userAllocTot, List.map_map,
    Finset.sum_eq_multiset_sum, Finset.range_val, Multiset.range, Multiset.map_coe,
    Multiset.sum_coe]
  rfl

end SrvHeap

open Transition

/-- A server session's life as the allocator sees it: `handle_connect_req_st` preallocates the
response buffers, requests come and are each answered, and `bury_session_st` frees the
preallocated buffers. Afterwards `user_alloc_tot_` stands above its value before the connect
request by the dynamic response of each sslot whose last answer was one: nothing frees those. -/
theorem server_session_keeps_dyn_resps (T : Transport) (ha : HugeAlloc) (preRespMsgbufSize : ℕ)
    (raw : ℕ → Option ℕ) {w₀ w : SrvHeap}
    (hc : SrvHeap.connect T ha preRespMsgbufSize raw = some w₀)
    (hr : Reachable (SrvHeap.step T) w₀ w)
    (hdone : ∀ i < kSessionReqWindow, (w.sslotArr i).pending = false) :
    w.burySessionSt.userAllocTot =
      ha.userAllocTot + ∑ i ∈ Finset.range kSessionReqWindow, (w.sslotArr i).dynHeld := by
  have hi : SrvHeap.SrvInv ha.userAllocTot w :=
    Reachable.induct _ (SrvHeap.SrvInv.connect hc) (fun _ _ _ _ hs hst => hs.step hst) hr
  have hheld : ∀ i ∈ Finset.range kSessionReqWindow,
      (w.sslotArr i).held = (w.sslotArr i).preResp.classSize + (w.sslotArr i).dynHeld := by
    intro i hin
    simp [SlotBufs.held, hi.idle_req i (hdone i (Finset.mem_range.1 hin))]
  have hb := hi.balanced
  unfold SrvHeap.Balanced at hb
  rw [Finset.sum_congr rfl hheld, Finset.sum_add_distrib] at hb
  rw [SrvHeap.burySessionSt_userAllocTot, hb]
  omega

/-- One request on sslot 0, for a foreground handler, answered with a 64-byte dynamic
response. -/
def dynRespTrace : List SrvAct :=
  [.smallReq 0 16 .kForeground none, .respond 0 (some (64, none))]

/-- The session `handle_connect_req_st` creates from an empty allocator, with the default
`pre_resp_msgbuf_size_`. -/
def dynRespStart : SrvHeap :=
  (SrvHeap.connect Transport.dpdk (HugeAlloc.init 0) Transport.dpdk.kMaxDataPerPkt oomRaw).getD
    ⟨HugeAlloc.init 0, fun _ => ⟨⟨0, 0⟩, ⟨0, 0⟩, .null, none, false⟩⟩

theorem server_session_keeps_dyn_resps_at :
    ∃ w, SrvHeap.connect Transport.dpdk (HugeAlloc.init 0) Transport.dpdk.kMaxDataPerPkt
        oomRaw = some dynRespStart ∧ Reachable (SrvHeap.step Transport.dpdk) dynRespStart w ∧
      w.burySessionSt.userAllocTot = (HugeAlloc.init 0).userAllocTot + 128 := by
  have hc : SrvHeap.connect Transport.dpdk (HugeAlloc.init 0) Transport.dpdk.kMaxDataPerPkt
      oomRaw = some dynRespStart := by
    have hs : (SrvHeap.connect Transport.dpdk (HugeAlloc.init 0) Transport.dpdk.kMaxDataPerPkt
        oomRaw).isSome := by decide +kernel
    obtain ⟨v, hv⟩ := Option.isSome_iff_exists.1 hs
    simp [dynRespStart, hv]
  have hrun : ∃ w, Reachable (SrvHeap.step Transport.dpdk) dynRespStart w ∧
      (∀ i < kSessionReqWindow, (w.sslotArr i).pending = false) ∧
      ∑ i ∈ Finset.range kSessionReqWindow, (w.sslotArr i).dynHeld = 128 :=
    Reachable.exists_of_run dynRespTrace (by decide +kernel)
  obtain ⟨w, hr, hdone, hdyn⟩ := hrun
  refine ⟨w, hc, hr, ?_⟩
  rw [server_session_keeps_dyn_resps Transport.dpdk _ _ _ hc hr hdone, hdyn]

end ERpc
