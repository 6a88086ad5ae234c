import ERpc.System.SlotInv

/-!
# What each server handler does to the invariant of its sslot pair

The server handlers change one sslot, the one a packet's request number selects, and answer with
packets for it (`Rpc.slotStep`). Each closed form of `Spec.Server` keeps `SlotInv`, given that the
packet it handles is one the client could have sent (`UpOk`):

* a packet of an older request, or a later packet of the current one that the server has not
  asked for, changes nothing;
* a past packet of the current request, or a past RFR, is answered again (`SlotInv.send_down`);
* the next packet of the current request is taken in (`SlotInv.recv_middle`,
  `SlotInv.recv_last`), and the last one invokes the handler with the client's bytes;
* the first packet of the client's next request starts it (`SlotInv.take_small`,
  `SlotInv.take_first`);
* the next RFR gets the next response packet (`SlotInv.rfr_next`);
* `enqueue_response` for the request whose handler ran sends the response
  (`SlotInv.respond`).

What `UpOk` and `DownOk` say of the packets in flight depends on few fields of the server sslot,
so most steps carry them over by `UpOk.of_rx_le` and `DownOk.congr`.
-/

namespace ERpc

theorem SSlot.txBuf_eq_none {x : SSlot} : x.txBuf = none ↔ x.txMsgbuf = .null := by
  cases h : x.txMsgbuf <;> simp [SSlot.txBuf, h]

section Packets

variable {T : Transport} {s r : ℕ} {cx : ClientSlot} {y y' : SSlot} {q : Pkt}

/-- Packets the client sent stay what the server expects while it receives more of the same
request. -/
theorem UpOk.of_rx_le (h : UpOk T cx y q) (hc : y'.curReqNum = y.curReqNum)
    (hn : y'.serverInfo.reqMsgbuf.numPkts = y.serverInfo.reqMsgbuf.numPkts) (hb : y'.txBuf = y.txBuf)
    (hr : y.serverInfo.numRx ≤ y'.serverInfo.numRx) : UpOk T cx y' q := by
  obtain ⟨ht, hA | ⟨h1, h2, h3, h4⟩ | hC⟩ := h
  · exact ⟨ht, .inl (by rwa [hc])⟩
  · exact ⟨ht, .inr (.inl ⟨by rwa [hc], by omega, by rwa [hn, hc], by rwa [hn, hb]⟩)⟩
  · exact ⟨ht, .inr (.inr (by rwa [hc]))⟩

/-- Before the response exists no RFR for the current request is in flight, so the response can
be added. -/
theorem UpOk.of_txBuf_none (h : UpOk T cx y q) (hc : y'.curReqNum = y.curReqNum)
    (hn : y'.serverInfo.reqMsgbuf.numPkts = y.serverInfo.reqMsgbuf.numPkts)
    (hr : y'.serverInfo.numRx = y.serverInfo.numRx) (hb : y.txBuf = none) : UpOk T cx y' q := by
  obtain ⟨ht, hA | ⟨h1, h2, h3, h4⟩ | hC⟩ := h
  · exact ⟨ht, .inl (by rwa [hc])⟩
  · refine ⟨ht, .inr (.inl ⟨by rwa [hc], by rwa [hr], by rwa [hn, hc], fun hq => ?_⟩)⟩
    obtain ⟨resp, hresp, -⟩ := h4 hq
    rw [hb] at hresp
    cases hresp
  · exact ⟨ht, .inr (.inr (by rwa [hc]))⟩

/-- Once the server has taken the client's request `R`, every packet of it in flight is a packet
of the current request. -/
theorem UpOk.advance (h : UpOk T cx y q) {R : MsgBuffer} (hR : cx.txMsgbuf = .app R)
    (hs : ReqShape T s cx.curReqNum R) (hlt : y.curReqNum < cx.curReqNum)
    (hc : y'.curReqNum = cx.curReqNum) (hr : 0 < y'.serverInfo.numRx)
    (hn : y'.serverInfo.reqMsgbuf.numPkts = R.numPkts) : UpOk T cx y' q := by
  obtain ⟨ht, hA | ⟨h1, -⟩ | ⟨-, h1, R', hR', hk, hq⟩⟩ := h
  · exact ⟨ht, .inl (by omega)⟩
  · exact ⟨ht, .inl (by omega)⟩
  · rw [hR, TxMsgbuf.app.injEq] at hR'
    subst hR'
    obtain ⟨k, hk', rfl⟩ : ∃ k, k < R.numPkts ∧ q = R.pkt T k := ⟨_, hk, hq⟩
    obtain ⟨hmsg, -, htype, hnum, -⟩ := hs.2 k hk'
    simp only [MsgBuffer.pkt_hdr] at h1
    refine ⟨ht, .inr (.inl ⟨?_, hr, fun _ => ⟨?_, ?_, ?_⟩, fun hf => ?_⟩)⟩
    · simp only [MsgBuffer.pkt_hdr]
      omega
    · simp only [MsgBuffer.pkt_hdr, hnum, hn]
      exact hk'
    · simp only [MsgBuffer.pkt_hdr, hmsg, hn, hs.1.1]
    · intro R'' hR'' _
      rw [hR, TxMsgbuf.app.injEq] at hR''
      simp only [MsgBuffer.pkt_hdr, ← hR'', hnum]
    · simp only [MsgBuffer.pkt_hdr, htype] at hf
      cases hf

theorem UpOk.of_cur_req (h : UpOk T cx y q) (h1 : q.hdr.reqNum = y.curReqNum) (ht : q.hdr.pktType = .kReq) :
    0 < y.serverInfo.numRx ∧ q.hdr.pktNum < y.serverInfo.reqMsgbuf.numPkts ∧
      dataSizeToNumPkts T q.hdr.msgSize = y.serverInfo.reqMsgbuf.numPkts ∧
      ∀ R, cx.txMsgbuf = .app R → y.curReqNum = cx.curReqNum → q = R.pkt T q.hdr.pktNum := by
  obtain ⟨-, hA | ⟨-, h2, h3, -⟩ | ⟨hC, -⟩⟩ := h
  · omega
  · exact ⟨h2, h3 ht⟩
  · omega

theorem UpOk.of_cur_rfr (h : UpOk T cx y q) (h1 : q.hdr.reqNum = y.curReqNum) (ht : q.hdr.pktType = .kRFR) :
    0 < y.serverInfo.numRx ∧ ∃ resp, y.txBuf = some resp ∧ y.serverInfo.reqMsgbuf.numPkts ≤ q.hdr.pktNum ∧
      q.hdr.pktNum + 1 < y.serverInfo.reqMsgbuf.numPkts + resp.numPkts := by
  obtain ⟨-, hA | ⟨-, h2, -, h4⟩ | ⟨hC, -⟩⟩ := h
  · omega
  · exact ⟨h2, h4 ht⟩
  · omega

theorem DownOk.congr (h : DownOk T y q) (hc : y'.curReqNum = y.curReqNum)
    (hn : y'.serverInfo.reqMsgbuf.numPkts = y.serverInfo.reqMsgbuf.numPkts) (hb : y'.txBuf = y.txBuf) :
    DownOk T y' q := by
  unfold DownOk at h ⊢
  rw [hc, hn, hb]
  exact h

theorem DownOk.advance (h : DownOk T y q) (hlt : y.curReqNum < y'.curReqNum) : DownOk T y' q := by
  obtain ⟨ht, hle, -⟩ := h
  exact ⟨ht, by omega, fun heq => absurd heq (by omega)⟩

theorem DownOk.of_txBuf_none (h : DownOk T y q) (hc : y'.curReqNum = y.curReqNum)
    (hn : y'.serverInfo.reqMsgbuf.numPkts = y.serverInfo.reqMsgbuf.numPkts) (hb : y.txBuf = none) :
    DownOk T y' q := by
  obtain ⟨ht, hle, hcur⟩ := h
  refine ⟨ht, by rwa [hc], fun heq => ⟨fun hcr => ?_, fun hr => ?_⟩⟩
  · rw [hn]
    exact (hcur (by rwa [hc] at heq)).1 hcr
  · obtain ⟨resp, hresp, -⟩ := (hcur (by rwa [hc] at heq)).2 hr
    rw [hb] at hresp
    cases hresp

theorem downOk_resp {resp : MsgBuffer} {nv j : ℕ} (hb : y.txBuf = some resp)
    (hs : RespShape T s y.curReqNum nv resp) (hj : j < resp.numPkts) : DownOk T y (resp.pkt T j) := by
  obtain ⟨-, -, htype, -, hreq⟩ := hs.2 j hj
  refine ⟨.inr htype, hreq.le, fun _ => ⟨fun hf => ?_, fun _ => ⟨resp, hb, j, hj, rfl⟩⟩⟩
  simp only [MsgBuffer.pkt_hdr, htype] at hf
  cases hf

theorem downOk_crPkt {hdr : PktHdr} {dest : ℕ} (hr : hdr.reqNum = y.curReqNum)
    (hlt : y.curReqNum < 2 ^ kReqNumBits) (hk : hdr.pktNum + 1 < y.serverInfo.reqMsgbuf.numPkts) :
    DownOk T y (crPkt hdr dest) := by
  have hf : reqNumField hdr.reqNum = y.curReqNum := by rw [hr, reqNumField_of_lt hlt]
  simp only [DownOk, crPkt, hf, le_refl, true_or, reduceCtorEq, false_implies, and_true, true_and]
  exact fun _ _ => hk

theorem respOut_shape {x : SSlot} {resp : MsgBuffer} (hs : resp.Sized T)
    (hlt : x.curReqNum < 2 ^ kReqNumBits) :
    RespShape T s x.curReqNum x.serverInfo.reqMsgbuf.numPkts (respOut x resp s) := by
  refine ⟨hs, fun j hj => ?_⟩
  simp only [respOut, Rpc.respHdrs]
  rcases Nat.eq_zero_or_pos j with rfl | hj0
  · simp [reqNumField_of_lt hlt]
  · simp only [respOut_numPkts] at hj
    simp [Nat.pos_iff_ne_zero.1 hj0, hj, reqNumField_of_lt hlt, Nat.add_comm]

end Packets

theorem smallReqMsgbuf_pkt (T : Transport) (st : Rpc) {R : MsgBuffer}
    (hs : (R.pkthdr 0).msgSize = R.dataSize) (hD : R.dataSize ≤ T.kMaxDataPerPkt) :
    (st.smallReqMsgbuf T (R.pkt T 0)).dataSize = R.dataSize ∧
      (st.smallReqMsgbuf T (R.pkt T 0)).numPkts = 1 ∧
      Chunk.Agree (st.smallReqMsgbuf T (R.pkt T 0)).buf R.buf R.dataSize := by
  have hmin : min T.kMaxDataPerPkt (R.dataSize - 0 * T.kMaxDataPerPkt) = R.dataSize := by
    rw [Nat.zero_mul, Nat.sub_zero]
    exact min_eq_right hD
  unfold Rpc.smallReqMsgbuf
  split_ifs
  · refine ⟨hs, rfl, fun b hb => ?_⟩
    simp only [fakeMsgBuffer, MsgBuffer.pkt_data]
    rw [Chunk.getD_slice _ (by omega), Nat.zero_mul, Nat.zero_add]
  · refine ⟨hs, (dataSizeToNumPkts_eq_one T).2 (by rw [MsgBuffer.pkt_hdr, hs]; exact hD), ?_⟩
    simp only [MsgBuffer.pkt_hdr, MsgBuffer.pkt_data, hs]
    exact Chunk.Agree.write_slice_zero _ _ hD

namespace SlotInv

variable {T : Transport} {pacing : Bool} {s i : ℕ} {c : ClientView} {v : ServerView}

/-- A server sslot that has part of a request and no response works on the client's current
request, which the client has not completed. -/
theorem active_of_receiving (h : SlotInv T pacing s i c v) (hn : v.x.txMsgbuf = .null)
    (hr : 0 < v.x.serverInfo.numRx) : v.x.curReqNum = c.x.curReqNum ∧ ∃ R, c.x.txMsgbuf = .app R := by
  have hcur : v.x.curReqNum = c.x.curReqNum := by
    rcases h.cur with h1 | h1
    · exact h1
    · rcases (h.behind h1).2 with h2 | h2
      · exact absurd hn h2
      · omega
  refine ⟨hcur, (h.tx_app).resolve_left fun h1 => ?_⟩
  rcases (h.idle_cur h1).2 with h2 | h2
  · exact h2 hn
  · omega

theorem cur_add_of_lt (h : SlotInv T pacing s i c v) (hlt : v.x.curReqNum < c.x.curReqNum) :
    v.x.curReqNum + kSessionReqWindow = c.x.curReqNum :=
  h.cur.resolve_left (by omega)

/-- While the client is a request ahead, the server has answered every request whose handler it
invoked. -/
theorem resp_of_behind (h : SlotInv T pacing s i c v) (hlt : v.x.curReqNum < c.x.curReqNum) :
    ∀ r ∈ reqFuncNums v.events, r ∈ respNums v.events := by
  intro r hr
  by_contra hn
  obtain ⟨-, hnull, hpos, -⟩ := h.unanswered r hr hn
  rcases (h.behind (h.cur_add_of_lt hlt)).2 with h2 | h2
  · exact h2 hnull
  · omega

theorem send_down (h : SlotInv T pacing s i c v) {ps : List Pkt} (hps : ∀ q ∈ ps, DownOk T v.x q) :
    SlotInv T pacing s i c ⟨v.x, v.events, v.sent ++ ps⟩ :=
  { h with down := fun q hq => (List.mem_append.1 hq).elim (h.down q) (hps q) }

/-- The server takes the client's next request `R`, of one packet, into the request buffer `B`
and invokes the handler. -/
theorem take_small (h : SlotInv T pacing s i c v) {R B : MsgBuffer} (rt : ℕ) (ft : ReqFuncType)
    (hR : c.x.txMsgbuf = .app R) (hlt : v.x.curReqNum < c.x.curReqNum)
    (hc : c.x.curReqNum < 2 ^ kReqNumBits) (hN : R.numPkts = 1) (hBs : B.dataSize = R.dataSize)
    (hBn : B.numPkts = 1) (hBa : Chunk.Agree B.buf R.buf R.dataSize) :
    SlotInv T pacing s i c
      ⟨{ v.x with
          txMsgbuf := .null
          curReqNum := c.x.curReqNum
          serverInfo := { v.x.serverInfo with numRx := 1, reqMsgbuf := B, reqType := rt, reqFuncType := ft } },
        v.events ++ [.reqFunc s i c.x.curReqNum B], v.sent⟩ := by
  obtain ⟨hshape, hasg⟩ := h.req R hR
  have hrx : c.x.numRx = 0 := (h.behind (h.cur_add_of_lt hlt)).1
  have hold := h.resp_of_behind hlt
  exact
  { h with
    v_mod := h.cur_mod
    v_lt := hc
    server_tx := fun m hm => TxMsgbuf.noConfusion hm
    rx_le := fun _ => hBn.ge
    responded := fun _ hb => absurd hb (by simp [SSlot.txBuf])
    req_sorted := by
      rw [reqFuncNums_append_reqFunc]
      exact pairwise_append_single h.req_sorted fun a ha => (h.req_le a ha).trans_lt hlt
    req_le := by
      intro r hr
      rw [reqFuncNums_append_reqFunc, List.mem_append, List.mem_singleton] at hr
      rcases hr with hr | rfl
      · exact ((h.req_le r hr).trans_lt hlt).le
      · exact le_rfl
    fresh := fun hp => absurd hp (by simp [hBn])
    unanswered := by
      intro r hr hn
      rw [respNums_append_reqFunc] at hn
      rw [reqFuncNums_append_reqFunc, List.mem_append, List.mem_singleton] at hr
      rcases hr with hr | rfl
      · exact absurd (hold r hr) hn
      · exact ⟨rfl, rfl, Nat.one_pos, hBn.symm⟩
    resp_sorted := by
      rw [respNums_append_reqFunc]
      exact h.resp_sorted
    resp_le := by
      intro r hr
      rw [respNums_append_reqFunc] at hr
      exact ((h.resp_le r hr).trans_lt hlt).le
    cur := .inl rfl
    idle_cur := fun h0 => by
      rw [hR] at h0
      cases h0
    behind := fun h0 => absurd h0 (by simp [kSessionReqWindow])
    sync := fun R' hR' _ => by
      rw [hR, TxMsgbuf.app.injEq] at hR'
      subst hR'
      exact ⟨Nat.one_pos, hBn.trans hN.symm, fun _ h1 => absurd h1 (by dsimp only; omega),
        fun h1 => absurd h1 (by omega)⟩
    req_hist := by
      intro r B' hm
      rcases List.mem_append.1 hm with hm | hm
      · exact h.req_hist r B' hm
      · simp only [List.mem_singleton, Event.reqFunc.injEq] at hm
        obtain ⟨-, -, rfl, rfl⟩ := hm
        exact ⟨R, hasg, hBs, hBa⟩
    cont_hist := fun r tag B' hm => by
      obtain ⟨resp, h1, h2⟩ := h.cont_hist r tag B' hm
      exact ⟨resp, List.mem_append_left _ h1, h2⟩
    up := fun q hq => (h.up q hq).advance hR hshape hlt rfl Nat.one_pos (hBn.trans hN.symm)
    down := fun q hq => (h.down q hq).advance hlt }

/-- The server takes the first packet of the client's next request `R`, of several packets, into
the request buffer `B`, and returns its credit. -/
theorem take_first (h : SlotInv T pacing s i c v) {R B : MsgBuffer} {hdr : PktHdr}
    (hR : c.x.txMsgbuf = .app R) (hlt : v.x.curReqNum < c.x.curReqNum)
    (hc : c.x.curReqNum < 2 ^ kReqNumBits) (hN : 1 < R.numPkts) (hBs : B.dataSize = R.dataSize)
    (hBn : B.numPkts = R.numPkts) (hBa : Chunk.Agree B.buf R.buf (min T.kMaxDataPerPkt R.dataSize))
    (hh : hdr.reqNum = c.x.curReqNum ∧ hdr.pktNum = 0) :
    SlotInv T pacing s i c
      ⟨{ v.x with
          txMsgbuf := .null
          curReqNum := c.x.curReqNum
          serverInfo := { v.x.serverInfo with numRx := 1, reqMsgbuf := B } },
        v.events, v.sent ++ [crPkt hdr s]⟩ := by
  obtain ⟨hshape, -⟩ := h.req R hR
  have hrx : c.x.numRx = 0 := (h.behind (h.cur_add_of_lt hlt)).1
  have hold := h.resp_of_behind hlt
  exact
  { h with
    v_mod := h.cur_mod
    v_lt := hc
    server_tx := fun m hm => TxMsgbuf.noConfusion hm
    rx_le := fun _ => by dsimp only; omega
    responded := fun _ hb => absurd hb (by simp [SSlot.txBuf])
    req_le := fun r hr => ((h.req_le r hr).trans_lt hlt).le
    fresh := fun _ hm => absurd ((h.req_le _ hm).trans_lt hlt) (lt_irrefl _)
    unanswered := fun r hr hn => absurd (hold r hr) hn
    resp_le := fun r hr => ((h.resp_le r hr).trans_lt hlt).le
    cur := .inl rfl
    idle_cur := fun h0 => by
      rw [hR] at h0
      cases h0
    behind := fun h0 => absurd h0 (by simp [kSessionReqWindow])
    sync := fun R' hR' _ => by
      rw [hR, TxMsgbuf.app.injEq] at hR'
      subst hR'
      exact ⟨Nat.one_pos, hBn, fun _ _ => ⟨hBs, by rwa [Nat.one_mul]⟩, fun h1 => absurd h1 (by omega)⟩
    up := fun q hq => (h.up q hq).advance hR hshape hlt rfl Nat.one_pos hBn
    down := fun q hq => by
      rcases List.mem_append.1 hq with hq | hq
      · exact (h.down q hq).advance hlt
      · rw [List.mem_singleton.1 hq]
        exact downOk_crPkt hh.1 hc (by dsimp only; omega) }

/-- The next packet of the current request comes from the client's request `R`, which the server
is receiving and has not answered. -/
theorem recv_next (h : SlotInv T pacing s i c v) {p : Pkt} (hu : UpOk T c.x v.x p)
    (ht : p.hdr.pktType = .kReq) (h1 : p.hdr.reqNum = v.x.curReqNum)
    (h2 : p.hdr.pktNum = v.x.serverInfo.numRx) :
    v.x.txMsgbuf = .null ∧ v.x.curReqNum = c.x.curReqNum ∧ ∃ R, c.x.txMsgbuf = .app R ∧
      p = R.pkt T v.x.serverInfo.numRx ∧ v.x.serverInfo.numRx < R.numPkts ∧
      v.x.serverInfo.reqMsgbuf.numPkts = R.numPkts := by
  obtain ⟨hrx, hk, -, hp⟩ := hu.of_cur_req h1 ht
  have hnull : v.x.txMsgbuf = .null := by
    rw [← SSlot.txBuf_eq_none, Option.eq_none_iff_forall_ne_some]
    intro resp hb
    have := (h.responded resp hb).2.2.1
    omega
  obtain ⟨hvc, R, hR⟩ := h.active_of_receiving hnull hrx
  have hnum := (h.sync R hR hvc).numPkts
  refine ⟨hnull, hvc, R, hR, ?_, by omega, hnum⟩
  rw [← h2]
  exact hp R hR hvc

/-- The server takes in the next packet of the current request, not its last, and returns its
credit. -/
theorem recv_middle (h : SlotInv T pacing s i c v) {p : Pkt} (hu : UpOk T c.x v.x p)
    (ht : p.hdr.pktType = .kReq) (h1 : p.hdr.reqNum = v.x.curReqNum)
    (h2 : p.hdr.pktNum = v.x.serverInfo.numRx)
    (hd : ¬ v.x.serverInfo.numRx + 1 = v.x.serverInfo.reqMsgbuf.numPkts) :
    SlotInv T pacing s i c
      ⟨{ v.x with
          serverInfo :=
            { v.x.serverInfo with
              numRx := v.x.serverInfo.numRx + 1
              reqMsgbuf := copyDataToMsgbuf T v.x.serverInfo.reqMsgbuf p.hdr.pktNum p } },
        v.events, v.sent ++ [crPkt p.hdr s]⟩ := by
  obtain ⟨hnull, hvc, R, hR, hp, hlt, hnum⟩ := h.recv_next hu ht h1 h2
  have hrx := (hu.of_cur_req h1 ht).1
  have hsync := h.sync R hR hvc
  obtain ⟨hshape, -⟩ := h.req R hR
  exact
  { h with
    rx_le := fun _ => by simp only [copyDataToMsgbuf_numPkts]; omega
    responded := fun _ hb => absurd hb (by simp [SSlot.txBuf, hnull])
    fresh := fun _ => h.fresh (.inl ⟨hnull, by omega⟩)
    unanswered := fun r hr hn => by
      obtain ⟨-, -, -, h3⟩ := h.unanswered r hr hn
      omega
    idle_cur := fun h0 => by
      rw [hR] at h0
      cases h0
    behind := fun h0 => absurd h0 (by simp [hvc, kSessionReqWindow])
    sync := fun R' hR' _ => by
      rw [hR, TxMsgbuf.app.injEq] at hR'
      subst hR'
      obtain ⟨hds, hag⟩ := hsync.recv hnull hlt
      have hmul : v.x.serverInfo.numRx * T.kMaxDataPerPkt < R.dataSize :=
        mul_lt_of_lt_dataSizeToNumPkts T (hshape.1.1 ▸ hlt) hrx
      refine ⟨by dsimp only; omega, hnum, fun _ _ => ⟨hds, ?_⟩, fun h3 => ?_⟩
      · rw [h2, hp]
        exact agree_copy_pkt T (hshape.2 _ hlt).1 (hag.mono (by omega))
      · obtain ⟨resp, hb, -⟩ := hsync.answered h3
        rw [SSlot.txBuf_eq_none.2 hnull] at hb
        cases hb
    up := fun q hq => (h.up q hq).of_rx_le rfl rfl rfl (by dsimp only; omega)
    down := fun q hq => by
      rcases List.mem_append.1 hq with hq | hq
      · exact (h.down q hq).congr rfl rfl rfl
      · rw [List.mem_singleton.1 hq]
        exact downOk_crPkt h1 h.v_lt (by simp only [copyDataToMsgbuf_numPkts]; omega) }

/-- The server takes in the last packet of the current request and invokes the handler with the
request buffer, which then holds the client's request. -/
theorem recv_last (h : SlotInv T pacing s i c v) {p : Pkt} (ft : ReqFuncType) (hu : UpOk T c.x v.x p)
    (ht : p.hdr.pktType = .kReq) (h1 : p.hdr.reqNum = v.x.curReqNum)
    (h2 : p.hdr.pktNum = v.x.serverInfo.numRx)
    (hd : v.x.serverInfo.numRx + 1 = v.x.serverInfo.reqMsgbuf.numPkts) :
    SlotInv T pacing s i c
      ⟨{ v.x with
          serverInfo :=
            { v.x.serverInfo with
              numRx := v.x.serverInfo.numRx + 1
              reqMsgbuf := copyDataToMsgbuf T v.x.serverInfo.reqMsgbuf p.hdr.pktNum p
              reqType := p.hdr.reqType
              reqFuncType := ft } },
        v.events ++ [.reqFunc s i v.x.curReqNum (copyDataToMsgbuf T v.x.serverInfo.reqMsgbuf p.hdr.pktNum p)],
        v.sent⟩ := by
  obtain ⟨hnull, hvc, R, hR, hp, hlt, hnum⟩ := h.recv_next hu ht h1 h2
  have hrx := (hu.of_cur_req h1 ht).1
  have hsync := h.sync R hR hvc
  obtain ⟨hshape, hasg⟩ := h.req R hR
  have hfresh : v.x.curReqNum ∉ reqFuncNums v.events := h.fresh (.inl ⟨hnull, by omega⟩)
  exact
  { h with
    rx_le := fun _ => by simp only [copyDataToMsgbuf_numPkts]; omega
    responded := fun _ hb => absurd hb (by simp [SSlot.txBuf, hnull])
    req_sorted := by
      rw [reqFuncNums_append_reqFunc]
      exact pairwise_append_single h.req_sorted fun a ha =>
        lt_of_le_of_ne (h.req_le a ha) fun he => hfresh (he ▸ ha)
    req_le := by
      intro r hr
      rw [reqFuncNums_append_reqFunc, List.mem_append, List.mem_singleton] at hr
      rcases hr with hr | rfl
      · exact h.req_le r hr
      · exact le_rfl
    fresh := fun hp => absurd hp (by simp only [copyDataToMsgbuf_numPkts]; omega)
    unanswered := by
      intro r hr hn
      rw [respNums_append_reqFunc] at hn
      rw [reqFuncNums_append_reqFunc, List.mem_append, List.mem_singleton] at hr
      rcases hr with hr | rfl
      · obtain ⟨-, -, -, h3⟩ := h.unanswered r hr hn
        omega
      · exact ⟨rfl, hnull, Nat.succ_pos _, by simp only [copyDataToMsgbuf_numPkts]; omega⟩
    resp_sorted := by
      rw [respNums_append_reqFunc]
      exact h.resp_sorted
    resp_le := by
      intro r hr
      rw [respNums_append_reqFunc] at hr
      exact h.resp_le r hr
    idle_cur := fun h0 => by
      rw [hR] at h0
      cases h0
    behind := fun h0 => absurd h0 (by simp [hvc, kSessionReqWindow])
    sync := fun R' hR' _ => by
      rw [hR, TxMsgbuf.app.injEq] at hR'
      subst hR'
      refine ⟨by dsimp only; omega, hnum, fun _ h3 => absurd h3 (by dsimp only; omega), fun h3 => ?_⟩
      obtain ⟨resp, hb, -⟩ := hsync.answered h3
      rw [SSlot.txBuf_eq_none.2 hnull] at hb
      cases hb
    req_hist := by
      intro r B' hm
      rcases List.mem_append.1 hm with hm | hm
      · exact h.req_hist r B' hm
      simp only [List.mem_singleton, Event.reqFunc.injEq] at hm
      obtain ⟨-, -, rfl, rfl⟩ := hm
      obtain ⟨hds, hag⟩ := hsync.recv hnull hlt
      have hmul : v.x.serverInfo.numRx * T.kMaxDataPerPkt < R.dataSize :=
        mul_lt_of_lt_dataSizeToNumPkts T (hshape.1.1 ▸ hlt) hrx
      have hall : min ((v.x.serverInfo.numRx + 1) * T.kMaxDataPerPkt) R.dataSize = R.dataSize := by
        have := le_dataSizeToNumPkts_mul T R.dataSize
        rw [← hshape.1.1, ← hnum, ← hd] at this
        omega
      refine ⟨R, hvc ▸ hasg, hds, ?_⟩
      rw [← hall, h2, hp]
      exact agree_copy_pkt T (hshape.2 _ hlt).1 (hag.mono (by omega))
    cont_hist := fun r tag B' hm => by
      obtain ⟨resp, h3, h4⟩ := h.cont_hist r tag B' hm
      exact ⟨resp, List.mem_append_left _ h3, h4⟩
    up := fun q hq => (h.up q hq).of_rx_le rfl rfl rfl (by dsimp only; omega)
    down := fun q hq => (h.down q hq).congr rfl rfl rfl }

theorem rfr_next (h : SlotInv T pacing s i c v) {p : Pkt} (hu : UpOk T c.x v.x p)
    (ht : p.hdr.pktType = .kRFR) (h1 : p.hdr.reqNum = v.x.curReqNum)
    (h2 : p.hdr.pktNum = v.x.serverInfo.numRx) :
    SlotInv T pacing s i c
      ⟨{ v.x with serverInfo := { v.x.serverInfo with numRx := v.x.serverInfo.numRx + 1 } }, v.events,
        v.sent ++ (v.x.txBuf.map (·.pkt T (respNtoi p.hdr.pktNum v.x.serverInfo.savNumReqPkts))).toList⟩ := by
  obtain ⟨-, resp, hb, hnv, hM⟩ := hu.of_cur_rfr h1 ht
  have hnn : v.x.txMsgbuf ≠ .null := fun h0 => by
    rw [SSlot.txBuf_eq_none.2 h0] at hb
    cases hb
  obtain ⟨hshape, hsav, -, -, hpos, -⟩ := h.responded resp hb
  exact
  { h with
    rx_le := fun h0 => absurd h0 hnn
    responded := fun resp' hb' => by
      obtain ⟨h3, h4, h5, -, h6, h7⟩ := h.responded resp' hb'
      have hr : resp' = resp := Option.some.inj (hb'.symm.trans hb)
      subst hr
      exact ⟨h3, h4, by dsimp only; omega, by dsimp only; omega, h6, h7⟩
    fresh := fun hp => absurd hp (by dsimp only; simp [hnn])
    unanswered := fun r hr hn => absurd (h.unanswered r hr hn).2.1 hnn
    idle_cur := fun h0 => ⟨(h.idle_cur h0).1, .inl hnn⟩
    behind := fun h0 => ⟨(h.behind h0).1, .inl hnn⟩
    sync := fun R hR hvc =>
      ⟨Nat.succ_pos _, (h.sync R hR hvc).numPkts, fun h0 => absurd h0 hnn, (h.sync R hR hvc).answered⟩
    up := fun q hq => (h.up q hq).of_rx_le rfl rfl rfl (Nat.le_succ _)
    down := fun q hq => by
      rcases List.mem_append.1 hq with hq | hq
      · exact (h.down q hq).congr rfl rfl rfl
      · rw [hb, Option.map_some, Option.toList_some, List.mem_singleton] at hq
        rw [hq]
        refine downOk_resp hb hshape ?_
        rw [respNtoi, hsav]
        omega }

/-- `enqueue_response` for the request whose handler ran and has not been answered: the sslot
sends the response `respOut` builds from the buffer `resp` the handler filled. -/
theorem respond (h : SlotInv T pacing s i c v) {r : ℕ} (dyn : Bool) {resp : MsgBuffer}
    (hr : r ∈ reqFuncNums v.events) (hr' : r ∉ respNums v.events) (hs : resp.Sized T) :
    SlotInv T pacing s i c
      ⟨respondedSlot v.x dyn (respOut v.x resp s),
        v.events ++ [.respEnqueued s i v.x.curReqNum (respOut v.x resp s)],
        v.sent ++ [(respOut v.x resp s).pkt T 0]⟩ := by
  obtain ⟨rfl, hnull, hpos, hrx⟩ := h.unanswered r hr hr'
  have hb0 : v.x.txBuf = none := SSlot.txBuf_eq_none.2 hnull
  have hshape := respOut_shape (s := s) hs h.v_lt
  have hM : 0 < (respOut v.x resp s).numPkts := by
    rw [respOut_numPkts, hs.1]
    exact dataSizeToNumPkts_pos T _
  have hxc : (respondedSlot v.x dyn (respOut v.x resp s)).curReqNum = v.x.curReqNum :=
    respondedSlot_curReqNum
  have hxn : (respondedSlot v.x dyn (respOut v.x resp s)).serverInfo.reqMsgbuf.numPkts =
      v.x.serverInfo.reqMsgbuf.numPkts := by simp
  have hxr : (respondedSlot v.x dyn (respOut v.x resp s)).serverInfo.numRx = v.x.serverInfo.numRx := by
    simp
  have hxs : (respondedSlot v.x dyn (respOut v.x resp s)).serverInfo.savNumReqPkts =
      v.x.serverInfo.reqMsgbuf.numPkts := by simp
  have hxb : (respondedSlot v.x dyn (respOut v.x resp s)).txBuf = some (respOut v.x resp s) :=
    respondedSlot_txBuf
  have hxt : (respondedSlot v.x dyn (respOut v.x resp s)).txMsgbuf ≠ .null := by
    cases dyn <;> simp
  exact
  { h with
    v_mod := by rw [hxc]; exact h.v_mod
    v_lt := by rw [hxc]; exact h.v_lt
    server_tx := fun m hm => by cases dyn <;> simp at hm
    rx_le := fun h0 => absurd h0 hxt
    responded := fun resp' hb => by
      rw [hxb, Option.some.injEq] at hb
      subst hb
      refine ⟨by rw [hxc, hxn]; exact hshape, by rw [hxs, hxn], by rw [hxn, hxr]; omega,
        by rw [hxn, hxr]; omega, by rw [hxn]; omega, ?_⟩
      rw [hxc]
      exact List.mem_append_right _ (List.mem_singleton_self _)
    req_sorted := by
      rw [reqFuncNums_append_respEnqueued]
      exact h.req_sorted
    req_le := by
      rw [reqFuncNums_append_respEnqueued, hxc]
      exact h.req_le
    fresh := fun hp => absurd hp (by rw [hxr]; simp; omega)
    unanswered := by
      intro r' hr1 hr2
      rw [reqFuncNums_append_respEnqueued] at hr1
      rw [respNums_append_respEnqueued, List.mem_append, List.mem_singleton, not_or] at hr2
      exact absurd (h.unanswered r' hr1 hr2.1).1 hr2.2
    resp_sorted := by
      rw [respNums_append_respEnqueued]
      exact pairwise_append_single h.resp_sorted fun a ha =>
        lt_of_le_of_ne (h.resp_le a ha) fun he => hr' (he ▸ ha)
    resp_le := by
      intro r' hr1
      rw [respNums_append_respEnqueued, List.mem_append, List.mem_singleton] at hr1
      rw [hxc]
      rcases hr1 with hr1 | rfl
      · exact h.resp_le r' hr1
      · exact le_rfl
    cur := by rw [hxc]; exact h.cur
    idle_cur := fun h0 => ⟨hxc ▸ (h.idle_cur h0).1, .inl hxt⟩
    behind := fun h0 => ⟨(h.behind (hxc ▸ h0)).1, .inl hxt⟩
    sync := fun R hR hvc => by
      have hsync := h.sync R hR (hxc ▸ hvc)
      refine ⟨by rw [hxr]; exact hpos, by rw [hxn]; exact hsync.numPkts, fun h0 => absurd h0 hxt,
        fun h3 => ?_⟩
      obtain ⟨resp', hb, -⟩ := hsync.answered h3
      rw [hb0] at hb
      cases hb
    req_hist := fun r' B hm => by
      rcases List.mem_append.1 hm with hm | hm
      · exact h.req_hist r' B hm
      · simp at hm
    cont_hist := fun r' tag B hm => by
      obtain ⟨resp', h3, h4⟩ := h.cont_hist r' tag B hm
      exact ⟨resp', List.mem_append_left _ h3, h4⟩
    up := fun q hq => (h.up q hq).of_txBuf_none hxc hxn hxr hb0
    down := fun q hq => by
      rcases List.mem_append.1 hq with hq | hq
      · exact (h.down q hq).of_txBuf_none hxc hxn hb0
      · rw [List.mem_singleton.1 hq]
        exact downOk_resp hxb (by rw [hxc]; exact hshape) hM }

end SlotInv

end ERpc
