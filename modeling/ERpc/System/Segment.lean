import ERpc.System.ServerStep

/-!
# Segmentation and reassembly of a message

A message of `s` bytes in a buffer sized for it goes out as packets `0, …, num_pkts_ - 1`
(`tx_burst`): packet `k` carries header `k` and the bytes from `k * kMaxDataPerPkt`, as many as
`get_pkt_size` leaves after the header. The receiver copies each packet's bytes into a buffer
sized to `msg_size_` with `copy_data_to_msgbuf`, at the index its header gives: `pkt_num_` for a
request, `resp_ntoi (pkt_num_, R)` for a response to a request of `R` packets. A message that
fits one packet takes a path of its own on each side.

Both ends compute a packet's length from the message size and the packet index alone, so they
agree; the lengths are at most `kMaxDataPerPkt`, the offsets never pass the size (so no
subtraction underflows), and the packets cover consecutive ranges from `0` to `s`. Copying them
in order rebuilds the message (`agree_reassemble_range`).
-/

namespace ERpc

variable (T : Transport)

/-- What `tx_burst` puts on the wire for the packets `0, …, num_pkts_ - 1` of `m`, in order. -/
def MsgBuffer.pkts (m : MsgBuffer) : List Pkt := (List.range m.numPkts).map (m.pkt T)

/-- The receiver's `copy_data_to_msgbuf` of each of `ps` into `B`, at the packet index `idx` reads
from the packet's header. -/
def reassemble (idx : PktHdr → ℕ) (B : MsgBuffer) (ps : List Pkt) : MsgBuffer :=
  ps.foldl (fun B p => copyDataToMsgbuf T B (idx p.hdr) p) B

section Lengths

variable {T} {m : MsgBuffer} {k : ℕ}

theorem pktDataSize_le (k : ℕ) : m.pktDataSize T k ≤ T.kMaxDataPerPkt := min_le_left _ _

theorem length_pkt_data (k : ℕ) : (m.pkt T k).data.length = m.pktDataSize T k := by
  simp [MsgBuffer.pkt_data, MsgBuffer.pktDataSize]

theorem mul_le_dataSize (hm : m.Sized T) (hk : k < m.numPkts) :
    k * T.kMaxDataPerPkt ≤ m.dataSize := by
  rcases Nat.eq_zero_or_pos k with rfl | hk0
  · simp
  · rw [hm.1] at hk
    exact (mul_lt_of_lt_dataSizeToNumPkts T hk hk0).le

theorem pktDataSize_of_succ_lt (hm : m.Sized T) (hk : k + 1 < m.numPkts) :
    k * T.kMaxDataPerPkt + m.pktDataSize T k = (k + 1) * T.kMaxDataPerPkt := by
  have h := mul_le_dataSize hm hk
  rw [Nat.succ_mul] at h ⊢
  simp only [MsgBuffer.pktDataSize]
  omega

/-- The last packet ends the message. -/
theorem pktDataSize_last (hm : m.Sized T) :
    (m.numPkts - 1) * T.kMaxDataPerPkt + m.pktDataSize T (m.numPkts - 1) = m.dataSize := by
  have hpos : 0 < m.numPkts := hm.1 ▸ dataSizeToNumPkts_pos T _
  have hlo := mul_le_dataSize hm (Nat.sub_lt hpos Nat.one_pos)
  have hhi := le_dataSizeToNumPkts_mul T m.dataSize
  rw [← hm.1] at hhi
  have hrest : m.dataSize - (m.numPkts - 1) * T.kMaxDataPerPkt ≤ T.kMaxDataPerPkt := by
    have : m.numPkts * T.kMaxDataPerPkt = (m.numPkts - 1) * T.kMaxDataPerPkt + T.kMaxDataPerPkt := by
      rw [← Nat.succ_mul, Nat.succ_eq_add_one, Nat.sub_add_cancel hpos]
    omega
  simp only [MsgBuffer.pktDataSize, min_eq_right hrest]
  omega

end Lengths

section Reassembly

variable {T} {m B : MsgBuffer} {idx : PktHdr → ℕ}

theorem reassemble_append (ps qs : List Pkt) :
    reassemble T idx B (ps ++ qs) = reassemble T idx (reassemble T idx B ps) qs :=
  List.foldl_append

@[simp] theorem dataSize_reassemble (ps : List Pkt) : (reassemble T idx B ps).dataSize = B.dataSize := by
  induction ps generalizing B with
  | nil => rfl
  | cons p ps ih => exact ih

/-- Copying packets `0, …, k - 1` in order rebuilds the message's first `k` packets. -/
theorem agree_reassemble_range (hm : m.Sized T)
    (hh : ∀ k < m.numPkts, (m.pkthdr k).msgSize = m.dataSize ∧ idx (m.pkthdr k) = k) :
    ∀ k ≤ m.numPkts, Chunk.Agree (reassemble T idx B ((List.range k).map (m.pkt T))).buf m.buf
      (min (k * T.kMaxDataPerPkt) m.dataSize)
  | 0, _ => fun b hb => absurd hb (by simp)
  | k + 1, hk => by
    have hlt : k < m.numPkts := by omega
    have ih := agree_reassemble_range hm hh k (Nat.le_of_succ_le hk)
    rw [min_eq_left (mul_le_dataSize hm hlt)] at ih
    rw [List.range_succ, List.map_append, reassemble_append]
    simp only [reassemble, List.map_cons, List.map_nil, List.foldl_cons, List.foldl_nil,
      MsgBuffer.pkt_hdr, (hh k hlt).2]
    exact agree_copy_pkt T (hh k hlt).1 ih

end Reassembly

theorem ReqShape.headed {s r : ℕ} {R : MsgBuffer} (h : ReqShape T s r R) :
    ∀ k < R.numPkts, (R.pkthdr k).msgSize = R.dataSize ∧ (R.pkthdr k).pktNum = k :=
  fun k hk => ⟨(h.2 k hk).1, (h.2 k hk).2.2.2.1⟩

/-- The headers `enqueue_response` writes, after a request of `nv` packets, give each response
packet its own index through `resp_ntoi`. -/
theorem RespShape.headed {s r nv : ℕ} {resp : MsgBuffer} (h : RespShape T s r nv resp) :
    ∀ j < resp.numPkts, (resp.pkthdr j).msgSize = resp.dataSize ∧
      respNtoi (resp.pkthdr j).pktNum nv = j := by
  intro j hj
  refine ⟨(h.2 j hj).1, ?_⟩
  rw [(h.2 j hj).2.2.2.1, respNtoi]
  omega

theorem copyRespSmall_pkt {m : MsgBuffer} (resp : MsgBuffer) (hs : (m.pkthdr 0).msgSize = m.dataSize)
    (hD : m.dataSize ≤ T.kMaxDataPerPkt) :
    (Rpc.copyRespSmall T resp (m.pkt T 0)).dataSize = m.dataSize ∧
      Chunk.Agree (Rpc.copyRespSmall T resp (m.pkt T 0)).buf m.buf m.dataSize := by
  refine ⟨by simp [Rpc.copyRespSmall, resizeMsgBuffer, hs], ?_⟩
  simp only [Rpc.copyRespSmall, MsgBuffer.pkt_hdr, MsgBuffer.pkt_data, hs]
  exact Chunk.Agree.write_slice_zero _ _ hD

/-- Segmentation and reassembly agree. Both ends give packet `k` the same length, at most
`kMaxDataPerPkt` and computed without underflow; the packets cover consecutive ranges from `0` to
the message size; copying them in order into a buffer of the message's size rebuilds the
message, and so do the single-packet paths of requests and responses. -/
theorem segments_reassemble (m : MsgBuffer) (hm : m.Sized T) {idx : PktHdr → ℕ}
    (hh : ∀ k < m.numPkts, (m.pkthdr k).msgSize = m.dataSize ∧ idx (m.pkthdr k) = k) :
    (∀ k < m.numPkts, k * T.kMaxDataPerPkt ≤ m.dataSize ∧
      m.pktDataSize T k ≤ T.kMaxDataPerPkt ∧ (m.pkt T k).data.length = m.pktDataSize T k ∧
      min T.kMaxDataPerPkt ((m.pkthdr k).msgSize - idx (m.pkthdr k) * T.kMaxDataPerPkt) =
        m.pktDataSize T k) ∧
    (∀ k, k + 1 < m.numPkts →
      k * T.kMaxDataPerPkt + m.pktDataSize T k = (k + 1) * T.kMaxDataPerPkt) ∧
    (m.numPkts - 1) * T.kMaxDataPerPkt + m.pktDataSize T (m.numPkts - 1) = m.dataSize ∧
    (∀ B : MsgBuffer, B.dataSize = m.dataSize →
      (reassemble T idx B (m.pkts T)).dataSize = m.dataSize ∧
      Chunk.Agree (reassemble T idx B (m.pkts T)).buf m.buf m.dataSize) ∧
    (m.dataSize ≤ T.kMaxDataPerPkt → ∀ (resp : MsgBuffer) (st : Rpc),
      Chunk.Agree (Rpc.copyRespSmall T resp (m.pkt T 0)).buf m.buf m.dataSize ∧
      Chunk.Agree (st.smallReqMsgbuf T (m.pkt T 0)).buf m.buf m.dataSize) := by
  have h0 : 0 < m.numPkts := hm.1 ▸ dataSizeToNumPkts_pos T _
  refine ⟨fun k hk => ⟨mul_le_dataSize hm hk, pktDataSize_le k, length_pkt_data k, ?_⟩,
    fun k hk => pktDataSize_of_succ_lt hm hk, pktDataSize_last hm, fun B hB => ⟨by simp [hB], ?_⟩,
    fun hD resp st => ⟨(copyRespSmall_pkt T resp (hh 0 h0).1 hD).2,
      (smallReqMsgbuf_pkt T st (hh 0 h0).1 hD).2.2⟩⟩
  · rw [(hh k hk).1, (hh k hk).2]
    rfl
  · have h := agree_reassemble_range (B := B) hm hh m.numPkts le_rfl
    rwa [min_eq_right (hm.1 ▸ le_dataSizeToNumPkts_mul T m.dataSize)] at h

/-- A message of 3000 bytes, three packets on DPDK, with the headers of a request. -/
def threePktMsg : MsgBuffer :=
  { allocMsgBuffer Transport.dpdk 3000 with
    pkthdr := fun k => { (default : PktHdr) with msgSize := 3000, pktNum := k } }

/-- The three packets copied into a fresh buffer of 3000 bytes rebuild the message. -/
theorem segments_reassemble_threePktMsg :
    Chunk.Agree (reassemble Transport.dpdk PktHdr.pktNum (allocMsgBuffer Transport.dpdk 3000)
      (threePktMsg.pkts Transport.dpdk)).buf threePktMsg.buf threePktMsg.dataSize :=
  ((segments_reassemble Transport.dpdk threePktMsg (by decide) (by decide)).2.2.2.1
    (allocMsgBuffer Transport.dpdk 3000) rfl).2

end ERpc
