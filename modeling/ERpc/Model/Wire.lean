import ERpc.Lib.Chunk

/-!
# The wire format and message buffers

The constants of `sm_types.h`, `pkthdr.h` and `common.h`; the eRPC packet header `pkthdr_t`; the
`MsgBuffer` that holds a request or a response with its packet headers; and what a transport
puts on the wire for one packet of a message buffer (`DpdkTransport::tx_burst`).

The transport is the template parameter `TTr` of `Rpc`: the datapath reads its MTU and the
headroom of `pkthdr_t` through `kMaxDataPerPkt`. Request numbers travel in a 44-bit field, so
every write of `req_num_` stores the number modulo `2 ^ kReqNumBits` (`reqNumField`). Message
sizes and packet numbers fit their fields by the `static_assert`s of `rpc.h` on `kMaxMsgSize`, and
the model keeps them as numbers. The headroom bytes (Ethernet, IPv4 and UDP headers) are not
read by the datapath and are not modelled.
-/

namespace ERpc

/-- Packet credits of a session (`sm_types.h`). -/
def kSessionCredits : ℕ := 512

/-- Request window of a session: the number of its sslots. -/
def kSessionReqWindow : ℕ := 128

/-- Bits of `pkthdr_t::req_num_`. -/
def kReqNumBits : ℕ := 44

/-- Magic number of every eRPC packet header. -/
def kPktHdrMagic : ℕ := 11

/-- `kReqTypeArraySize - 1`, the request type that marks "no `enqueue_response` pending". -/
def kInvalidReqType : ℕ := 255

/-- `kInvalidBgETid`: a continuation with this thread ID runs in the foreground. -/
def kInvalidBgETid : ℕ := 8

def kNumRxRingEntries : ℕ := 8192

/-- What the datapath reads of its transport class `TTr`: the MTU, and the headroom in front of
the eRPC header (0 for InfiniBand, 40 for the Ethernet-based transports). -/
structure Transport where
  kMTU : ℕ
  kHeadroom : ℕ
  hdr_lt_mtu : kHeadroom + 16 < kMTU

/-- `sizeof (pkthdr_t)`: the headroom and 16 bytes of eRPC header fields. -/
def Transport.pkthdrSize (T : Transport) : ℕ := T.kHeadroom + 16

def Transport.kMaxDataPerPkt (T : Transport) : ℕ := T.kMTU - T.pkthdrSize

/-- `DpdkTransport`: an MTU of 1500 bytes behind 40 bytes of Ethernet, IPv4 and UDP headers. -/
def Transport.dpdk : Transport := ⟨1500, 40, by decide⟩

theorem Transport.kMaxDataPerPkt_pos (T : Transport) : 0 < T.kMaxDataPerPkt := by
  have := T.hdr_lt_mtu
  simp only [kMaxDataPerPkt, pkthdrSize]
  omega

/-- The eRPC packet types, a 2-bit field of the header. -/
inductive PktType
  | kReq
  | kRFR
  | kExplCR
  | kResp
  deriving DecidableEq, Repr, Inhabited

/-- The eRPC fields of `pkthdr_t`. -/
structure PktHdr where
  reqType : ℕ
  msgSize : ℕ
  destSessionNum : ℕ
  pktType : PktType
  pktNum : ℕ
  reqNum : ℕ
  magic : ℕ
  deriving DecidableEq, Repr, Inhabited

/-- What a write of `n` to the 44-bit `req_num_` field stores. -/
def reqNumField (n : ℕ) : ℕ := n % 2 ^ kReqNumBits

theorem reqNumField_lt (n : ℕ) : reqNumField n < 2 ^ kReqNumBits :=
  Nat.mod_lt _ (Nat.two_pow_pos _)

theorem reqNumField_of_lt {n : ℕ} (h : n < 2 ^ kReqNumBits) : reqNumField n = n :=
  Nat.mod_eq_of_lt h

theorem reqNumField_mod (n : ℕ) : reqNumField n % kSessionReqWindow = n % kSessionReqWindow :=
  Nat.mod_mod_of_dvd n (by decide)

/-- A packet on the wire: the eRPC header and the data bytes that follow it. -/
structure Pkt where
  hdr : PktHdr
  data : List UInt8
  deriving DecidableEq, Repr

/-- A message buffer (`msg_buffer.h`): its size fields, its data bytes (`buf_[b]`) and its packet
headers (`get_pkthdr_n (n)`). `dynamic` is `buffer_.buf_ != nullptr`, a buffer backed by an
eRPC hugepage allocation, and `valid` is `buf_ != nullptr`. -/
structure MsgBuffer where
  maxDataSize : ℕ
  dataSize : ℕ
  maxNumPkts : ℕ
  numPkts : ℕ
  buf : ℕ → UInt8
  pkthdr : ℕ → PktHdr
  dynamic : Bool
  valid : Bool

/-- The zeroed `MsgBuffer` of a `memset` sslot: buried. -/
def MsgBuffer.zero : MsgBuffer :=
  ⟨0, 0, 0, 0, fun _ => 0, fun _ => default, false, false⟩

def MsgBuffer.isBuried (m : MsgBuffer) : Bool := !m.valid && !m.dynamic

section Transport

variable (T : Transport)

def dataSizeToNumPkts (dataSize : ℕ) : ℕ :=
  if dataSize ≤ T.kMaxDataPerPkt then 1
  else (dataSize + T.kMaxDataPerPkt - 1) / T.kMaxDataPerPkt

/-- `Rpc::wire_pkts`: the packets one endpoint sends for a request and its response. -/
def wirePkts (req resp : MsgBuffer) : ℕ := req.numPkts + resp.numPkts - 1

/-- `Rpc::resp_ntoi`: the index in the response of response packet number `pktNum`. -/
def respNtoi (pktNum numReqPkts : ℕ) : ℕ := pktNum - (numReqPkts - 1)

def resizeMsgBuffer (m : MsgBuffer) (newDataSize : ℕ) : MsgBuffer :=
  { m with dataSize := newDataSize, numPkts := dataSizeToNumPkts T newDataSize }

/-- The data bytes of packet `pktIdx` (`get_pkt_size` less the header). -/
def MsgBuffer.pktDataSize (m : MsgBuffer) (pktIdx : ℕ) : ℕ :=
  min T.kMaxDataPerPkt (m.dataSize - pktIdx * T.kMaxDataPerPkt)

/-- What `tx_burst` puts on the wire for packet `pktIdx` of `m`: header `pktIdx`, then the data
bytes from `buf_ + pktIdx * kMaxDataPerPkt`. -/
def MsgBuffer.pkt (m : MsgBuffer) (pktIdx : ℕ) : Pkt :=
  ⟨m.pkthdr pktIdx, Chunk.slice m.buf T.kMaxDataPerPkt pktIdx m.dataSize⟩

@[simp] theorem MsgBuffer.pkt_hdr (m : MsgBuffer) (k : ℕ) : (m.pkt T k).hdr = m.pkthdr k := rfl

theorem MsgBuffer.pkt_data (m : MsgBuffer) (k : ℕ) :
    (m.pkt T k).data = Chunk.slice m.buf T.kMaxDataPerPkt k m.dataSize := by
  simp only [MsgBuffer.pkt]

/-- `Rpc::copy_data_to_msgbuf`: the data of a packet, copied at its offset in `msgbuf`. -/
def copyDataToMsgbuf (msgbuf : MsgBuffer) (pktIdx : ℕ) (p : Pkt) : MsgBuffer :=
  { msgbuf with
    buf := Chunk.write msgbuf.buf (pktIdx * T.kMaxDataPerPkt) p.data
      (min T.kMaxDataPerPkt (p.hdr.msgSize - pktIdx * T.kMaxDataPerPkt)) }

/-- Copying packet `k` of `R` into a buffer that holds `R`'s first `k` packets extends it by
that packet. -/
theorem agree_copy_pkt {B R : MsgBuffer} {k : ℕ} (hs : (R.pkthdr k).msgSize = R.dataSize)
    (h : Chunk.Agree B.buf R.buf (k * T.kMaxDataPerPkt)) :
    Chunk.Agree (copyDataToMsgbuf T B k (R.pkt T k)).buf R.buf
      (min ((k + 1) * T.kMaxDataPerPkt) R.dataSize) := by
  simp only [copyDataToMsgbuf, MsgBuffer.pkt_hdr, MsgBuffer.pkt_data, hs]
  exact Chunk.Agree.write_slice h

/-- A buffer that `alloc_msg_buffer` or `resize_msg_buffer` could have produced: the packet count
follows the data size, within the allocation. -/
def MsgBuffer.Sized (m : MsgBuffer) : Prop :=
  m.numPkts = dataSizeToNumPkts T m.dataSize ∧ m.dataSize ≤ m.maxDataSize

instance (m : MsgBuffer) : Decidable (m.Sized T) := inferInstanceAs (Decidable (_ ∧ _))

theorem dataSizeToNumPkts_pos (n : ℕ) : 0 < dataSizeToNumPkts T n := by
  have hD := T.kMaxDataPerPkt_pos
  unfold dataSizeToNumPkts
  split_ifs with h
  · exact Nat.one_pos
  · exact Nat.div_pos (by omega) hD

theorem dataSizeToNumPkts_eq_one {n : ℕ} : dataSizeToNumPkts T n = 1 ↔ n ≤ T.kMaxDataPerPkt := by
  have hD := T.kMaxDataPerPkt_pos
  unfold dataSizeToNumPkts
  split_ifs with h
  · exact ⟨fun _ => h, fun _ => rfl⟩
  · refine ⟨fun h1 => absurd h1 ?_, fun h1 => absurd h1 h⟩
    have : 2 * T.kMaxDataPerPkt ≤ n + T.kMaxDataPerPkt - 1 := by omega
    have := (Nat.le_div_iff_mul_le hD).2 this
    omega

theorem le_dataSizeToNumPkts_mul (n : ℕ) : n ≤ dataSizeToNumPkts T n * T.kMaxDataPerPkt := by
  have hD := T.kMaxDataPerPkt_pos
  unfold dataSizeToNumPkts
  split_ifs with h
  · omega
  · have := Nat.lt_div_mul_add (a := n + T.kMaxDataPerPkt - 1) hD
    omega

/-- Packet `k` of a message of `n` bytes starts inside it: `k * kMaxDataPerPkt < n` for every
packet but the first. -/
theorem mul_lt_of_lt_dataSizeToNumPkts {n k : ℕ} (hk : k < dataSizeToNumPkts T n) (h0 : 0 < k) :
    k * T.kMaxDataPerPkt < n := by
  have hD := T.kMaxDataPerPkt_pos
  unfold dataSizeToNumPkts at hk
  split_ifs at hk with h
  · omega
  · have h1 : (k + 1) * T.kMaxDataPerPkt ≤ n + T.kMaxDataPerPkt - 1 :=
      (Nat.le_div_iff_mul_le hD).1 hk
    rw [Nat.succ_mul] at h1
    omega

/-- More bytes never take fewer packets. -/
theorem dataSizeToNumPkts_mono {a b : ℕ} (h : a ≤ b) : dataSizeToNumPkts T a ≤ dataSizeToNumPkts T b := by
  by_contra hlt
  have h1 := mul_lt_of_lt_dataSizeToNumPkts T (Nat.lt_of_not_le hlt) (dataSizeToNumPkts_pos T b)
  have h2 := le_dataSizeToNumPkts_mul T b
  omega

theorem dataSizeToNumPkts_le {n q : ℕ} (hq : 0 < q) (h : n ≤ q * T.kMaxDataPerPkt) :
    dataSizeToNumPkts T n ≤ q := by
  by_contra hlt
  have := mul_lt_of_lt_dataSizeToNumPkts T (Nat.lt_of_not_le hlt) hq
  omega

end Transport

end ERpc
