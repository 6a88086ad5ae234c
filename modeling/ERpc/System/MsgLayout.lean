import ERpc.System.ServerAlloc

/-!
# Where a MsgBuffer's packet headers and data lie

A dynamic `MsgBuffer` (`msg_buffer.h`) lives in the hugepage `Buffer` that `alloc_msg_buffer`
took for it: the zeroth packet header at the Buffer's start, the data right after it at `buf_`,
and the headers of the other packets after the data rounded up to 8 bytes
(`get_pkthdr_n`). `alloc_msg_buffer` asks for `max_data_size` bytes and one header per packet,
which does not count the rounding; the allocator's class sizes are multiples of 64 and a header is
16 or 56 bytes, so the rounding fits in what the request leaves of the class (`Fits.layout`).

`kMaxMsgSize` keeps every request within the largest class for transports with an MTU of at most
4 KiB, which all of the code's transports have (`msgBufferAllocSize_le`). A resize changes only
the sizes, never the places (`Fits.resize`).
-/

namespace ERpc

open Extent HugeAlloc Transition

def kMaxMsgSize (T : Transport) : ℕ :=
  kMaxClassSize - kMaxClassSize / T.kMaxDataPerPkt * T.pkthdrSize

/-- `round_up<sizeof (size_t)>`: the bit mask of the code, written as a multiple. -/
def roundUp8 (x : ℕ) : ℕ := (x + 7) / 8 * 8

/-- The address fields of a dynamic `MsgBuffer`: `buffer_`, the sizes, and `buf_`. -/
structure MsgBufAddr where
  buffer : Buffer
  maxDataSize : ℕ
  dataSize : ℕ
  maxNumPkts : ℕ
  numPkts : ℕ
  buf : ℕ

namespace MsgBufAddr

variable (T : Transport)

/-- `MsgBuffer::MsgBuffer (buffer, max_data_size, max_num_pkts)` -/
def init (buffer : Buffer) (maxDataSize maxNumPkts : ℕ) : MsgBufAddr :=
  ⟨buffer, maxDataSize, maxDataSize, maxNumPkts, maxNumPkts, buffer.buf + T.pkthdrSize⟩

def getPkthdr0 (m : MsgBufAddr) : ℕ := m.buf - T.pkthdrSize

def getPkthdrN (m : MsgBufAddr) (n : ℕ) : ℕ :=
  if n = 0 then m.getPkthdr0 T else m.buf + roundUp8 m.maxDataSize + (n - 1) * T.pkthdrSize

def resize (m : MsgBufAddr) (newDataSize newNumPkts : ℕ) : MsgBufAddr :=
  { m with dataSize := newDataSize, numPkts := newNumPkts }

def resizeMsgBuffer (m : MsgBufAddr) (newDataSize : ℕ) : MsgBufAddr :=
  m.resize newDataSize (dataSizeToNumPkts T newDataSize)

/-- The ranges `(start, length)` the MsgBuffer uses now: the zeroth header, the data, and the
headers of packets `1` to `num_pkts_ - 1`. -/
def regions (m : MsgBufAddr) : List (ℕ × ℕ) :=
  (m.getPkthdrN T 0, T.pkthdrSize) :: (m.buf, m.dataSize) ::
    (List.range' 1 (m.numPkts - 1)).map fun n => (m.getPkthdrN T n, T.pkthdrSize)

/-- What makes the layout fit: `buf_` one header into the Buffer, a class size and a header size
that are multiples of 8, at least one packet, room for the data and every header, and sizes
resized down only. -/
structure Fits (m : MsgBufAddr) : Prop where
  buf_eq : m.buf = m.buffer.buf + T.pkthdrSize
  pkts_pos : 0 < m.maxNumPkts
  class_dvd : 8 ∣ m.buffer.classSize
  hdr_dvd : 8 ∣ T.pkthdrSize
  room : m.maxDataSize + m.maxNumPkts * T.pkthdrSize ≤ m.buffer.classSize
  data_le : m.dataSize ≤ m.maxDataSize
  pkts_le : m.numPkts ≤ m.maxNumPkts

variable {T} {m : MsgBufAddr}

theorem Fits.resize (h : Fits T m) {d n : ℕ} (hd : d ≤ m.maxDataSize) (hn : n ≤ m.maxNumPkts) :
    Fits T (m.resize d n) :=
  { h with data_le := hd, pkts_le := hn }

/-- The rounded data and every header fit the class: the class and the headers are multiples of
8, so what the data leaves of the class is one too. -/
theorem Fits.roundUp8_le (h : Fits T m) :
    roundUp8 m.maxDataSize + m.maxNumPkts * T.pkthdrSize ≤ m.buffer.classSize := by
  obtain ⟨a, ha⟩ := h.class_dvd
  obtain ⟨k, hk⟩ := Dvd.dvd.mul_left h.hdr_dvd m.maxNumPkts
  have hroom := h.room
  rw [ha, hk] at hroom ⊢
  unfold roundUp8
  omega

theorem Fits.getPkthdrN_succ (h : Fits T m) (n : ℕ) :
    m.getPkthdrN T (n + 1) = m.buffer.buf + T.pkthdrSize + roundUp8 m.maxDataSize + n * T.pkthdrSize := by
  rw [getPkthdrN, if_neg (Nat.succ_ne_zero n), h.buf_eq, Nat.add_sub_cancel]

theorem Fits.getPkthdrN_succ_end (h : Fits T m) (n : ℕ) :
    m.getPkthdrN T (n + 1) + T.pkthdrSize = m.getPkthdrN T (n + 2) := by
  rw [h.getPkthdrN_succ, h.getPkthdrN_succ, Nat.succ_mul]
  omega

/-- The MsgBuffer's ranges do not meet, and each lies in its Buffer. -/
theorem Fits.layout (h : Fits T m) :
    (m.regions T).Pairwise (Apart Prod.fst Prod.snd) ∧
      ∀ r ∈ m.regions T, Within Prod.fst Prod.snd r m.buffer.buf m.buffer.classSize := by
  have hru := h.roundUp8_le
  have hbuf := h.buf_eq
  have hdata := h.data_le
  have hpkts := h.pkts_le
  have h0 : m.getPkthdrN T 0 = m.buffer.buf := by
    rw [getPkthdrN, if_pos rfl, getPkthdr0, hbuf, Nat.add_sub_cancel]
  have hH : T.pkthdrSize ≤ m.maxNumPkts * T.pkthdrSize := Nat.le_mul_of_pos_left _ h.pkts_pos
  have hD : m.maxDataSize ≤ roundUp8 m.maxDataSize := by
    unfold roundUp8
    omega
  have hhdr : ∀ n ∈ List.range' 1 (m.numPkts - 1),
      m.buf + roundUp8 m.maxDataSize ≤ m.getPkthdrN T n ∧
        m.getPkthdrN T n + T.pkthdrSize ≤ m.buffer.buf + m.buffer.classSize := by
    intro n hn
    obtain ⟨j, rfl⟩ : ∃ j, n = j + 1 := ⟨n - 1, by rw [List.mem_range'_1] at hn; omega⟩
    have hj : j + 1 < m.numPkts := by rw [List.mem_range'_1] at hn; omega
    have hle : (j + 1 + 1) * T.pkthdrSize ≤ m.maxNumPkts * T.pkthdrSize :=
      Nat.mul_le_mul_right _ (by omega)
    rw [Nat.succ_mul, Nat.succ_mul] at hle
    rw [h.getPkthdrN_succ]
    omega
  refine ⟨List.pairwise_cons.2 ⟨?_, List.pairwise_cons.2 ⟨?_, ?_⟩⟩, ?_⟩
  · intro r hr
    rcases List.mem_cons.1 hr with rfl | hr
    · exact .inl (by rw [h0, hbuf])
    · obtain ⟨n, hn, rfl⟩ := List.mem_map.1 hr
      exact .inl (by rw [h0]; have := (hhdr n hn).1; omega)
  · intro r hr
    obtain ⟨n, hn, rfl⟩ := List.mem_map.1 hr
    exact .inl (by have := (hhdr n hn).1; dsimp only; omega)
  · refine List.pairwise_map.2 (List.Pairwise.imp_of_mem ?_ List.pairwise_lt_range')
    intro a b ha hb hab
    obtain ⟨j, rfl⟩ : ∃ j, a = j + 1 := ⟨a - 1, by rw [List.mem_range'_1] at ha; omega⟩
    obtain ⟨k, rfl⟩ : ∃ k, b = k + 1 := ⟨b - 1, by rw [List.mem_range'_1] at hb; omega⟩
    have hmul : (j + 1) * T.pkthdrSize ≤ k * T.pkthdrSize := Nat.mul_le_mul_right _ (by omega)
    refine .inl ?_
    dsimp only
    rw [h.getPkthdrN_succ, h.getPkthdrN_succ, Nat.succ_mul] at *
    omega
  · intro r hr
    rcases List.mem_cons.1 hr with rfl | hr
    · refine ⟨by rw [h0], ?_⟩
      rw [h0]
      omega
    rcases List.mem_cons.1 hr with rfl | hr
    · exact ⟨by rw [hbuf]; omega, by dsimp only; omega⟩
    · obtain ⟨n, hn, rfl⟩ := List.mem_map.1 hr
      exact ⟨by have := (hhdr n hn).1; dsimp only; omega, (hhdr n hn).2⟩

end MsgBufAddr

section Alloc

variable {T : Transport}

/-- `kMaxMsgSize` keeps the request of `alloc_msg_buffer` within the largest class: what the
largest class leaves past its last full packet is less than an MTU, which the headers of its
more than 2000 packets cover. -/
theorem msgBufferAllocSize_le (hmtu : T.kMTU ≤ 4096) {d : ℕ} (h1 : 1 ≤ d) (hd : d ≤ kMaxMsgSize T) :
    msgBufferAllocSize T d ≤ kMaxClassSize := by
  have hP := T.kMaxDataPerPkt_pos
  have hPle : T.kMaxDataPerPkt ≤ 4080 := by
    unfold Transport.kMaxDataPerPkt Transport.pkthdrSize
    omega
  have hH : 16 ≤ T.pkthdrSize := Nat.le_add_left 16 _
  obtain ⟨q, hq⟩ : ∃ q, q = kMaxClassSize / T.kMaxDataPerPkt := ⟨_, rfl⟩
  have hsplit := Nat.div_add_mod kMaxClassSize T.kMaxDataPerPkt
  have hr := Nat.mod_lt kMaxClassSize hP
  have hq2056 : 2056 ≤ q := by
    rw [hq]
    exact (show 2056 ≤ kMaxClassSize / 4080 by decide).trans (Nat.div_le_div_left hPle hP)
  have hqH : 2056 * 16 ≤ q * T.pkthdrSize := Nat.mul_le_mul hq2056 hH
  rw [← hq] at hsplit
  unfold kMaxMsgSize at hd
  rw [← hq] at hd
  have hfit : d ≤ q * T.kMaxDataPerPkt := by
    rw [Nat.mul_comm q]
    omega
  have hN := dataSizeToNumPkts_le T (n := d) (q := q) (by omega) hfit
  have hNH : dataSizeToNumPkts T d * T.pkthdrSize ≤ q * T.pkthdrSize := Nat.mul_le_mul_right _ hN
  unfold msgBufferAllocSize
  omega

/-- A MsgBuffer that `alloc_msg_buffer` makes from a freelist of well-sized Buffers fits its
Buffer, for the code's two headroom sizes. -/
theorem fits_allocMsgBuffer (hH : T.kHeadroom = 0 ∨ T.kHeadroom = 40) {ha : HugeAlloc}
    (hf : FreeClassed ha.freelist) {d : ℕ} (h1 : 1 ≤ d)
    (hk : msgBufferAllocSize T d ≤ kMaxClassSize) {raw : Option ℕ} {b : Buffer}
    (hb : (HugeAlloc.allocMsgBuffer T ha d raw).2 = some b) :
    MsgBufAddr.Fits T (MsgBufAddr.init T b d (dataSizeToNumPkts T d)) := by
  have hR : 1 ≤ msgBufferAllocSize T d := le_trans h1 (Nat.le_add_right _ _)
  have hclass := alloc_classSize hf (getClass_lt hR hk) hb
  refine ⟨rfl, dataSizeToNumPkts_pos T d, ?_, ?_, ?_, le_rfl, le_rfl⟩
  · show 8 ∣ b.classSize
    rw [hclass, classMaxSize, kMinClassSize]
    exact Dvd.dvd.mul_right (by decide) _
  · rcases hH with hH | hH <;> simp [Transport.pkthdrSize, hH]
  · show msgBufferAllocSize T d ≤ b.classSize
    rw [hclass]
    exact (getClass_spec hR).1

/-- For every size up to `kMaxMsgSize`, on any allocator reached by allocations and frees,
`alloc_msg_buffer` asks at most the largest class, and a MsgBuffer it returns, resized by
`resize_msg_buffer` to any smaller size or not, has its headers and data apart from one another
and inside its Buffer. -/
theorem msg_buffer_layout_fits (T : Transport) (hH : T.kHeadroom = 0 ∨ T.kHeadroom = 40)
    (hmtu : T.kMTU ≤ 4096) {initialSize : ℕ} {w : HaSys}
    (hr : Reachable HaSys.step (HaSys.init initialSize) w) {maxDataSize : ℕ}
    (h1 : 1 ≤ maxDataSize) (h2 : maxDataSize ≤ kMaxMsgSize T) (raw : Option ℕ) :
    msgBufferAllocSize T maxDataSize ≤ kMaxClassSize ∧
      ∀ b, (HugeAlloc.allocMsgBuffer T w.ha maxDataSize raw).2 = some b → ∀ d ≤ maxDataSize,
        let m := (MsgBufAddr.init T b maxDataSize (dataSizeToNumPkts T maxDataSize)).resizeMsgBuffer T d
        (m.regions T).Pairwise (Apart Prod.fst Prod.snd) ∧
          ∀ r ∈ m.regions T, Within Prod.fst Prod.snd r b.buf b.classSize := by
  have hk := msgBufferAllocSize_le hmtu h1 h2
  refine ⟨hk, fun b hb d hd => ?_⟩
  have hfits := fits_allocMsgBuffer hH (HaSys.haInv_of_reachable hr).classed h1 hk hb
  exact (hfits.resize hd (dataSizeToNumPkts_mono T hd)).layout

theorem twoAllocsRun_msgBuffer : ∃ w, Reachable HaSys.step (HaSys.init 0) w ∧
    (HugeAlloc.allocMsgBuffer Transport.dpdk w.ha 1000 none).2.isSome :=
  Reachable.exists_of_run HaSys.twoAllocsRun (by decide)

/-- A 1000-byte MsgBuffer on the DPDK transport, allocated after two user allocations from the
halves their splits left, and then resized to 500 bytes. -/
theorem msg_buffer_layout_fits_dpdk : ∃ w b, Reachable HaSys.step (HaSys.init 0) w ∧
    (HugeAlloc.allocMsgBuffer Transport.dpdk w.ha 1000 none).2 = some b ∧
      let m := (MsgBufAddr.init Transport.dpdk b 1000
        (dataSizeToNumPkts Transport.dpdk 1000)).resizeMsgBuffer Transport.dpdk 500
      (m.regions Transport.dpdk).Pairwise (Apart Prod.fst Prod.snd) ∧
        ∀ r ∈ m.regions Transport.dpdk, Within Prod.fst Prod.snd r b.buf b.classSize := by
  obtain ⟨w, hr, hs⟩ := twoAllocsRun_msgBuffer
  obtain ⟨b, hb⟩ := Option.isSome_iff_exists.1 hs
  exact ⟨w, b, hr, hb, (msg_buffer_layout_fits Transport.dpdk (.inr rfl) (by decide) hr
    (by decide) (by decide) none).2 b hb 500 (by decide)⟩

end Alloc

end ERpc
