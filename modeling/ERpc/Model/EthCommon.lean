import Mathlib
import ERpc.Lib.OnesSum

/-!
# The IPv4 header checksum

`get_ipv4_checksum` (`transport_impl/eth_common.h`) reads an `ipv4_hdr_t` as ten `uint16_t`
words, sums the nine that are not `check_` in 32 bits, folds the high half into the low half once,
subtracts `65535` if that overflowed 16 bits, complements, and maps `0` to `0xFFFF`. The DPDK
transport stores it in `check_` when it formats a packet header (`format_pkthdr`).

The header is its 20 bytes; a word is loaded little-endian, as on the x86 hosts the code targets.
The checksum is `65535` less the words' plain sum modulo `65535`, or `0xFFFF` where that is a
multiple (`getIpv4Checksum_toNat`), and does not read `check_` (`getIpv4Checksum_setCheck`). A
receiver sums the ten words in one's-complement arithmetic (`OnesSum`) and expects all
ones, reading them in network byte order; `Verifies` asks for it in both orders.
-/

namespace ERpc

/-- An `ipv4_hdr_t`: its 20 bytes in memory. -/
structure Ipv4Hdr where
  bytes : Fin 20 → UInt8

namespace Ipv4Hdr

/-- `ptr16[i]`, the `uint16_t` at bytes `2 i` and `2 i + 1`. -/
def ptr16 (h : Ipv4Hdr) (i : Fin 10) : UInt16 :=
  (h.bytes ⟨2 * i, by omega⟩).toUInt16 + (h.bytes ⟨2 * i + 1, by omega⟩).toUInt16 * 256

/-- A store of the `uint16_t` `v` to word `i`. -/
def store16 (h : Ipv4Hdr) (i : Fin 10) (v : UInt16) : Ipv4Hdr :=
  ⟨Function.update (Function.update h.bytes ⟨2 * i, by omega⟩ v.toUInt8) ⟨2 * i + 1, by omega⟩
    (v >>> 8).toUInt8⟩

/-- `ipv4_hdr->check_ = v`: `check_` is word 5. -/
def setCheck (h : Ipv4Hdr) (v : UInt16) : Ipv4Hdr := h.store16 5 v

/-- `ipv4_hdr->tot_len_ = v`: `tot_len_` is word 1. -/
def setTotLen (h : Ipv4Hdr) (v : UInt16) : Ipv4Hdr := h.store16 1 v

/-- The ten words as the host loads them. -/
def hostWords (h : Ipv4Hdr) : List ℕ := (List.finRange 10).map fun i => (h.ptr16 i).toNat

/-- Word `i` in network byte order, as a receiver reads it. -/
def netWord (h : Ipv4Hdr) (i : Fin 10) : ℕ :=
  (h.bytes ⟨2 * i, by omega⟩).toNat * 256 + (h.bytes ⟨2 * i + 1, by omega⟩).toNat

/-- The ten words in network byte order. -/
def netWords (h : Ipv4Hdr) : List ℕ := (List.finRange 10).map h.netWord

/-- The receiver's check: the one's-complement sum of the ten words is all ones, in
either byte order. -/
def Verifies (h : Ipv4Hdr) : Prop :=
  OnesSum.sum 16 h.hostWords = 0xFFFF ∧ OnesSum.sum 16 h.netWords = 0xFFFF

instance (h : Ipv4Hdr) : Decidable h.Verifies := inferInstanceAs (Decidable (_ ∧ _))

end Ipv4Hdr

open Ipv4Hdr

/-- The words `get_ipv4_checksum` adds, in its order. -/
def cksumWords : List (Fin 10) := [0, 1, 2, 3, 4, 6, 7, 8, 9]

def getIpv4Checksum (ipv4Hdr : Ipv4Hdr) : UInt16 :=
  let ptr16 := ipv4Hdr.ptr16
  -- the nine `ip_cksum += ptr16[i]`: every word but `check_`
  let ipCksum : UInt32 := cksumWords.foldl (fun c i => c + (ptr16 i).toUInt32) 0
  let ipCksum := ((ipCksum &&& 0xFFFF0000) >>> 16) + (ipCksum &&& 0x0000FFFF)
  let ipCksum := if ipCksum > 65535 then ipCksum - 65535 else ipCksum
  let ipCksum := (~~~ipCksum) &&& 0x0000FFFF
  let ipCksum := if ipCksum = 0 then 0xFFFF else ipCksum
  ipCksum.toUInt16

/-- `htons` on a little-endian host: the two bytes exchanged. -/
def htons (x : UInt16) : UInt16 := (x <<< 8) ||| (x >>> 8)

/-- The IPv4 part of `format_pkthdr`: the routing info's header with `tot_len_` set for a packet
of `pkt_size` bytes, then the checksum. -/
def formatPkthdrIpv4 (ipv4Hdr : Ipv4Hdr) (pktSize : UInt64) : Ipv4Hdr :=
  let ipv4Hdr := ipv4Hdr.setTotLen (htons (pktSize - 14).toUInt16)
  ipv4Hdr.setCheck (getIpv4Checksum ipv4Hdr)

namespace Ipv4Hdr

section Words

variable (h : Ipv4Hdr)

theorem ptr16_toNat (i : Fin 10) :
    (h.ptr16 i).toNat = (h.bytes ⟨2 * i, by omega⟩).toNat + (h.bytes ⟨2 * i + 1, by omega⟩).toNat * 256 := by
  have h0 := (h.bytes ⟨2 * i, by omega⟩).toNat_lt
  have h1 := (h.bytes ⟨2 * i + 1, by omega⟩).toNat_lt
  simp only [ptr16, UInt16.toNat_add, UInt16.toNat_mul, UInt8.toNat_toUInt16, UInt16.toNat_ofNat]
  omega

theorem ptr16_lt (i : Fin 10) : (h.ptr16 i).toNat < 2 ^ 16 := (h.ptr16 i).toNat_lt

theorem netWord_eq_swap (i : Fin 10) : h.netWord i = OnesSum.swap 8 (h.ptr16 i).toNat := by
  have h0 := (h.bytes ⟨2 * i, by omega⟩).toNat_lt
  have h1 := (h.bytes ⟨2 * i + 1, by omega⟩).toNat_lt
  rw [netWord, OnesSum.swap, ptr16_toNat]
  simp only [Nat.reducePow] at h0 h1 ⊢
  omega

theorem netWords_eq_map_swap : h.netWords = h.hostWords.map (OnesSum.swap 8) := by
  simp only [netWords, hostWords, List.map_map]
  exact List.map_congr_left fun i _ => netWord_eq_swap h i

theorem hostWords_lt : ∀ x ∈ h.hostWords, x < 2 ^ 16 := by
  intro x hx
  obtain ⟨i, -, rfl⟩ := List.mem_map.1 hx
  exact h.ptr16_lt i

/-- A header whose loaded words sum to all ones verifies in network order too. -/
theorem verifies_of_hostWords (hs : OnesSum.sum 16 h.hostWords = 0xFFFF) : h.Verifies :=
  ⟨hs, by
    rw [netWords_eq_map_swap]
    exact OnesSum.sum_map_swap_eq_ones (k := 8) (by decide) h.hostWords_lt hs⟩

theorem hostWords_sum :
    h.hostWords.sum = (cksumWords.map fun i => (h.ptr16 i).toNat).sum + (h.ptr16 5).toNat := by
  simp only [hostWords, cksumWords, List.finRange_succ]
  simp only [Nat.reduceAdd, Fin.isValue, List.finRange_zero, List.map_nil, List.map_cons,
    Fin.succ_zero_eq_one, Fin.succ_one_eq_two, Fin.reduceSucc, List.sum_cons, List.sum_nil, add_zero]
  omega

end Words

section Store

variable (h : Ipv4Hdr) (v : UInt16)

/-- A store puts back the word it stores. -/
@[simp] theorem ptr16_store16_self (i : Fin 10) : (h.store16 i v).ptr16 i = v := by
  apply UInt16.toNat_inj.1
  have hv := v.toNat_lt
  rw [ptr16_toNat]
  simp only [store16, Function.update_self, ne_eq, Fin.mk.injEq, Nat.left_eq_add, one_ne_zero,
    not_false_eq_true, Function.update_of_ne, UInt16.toNat_toUInt8, UInt16.toNat_shiftRight,
    Nat.shiftRight_eq_div_pow]
  simp only [Nat.reducePow, UInt16.reduceToNat, Nat.reduceMod] at hv ⊢
  omega

theorem store16_bytes_of_ne {i : Fin 10} {b : Fin 20} (h1 : b.val ≠ 2 * i) (h2 : b.val ≠ 2 * i + 1) :
    (h.store16 i v).bytes b = h.bytes b := by
  show Function.update (Function.update h.bytes _ _) _ _ b = _
  rw [Function.update_of_ne (fun e => h2 (by rw [e])), Function.update_of_ne (fun e => h1 (by rw [e]))]

/-- A store leaves the other words alone. -/
@[simp] theorem ptr16_store16_of_ne {i j : Fin 10} (hij : j ≠ i) :
    (h.store16 i v).ptr16 j = h.ptr16 j := by
  have hne : j.val ≠ i.val := Fin.val_ne_of_ne hij
  unfold ptr16
  rw [store16_bytes_of_ne h v (by dsimp only; omega) (by dsimp only; omega),
    store16_bytes_of_ne h v (by dsimp only; omega) (by dsimp only; omega)]

end Store

end Ipv4Hdr

section Checksum

theorem foldl_add_toNat {ι : Type} (f : ι → UInt16) (l : List ι) (c : UInt32)
    (hl : c.toNat + (l.map fun i => (f i).toNat).sum < 2 ^ 32) :
    (l.foldl (fun c i => c + (f i).toUInt32) c).toNat = c.toNat + (l.map fun i => (f i).toNat).sum := by
  induction l generalizing c with
  | nil => simp
  | cons i l ih =>
    simp only [List.map_cons, List.sum_cons] at hl
    rw [List.foldl_cons, ih _ (by rw [UInt32.toNat_add, UInt16.toNat_toUInt32]; omega),
      UInt32.toNat_add, UInt16.toNat_toUInt32, List.map_cons, List.sum_cons]
    omega

theorem fold16_toNat (c : UInt32) :
    (((c &&& 0xFFFF0000) >>> 16) + (c &&& 0x0000FFFF)).toNat = c.toNat / 65536 + c.toNat % 65536 := by
  have hc := c.toNat_lt
  have hhi : (c.toNat &&& 0xFFFF0000) >>> 16 = c.toNat / 65536 := by
    rw [Nat.shiftRight_and_distrib, show (0xFFFF0000 : ℕ) >>> 16 = 2 ^ 16 - 1 by decide,
      Nat.and_two_pow_sub_one_eq_mod, Nat.shiftRight_eq_div_pow]
    omega
  have hlo : c.toNat &&& 0x0000FFFF = c.toNat % 65536 := Nat.and_two_pow_sub_one_eq_mod _ 16
  simp only [UInt32.toNat_add, UInt32.toNat_shiftRight, UInt32.toNat_and, UInt32.toNat_ofNat,
    Nat.reducePow, Nat.reduceMod, hhi, hlo]
  omega

theorem not16_toNat (c : UInt32) (hc : c.toNat ≤ 65535) :
    ((~~~c) &&& 0x0000FFFF).toNat = 65535 - c.toNat := by
  simp only [UInt32.toNat_and, UInt32.toNat_not, UInt32.toNat_ofNat]
  rw [show (0x0000FFFF : ℕ) % 2 ^ 32 = 2 ^ 16 - 1 by decide, Nat.and_two_pow_sub_one_eq_mod]
  simp only [UInt32.size]
  omega

/-- The nine words `get_ipv4_checksum` adds, summed. -/
def cksumSum (h : Ipv4Hdr) : ℕ := (cksumWords.map fun i => (h.ptr16 i).toNat).sum

theorem cksumSum_le (h : Ipv4Hdr) : cksumSum h ≤ 9 * 65535 := by
  have hb := h.ptr16_lt
  simp only [cksumSum, cksumWords, List.map_cons, List.map_nil, List.sum_cons, List.sum_nil]
  have := hb 0; have := hb 1; have := hb 2; have := hb 3; have := hb 4
  have := hb 6; have := hb 7; have := hb 8; have := hb 9
  omega

/-- The checksum is `65535` less the nine words' sum modulo `65535`, and `0xFFFF` where that
sum is a multiple of `65535`. -/
theorem getIpv4Checksum_toNat (h : Ipv4Hdr) :
    (getIpv4Checksum h).toNat =
      if cksumSum h % 65535 = 0 then 65535 else 65535 - cksumSum h % 65535 := by
  have hS := cksumSum_le h
  have hsum : (cksumWords.foldl (fun c i => c + (h.ptr16 i).toUInt32) 0).toNat = cksumSum h := by
    rw [foldl_add_toNat _ _ _ (by rw [UInt32.toNat_zero]; unfold cksumSum at hS; omega),
      UInt32.toNat_zero, Nat.zero_add, cksumSum]
  unfold getIpv4Checksum
  dsimp only
  generalize cksumWords.foldl (fun c i => c + (h.ptr16 i).toUInt32) 0 = c at hsum
  have hf := fold16_toNat c
  generalize ((c &&& 0xFFFF0000) >>> 16) + (c &&& 0x0000FFFF) = f at hf
  have hg : (if f > 65535 then f - 65535 else f).toNat =
      if f.toNat > 65535 then f.toNat - 65535 else f.toNat := by
    split_ifs with h1 h2 h2
    · exact UInt32.toNat_sub_of_le _ _ (UInt32.le_of_lt h1)
    · exact absurd (UInt32.lt_iff_toNat_lt.1 h1) h2
    · exact absurd ((UInt32.lt_iff_toNat_lt (a := 65535)).2 h2) h1
    · rfl
  generalize (if f > 65535 then f - 65535 else f) = g at hg
  have hn := not16_toNat g (by split_ifs at hg <;> omega)
  generalize (~~~g) &&& 0x0000FFFF = n at hn
  have hfin : (if n = 0 then 0xFFFF else n).toUInt16.toNat =
      if n.toNat = 0 then 65535 else n.toNat := by
    rw [UInt32.toNat_toUInt16]
    split_ifs with h1 h2 h2
    · rfl
    · exact absurd (by rw [h1]; rfl) h2
    · exact absurd (UInt32.toNat_inj.1 (by rw [h2]; rfl)) h1
    · have := n.toNat_lt
      omega
  rw [hfin, hn, hg, hf, hsum]
  split_ifs <;> omega

/-- A header with `check_` cleared: its checksum is `b8 61` in network order. -/
example : getIpv4Checksum ⟨fun i => [0x45, 0x00, 0x00, 0x73, 0x00, 0x00, 0x40, 0x00, 0x40, 0x11,
    0x00, 0x00, 0xc0, 0xa8, 0x00, 0x01, 0xc0, 0xa8, 0x00, 0xc7].getD i 0⟩ = 0x61b8 := by decide

theorem getIpv4Checksum_pos (h : Ipv4Hdr) : 0 < (getIpv4Checksum h).toNat := by
  rw [getIpv4Checksum_toNat]
  split_ifs <;> omega

theorem cksumSum_setCheck (h : Ipv4Hdr) (v : UInt16) : cksumSum (h.setCheck v) = cksumSum h := by
  simp (disch := decide) only [cksumSum, cksumWords, setCheck, ptr16_store16_of_ne, List.map_cons,
    List.map_nil]

theorem getIpv4Checksum_setCheck (h : Ipv4Hdr) (v : UInt16) :
    getIpv4Checksum (h.setCheck v) = getIpv4Checksum h := by
  have hfold : cksumWords.foldl (fun c i => c + ((h.setCheck v).ptr16 i).toUInt32) 0 =
      cksumWords.foldl (fun c i => c + (h.ptr16 i).toUInt32) 0 := by
    simp (disch := decide) only [cksumWords, setCheck, ptr16_store16_of_ne, List.foldl_cons,
      List.foldl_nil]
  unfold getIpv4Checksum
  dsimp only
  rw [hfold]

theorem hostWords_setCheck_sum (h : Ipv4Hdr) :
    OnesSum.sum 16 (h.setCheck (getIpv4Checksum h)).hostWords = 0xFFFF := by
  have hpos := getIpv4Checksum_pos h
  have hspec := getIpv4Checksum_toNat h
  generalize getIpv4Checksum h = v at hpos hspec ⊢
  have h5 : (h.setCheck v).ptr16 5 = v := ptr16_store16_self h v 5
  refine (OnesSum.sum_eq_ones_iff (by decide) (hostWords_lt _)).2 ⟨?_, v.toNat, ?_, hpos.ne'⟩
  · rw [hostWords_sum, ← cksumSum, cksumSum_setCheck, h5, hspec]
    split_ifs <;> omega
  · exact List.mem_map.2 ⟨5, List.mem_finRange 5, by rw [h5]⟩

/-- The IPv4 header `format_pkthdr` writes verifies, for every routing info and packet size. -/
theorem formatPkthdrIpv4_verifies (h : Ipv4Hdr) (pktSize : UInt64) :
    (formatPkthdrIpv4 h pktSize).Verifies :=
  verifies_of_hostWords _ (hostWords_setCheck_sum _)

/-- Storing the checksum makes the header verify, whatever `check_` held. -/
theorem ipv4_checksum_verifies (h : Ipv4Hdr) : (h.setCheck (getIpv4Checksum h)).Verifies :=
  verifies_of_hostWords _ (hostWords_setCheck_sum h)

end Checksum

end ERpc
