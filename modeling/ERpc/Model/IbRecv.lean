import Mathlib
import ERpc.Lib.Arc
import ERpc.Model.Wire

/-!
# The RECV side of the InfiniBand transport

`IBTransport::init_recvs` (`ib_transport.cc`) links the `kRQDepth` RECV descriptors into a ring,
descriptor `i` over RX ring buffer `i`, breaks the ring after the last one and posts the whole
chain. `IBTransport::post_recvs` (`ib_transport_datapath.cc`) is told how many buffers the Rpc has
finished with; it counts them in `recvs_to_post` and, once `kRecvSlack` have gathered, breaks the
ring after the last of them and posts the chain from `recv_head` to it.

`ibv_post_recv` follows the `next` links from the first descriptor to the broken one
(`recvChain`); the model follows at most `kRQDepth` of them. Posting the whole chain at once with
the driver's fast RECVs (`use_fast_recv`) is left out: the model is the driver without them.
-/

namespace ERpc

open Arc

/-- `IBTransport::kRQDepth`: one RECV descriptor for each RX ring entry. -/
def kRQDepth : ℕ := kNumRxRingEntries

/-- `IBTransport::kRecvSlack`: the RECVs batched before posting. -/
def kRecvSlack : ℕ := 32

/-- `IBTransport` as the datapath sees it: an MTU of 1024 bytes over RoCE and 3840 over
InfiniBand, and no headroom in front of the eRPC header. -/
def Transport.ib (kIsRoCE : Bool) : Transport :=
  ⟨if kIsRoCE then 1024 else 3840, 0, by split <;> decide⟩

/-- The link `init_recvs` gives `recv_wr[i]`: the next descriptor, and the first after the last. -/
def recvWrNext (i : ℕ) : ℕ := if i < kRQDepth - 1 then i + 1 else 0

/-- The descriptors `ibv_post_recv` posts from `recv_wr[first]` when the link of `recv_wr[last]`
is broken, following at most `fuel` links. -/
def recvChain : ℕ → ℕ → ℕ → List ℕ
  | 0, _, _ => []
  | fuel + 1, first, last =>
    if first = last then [first] else first :: recvChain fuel (recvWrNext first) last

/-- The descriptors `init_recvs` posts: the whole ring from `recv_wr[0]`, broken after the last. -/
def initRecvs : List ℕ := recvChain kRQDepth 0 (kRQDepth - 1)

/-- The RECV state of `IBTransport`: `recv_head`, the first descriptor not posted, and
`recvs_to_post`, the buffers the Rpc has finished with since the last post. -/
structure IbRecv where
  recvHead : ℕ
  recvsToPost : ℕ
  deriving DecidableEq, Repr

namespace IbRecv

/-- The values the constructor gives both counters. -/
def init : IbRecv := ⟨0, 0⟩

/-- `IBTransport::post_recvs` for `num_recvs` buffers: the new counters and the descriptors
posted, or `none` where an assertion fails. -/
def postRecvs (t : IbRecv) (numRecvs : ℕ) : Option (IbRecv × List ℕ) :=
  if kRQDepth < numRecvs ∨ kRecvSlack ≤ t.recvsToPost then none
  else
    let recvsToPost := t.recvsToPost + numRecvs
    if recvsToPost < kRecvSlack then some (⟨t.recvHead, recvsToPost⟩, [])
    else
      let firstWrI := t.recvHead
      let lastWrI := firstWrI + (recvsToPost - 1)
      let lastWrI := if lastWrI ≥ kRQDepth then lastWrI - kRQDepth else lastWrI
      -- `recv_head` goes to the last descriptor posted and takes one more step
      some (⟨(lastWrI + 1) % kRQDepth, 0⟩, recvChain kRQDepth firstWrI lastWrI)

end IbRecv

section Chain

theorem kRQDepth_pos : 0 < kRQDepth := by decide

theorem recvWrNext_eq {i : ℕ} (h : i < kRQDepth) : recvWrNext i = (i + 1) % kRQDepth := by
  unfold recvWrNext
  split_ifs with h'
  · rw [Nat.mod_eq_of_lt (by omega)]
  · have : i + 1 = kRQDepth := by omega
    rw [this, Nat.mod_self]

/-- The chain from a descriptor to the one `k` links after it is the arc of `k + 1` buffers from
the first, when the walk has the fuel for it. -/
theorem recvChain_eq_arc : ∀ (k : ℕ) {fuel first : ℕ}, first < kRQDepth → k < fuel →
    k < kRQDepth → recvChain fuel first ((first + k) % kRQDepth) = arc kRQDepth first (k + 1)
  | 0, fuel + 1, first, hf, _, _ => by
    simp only [Nat.add_zero, Nat.zero_add, Nat.mod_eq_of_lt hf, recvChain, if_pos, arc_one]
  | k + 1, fuel + 1, first, hf, hk, hkD => by
    have hne : first ≠ (first + (k + 1)) % kRQDepth := by
      intro h
      have hmod : first + 0 ≡ first + (k + 1) [MOD kRQDepth] := by
        rw [Nat.add_zero]
        exact (Nat.mod_eq_of_lt hf).trans h
      have := Nat.ModEq.add_left_cancel' first hmod
      have := this.eq_of_lt_of_lt kRQDepth_pos hkD
      omega
    have hnext : recvWrNext first < kRQDepth := by
      rw [recvWrNext_eq hf]
      exact Nat.mod_lt _ kRQDepth_pos
    have hlast : (first + (k + 1)) % kRQDepth = (recvWrNext first + k) % kRQDepth := by
      rw [recvWrNext_eq hf, Nat.mod_add_mod, Nat.add_right_comm, Nat.add_assoc]
    have hcongr : (first + 1) % kRQDepth = recvWrNext first % kRQDepth := by
      rw [recvWrNext_eq hf, Nat.mod_mod]
    rw [recvChain, if_neg hne, hlast, recvChain_eq_arc k hnext (by omega) (by omega),
      arc_succ' first (k + 1), Nat.mod_eq_of_lt hf, arc_congr hcongr]

theorem initRecvs_eq : initRecvs = arc kRQDepth 0 kRQDepth := by
  have hlt : kRQDepth - 1 < kRQDepth := Nat.sub_lt kRQDepth_pos Nat.one_pos
  have h := @recvChain_eq_arc (kRQDepth - 1) kRQDepth 0 kRQDepth_pos hlt hlt
  rw [Nat.zero_add, Nat.mod_eq_of_lt hlt, Nat.sub_add_cancel kRQDepth_pos] at h
  exact h

end Chain

namespace IbRecv

/-- What `post_recvs` does, for a head inside the ring and at most a ring of buffers to post:
below the slack it only counts them, and at the slack it posts the arc of all of them from
`recv_head` and moves the head past it. -/
theorem postRecvs_eq {t : IbRecv} {n : ℕ} (hh : t.recvHead < kRQDepth)
    (hs : t.recvsToPost < kRecvSlack) (hn : t.recvsToPost + n ≤ kRQDepth) :
    t.postRecvs n = if t.recvsToPost + n < kRecvSlack then some (⟨t.recvHead, t.recvsToPost + n⟩, [])
      else some (⟨(t.recvHead + (t.recvsToPost + n)) % kRQDepth, 0⟩,
        arc kRQDepth t.recvHead (t.recvsToPost + n)) := by
  have hnot : ¬ (kRQDepth < n ∨ kRecvSlack ≤ t.recvsToPost) := by omega
  simp only [postRecvs, if_neg hnot]
  split_ifs with hlt hwrap
  · rfl
  · have hk : t.recvsToPost + n - 1 < kRQDepth := by omega
    have hlast : t.recvHead + (t.recvsToPost + n - 1) - kRQDepth =
        (t.recvHead + (t.recvsToPost + n - 1)) % kRQDepth := by
      rw [Nat.mod_eq_sub_mod hwrap, Nat.mod_eq_of_lt (by omega)]
    have hnext : (t.recvHead + (t.recvsToPost + n - 1) - kRQDepth + 1) % kRQDepth =
        (t.recvHead + (t.recvsToPost + n)) % kRQDepth := by
      rw [hlast, Nat.mod_add_mod, Nat.add_assoc, Nat.sub_add_cancel (by omega)]
    rw [hnext, hlast, recvChain_eq_arc _ hh (by omega) hk, Nat.sub_add_cancel (by omega)]
  · have hk : t.recvsToPost + n - 1 < kRQDepth := by omega
    have hlast : t.recvHead + (t.recvsToPost + n - 1) =
        (t.recvHead + (t.recvsToPost + n - 1)) % kRQDepth := (Nat.mod_eq_of_lt (by omega)).symm
    have hnext : t.recvHead + (t.recvsToPost + n - 1) + 1 = t.recvHead + (t.recvsToPost + n) := by
      omega
    rw [hnext]
    conv_lhs => rw [hlast]
    rw [recvChain_eq_arc _ hh (by omega) hk, Nat.sub_add_cancel (by omega)]

end IbRecv

end ERpc
