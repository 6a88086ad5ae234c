import Mathlib

/-!
# Selective signaling of InfiniBand SENDs

`IBTransport::tx_burst` (`ib_transport_datapath.cc`) posts a burst of up to `kPostlist` SEND work
requests, one in `kUnsigBatch` of them signaled. `get_signaled_flag` signals a request when `nb_tx`
is a multiple of `kUnsigBatch`, and before it, unless `nb_tx` is 0, polls the send CQ for the
completion of the previous signaled request. The flags are taken in the loop and the requests are
posted together after it. `tx_flush` polls that completion, posts a signaled request of its own,
polls for it and sets `nb_tx` to 0.

The NIC is its send queue: the posted requests it has not retired, in posting order, each
signaled or not. It completes them in order, and polling a completion retires the signaled request
and every one before it; with no signaled request in the queue, `poll_cq_one_helper` waits for
ever, which is `none` here. `nb_tx` is a `size_t`. The scatter lists, inlining and routing of the
requests do not bear on signaling and are left out.

After `N` packets since the last flush, with `N` below `2 ^ 64`, the queue is `sqOf N`: the
signaled request of the last multiple of `kUnsigBatch` below `N`, the requests after it, and,
unless it is the first, the `kUnsigBatch - 1` unsignaled ones before it.
-/

namespace ERpc

def kSQDepth : ℕ := 128

def kUnsigBatch : ℕ := 64

def kPostlist : ℕ := 16

/-- `poll_cq_one_helper (send_cq)` on the NIC's send queue. -/
def pollCqOneHelper : List Bool → Option (List Bool)
  | [] => none
  | true :: sq => some sq
  | false :: sq => pollCqOneHelper sq

/-- `nb_tx` of an `IBTransport`, and the NIC's send queue. -/
structure IbTransport where
  nbTx : UInt64
  sendQueue : List Bool

namespace IbTransport

/-- A transport that has sent nothing. -/
def init : IbTransport := ⟨0, []⟩

def getSignaledFlag (t : IbTransport) : Option (IbTransport × Bool) :=
  if t.nbTx % UInt64.ofNat kUnsigBatch = 0 then
    let sq := if t.nbTx ≠ 0 then pollCqOneHelper t.sendQueue else some t.sendQueue
    sq.map fun sq => (⟨t.nbTx + 1, sq⟩, true)
  else some (⟨t.nbTx + 1, t.sendQueue⟩, false)

/-- The loop of `tx_burst` over `numPkts` packets, with the flags of the requests built so far. -/
def txBurstLoop : ℕ → IbTransport → List Bool → Option (IbTransport × List Bool)
  | 0, t, flags => some (t, flags)
  | n + 1, t, flags => (getSignaledFlag t).bind fun r => txBurstLoop n r.1 (flags ++ [r.2])

/-- `tx_burst (tx_burst_arr, num_pkts)`: one `ibv_post_send` of all the requests after the loop. -/
def txBurst (t : IbTransport) (numPkts : ℕ) : Option IbTransport :=
  (txBurstLoop numPkts t []).map fun r => ⟨r.1.nbTx, r.1.sendQueue ++ r.2⟩

def txFlush (t : IbTransport) : Option IbTransport :=
  if t.nbTx = 0 then some t
  else
    (pollCqOneHelper t.sendQueue).bind fun sq =>
      -- the signaled flush request, and the poll for it
      (pollCqOneHelper (sq ++ [true])).map fun sq => ⟨0, sq⟩

end IbTransport

/-- The send queue after `n` packets since the last flush. -/
def sqOf (n : ℕ) : List Bool :=
  if n = 0 then []
  else
    let g := (n - 1) / kUnsigBatch * kUnsigBatch
    List.replicate (if g = 0 then 0 else kUnsigBatch - 1) false ++
      true :: List.replicate (n - 1 - g) false

/-- The transport after `n` packets since the last flush. -/
def IbTransport.after (n : ℕ) : IbTransport := ⟨UInt64.ofNat n, sqOf n⟩

section Queue

theorem pollCqOneHelper_replicate (a : ℕ) (l : List Bool) :
    pollCqOneHelper (List.replicate a false ++ true :: l) = some l := by
  induction a with
  | zero => rfl
  | succ a ih => rw [List.replicate_succ, List.cons_append, pollCqOneHelper, ih]

@[simp] theorem sqOf_zero : sqOf 0 = [] := rfl

theorem sqOf_pos {n : ℕ} (hn : n ≠ 0) :
    sqOf n = List.replicate (if (n - 1) / 64 * 64 = 0 then 0 else 63) false ++
      true :: List.replicate (n - 1 - (n - 1) / 64 * 64) false := by
  rw [sqOf, if_neg hn]
  rfl

/-- Past a packet that is not a multiple of `kUnsigBatch`, the queue grows by an unsignaled
request. -/
theorem sqOf_succ_of_mod_ne {n : ℕ} (h : n % kUnsigBatch ≠ 0) :
    sqOf (n + 1) = sqOf n ++ [false] := by
  unfold kUnsigBatch at h
  have hn : n ≠ 0 := by omega
  have hg : n / 64 * 64 = (n - 1) / 64 * 64 := by omega
  have hb : n - n / 64 * 64 = n - 1 - (n - 1) / 64 * 64 + 1 := by omega
  rw [sqOf_pos (by omega : n + 1 ≠ 0), sqOf_pos hn, Nat.add_sub_cancel, hb, hg,
    List.replicate_succ', List.append_assoc, List.cons_append]

/-- At a multiple of `kUnsigBatch`, the queue ends with the previous signaled request and the
`kUnsigBatch - 1` after it. -/
theorem sqOf_of_mod_eq_zero {n : ℕ} (hn : n ≠ 0) (h : n % kUnsigBatch = 0) :
    sqOf n = List.replicate (if n = 64 then 0 else 63) false ++
      true :: List.replicate 63 false := by
  unfold kUnsigBatch at h
  have hg : (n - 1) / 64 * 64 = n - 64 := by omega
  rw [sqOf_pos hn, hg, show n - 1 - (n - 64) = 63 by omega]
  congr 2
  by_cases h64 : n = 64
  · simp [h64]
  · simp only [h64, if_false]
    rw [if_neg (by omega)]

theorem sqOf_succ_of_mod_eq_zero {n : ℕ} (hn : n ≠ 0) (h : n % kUnsigBatch = 0) :
    sqOf (n + 1) = List.replicate 63 false ++ [true] := by
  unfold kUnsigBatch at h
  have hg : n / 64 * 64 = n := by omega
  rw [sqOf_pos (by omega : n + 1 ≠ 0), Nat.add_sub_cancel, hg, Nat.sub_self, if_neg hn]
  rfl

theorem sqOf_length_le (n : ℕ) : (sqOf n).length ≤ kSQDepth - 1 := by
  rcases Nat.eq_zero_or_pos n with rfl | hn
  · simp [kSQDepth]
  · rw [sqOf_pos hn.ne']
    simp only [List.length_append, List.length_replicate, List.length_cons, kSQDepth]
    split_ifs <;> omega

theorem sqOf_count_true {n : ℕ} (hn : n ≠ 0) : (sqOf n).count true = 1 := by
  rw [sqOf_pos hn]
  simp [List.count_replicate]

end Queue

namespace IbTransport

section Signal

variable {m : ℕ}

theorem ofNat_mod_eq_zero_iff (hm : m < 2 ^ 64) :
    UInt64.ofNat m % UInt64.ofNat kUnsigBatch = 0 ↔ m % kUnsigBatch = 0 := by
  rw [← UInt64.toNat_inj, UInt64.toNat_mod, UInt64.toNat_ofNat', UInt64.toNat_ofNat',
    Nat.mod_eq_of_lt hm]
  simp [kUnsigBatch]

theorem ofNat_eq_zero_iff (hm : m < 2 ^ 64) : UInt64.ofNat m = 0 ↔ m = 0 := by
  rw [← UInt64.toNat_inj, UInt64.toNat_ofNat', Nat.mod_eq_of_lt hm]
  rfl

/-- One flag of a burst. The queue posted before the burst, with the flags taken so far in it,
is `sqOf m`; while fewer than `kUnsigBatch` flags are pending, the signaled request a poll needs
was posted before the burst. -/
theorem getSignaledFlag_after {sq pend : List Bool} (hinv : sq ++ pend = sqOf m)
    (hlen : pend.length < kUnsigBatch) (hw : m + 1 < 2 ^ 64) :
    ∃ sq' f, getSignaledFlag ⟨UInt64.ofNat m, sq⟩ = some (⟨UInt64.ofNat (m + 1), sq'⟩, f) ∧
      sq' ++ (pend ++ [f]) = sqOf (m + 1) := by
  have hm : m < 2 ^ 64 := by omega
  have hsucc : UInt64.ofNat m + 1 = UInt64.ofNat (m + 1) := (UInt64.ofNat_add m 1).symm
  unfold getSignaledFlag
  dsimp only
  by_cases hmod : m % kUnsigBatch = 0
  · rw [if_pos ((ofNat_mod_eq_zero_iff hm).2 hmod), hsucc]
    by_cases h0 : m = 0
    · subst h0
      refine ⟨sq, true, by simp, ?_⟩
      rw [← List.append_assoc, hinv]
      rfl
    · rw [if_pos (fun h => h0 ((ofNat_eq_zero_iff hm).1 h))]
      obtain ⟨k, hk⟩ : ∃ k, pend.length = k := ⟨_, rfl⟩
      have hk63 : k ≤ 63 := by unfold kUnsigBatch at hlen; omega
      have hsplit : sqOf m = (List.replicate (if m = 64 then 0 else 63) false ++
          true :: List.replicate (63 - k) false) ++ List.replicate k false := by
        rw [sqOf_of_mod_eq_zero h0 hmod, List.append_assoc, List.cons_append,
          ← List.replicate_add, Nat.sub_add_cancel hk63]
      rw [hsplit] at hinv
      obtain ⟨rfl, rfl⟩ := List.append_inj' hinv (by simp [hk])
      refine ⟨List.replicate (63 - k) false, true, ?_, ?_⟩
      · rw [pollCqOneHelper_replicate]
        rfl
      · rw [sqOf_succ_of_mod_eq_zero h0 hmod, ← List.append_assoc, ← List.replicate_add,
          Nat.sub_add_cancel hk63]
  · rw [if_neg (fun h => hmod ((ofNat_mod_eq_zero_iff hm).1 h)), hsucc]
    refine ⟨sq, false, rfl, ?_⟩
    rw [← List.append_assoc, hinv, sqOf_succ_of_mod_ne hmod]

/-- The loop of a burst of at most `kPostlist` packets keeps the queue and its pending flags
together equal to `sqOf`; the induction is on the packets left. -/
theorem txBurstLoop_after (k : ℕ) :
    ∀ {m : ℕ} {sq pend : List Bool}, sq ++ pend = sqOf m → pend.length + k ≤ kPostlist →
      m + k < 2 ^ 64 → ∃ sq' pend', txBurstLoop k ⟨UInt64.ofNat m, sq⟩ pend =
        some (⟨UInt64.ofNat (m + k), sq'⟩, pend') ∧ sq' ++ pend' = sqOf (m + k) := by
  induction k with
  | zero => exact fun hinv _ _ => ⟨_, _, rfl, hinv⟩
  | succ k ih =>
    intro m sq pend hinv hlen hw
    have hlen1 : pend.length < kUnsigBatch := by unfold kPostlist at hlen; unfold kUnsigBatch; omega
    obtain ⟨sq1, f, hf, hinv1⟩ := getSignaledFlag_after hinv hlen1 (by omega)
    have hlen' : (pend ++ [f]).length + k ≤ kPostlist := by
      rw [List.length_append, List.length_singleton]
      omega
    obtain ⟨sq', pend', hloop, hinv'⟩ := ih hinv1 hlen' (by omega)
    rw [Nat.add_right_comm] at hloop hinv'
    refine ⟨sq', pend', ?_, hinv'⟩
    rw [txBurstLoop, hf, Option.bind_some]
    exact hloop

theorem txBurst_after {n numPkts : ℕ} (hp : numPkts ≤ kPostlist) (hw : n + numPkts < 2 ^ 64) :
    (after n).txBurst numPkts = some (after (n + numPkts)) := by
  obtain ⟨sq', pend', hloop, hinv⟩ := @txBurstLoop_after numPkts n (sqOf n) []
    (List.append_nil _) (by simpa using hp) hw
  rw [txBurst, after, hloop, Option.map_some]
  dsimp only
  rw [hinv]
  rfl

/-- A flush after `n` packets polls the one signaled request, posts and polls its own, and
leaves an empty queue. -/
theorem txFlush_after {n : ℕ} (hw : n < 2 ^ 64) : (after n).txFlush = some init := by
  unfold txFlush after
  dsimp only
  by_cases h0 : n = 0
  · subst h0
    rfl
  · rw [if_neg (fun h => h0 ((ofNat_eq_zero_iff hw).1 h)), sqOf_pos h0, pollCqOneHelper_replicate,
      Option.bind_some, pollCqOneHelper_replicate]
    rfl

end Signal

end IbTransport

end ERpc
