import Mathlib
import ERpc.Lib.Reach
import ERpc.Model.IbRecv
import ERpc.Model.IbTransport
import ERpc.Model.Server

/-!
# The receive path of an Rpc over InfiniBand

The NIC, the RECV side of `IBTransport` and the RX loop of `Rpc::process_comps_st`
(`rpc_rx.cc`) share the `kNumRxRingEntries` buffers of the RX ring. The NIC keeps a queue of
posted RECVs and places each packet it receives in the buffer of the first of them, with a
completion at the back of its completion queue. `rx_burst` polls up to `kPostlist` completions,
and the Rpc then reads the packets from the RX ring entries at `rx_ring_head_` on: it never looks
at which buffer a completion names. Afterwards `post_recvs` hands the buffers back, in batches of
`kRecvSlack`.

The RX ring is the only thing this system shares with the rest of the event loop, so the Rpc here
runs its RX path alone. In every reachable state each buffer of the ring is in one place: handed
back but not yet posted, filled with a completion not yet polled, or posted and empty
(`recv_buffers_partition_ring`); the completions name the buffers the Rpc reads next; and the
Rpc has processed, once each and in order of arrival, every packet the NIC placed except those
still waiting in the completion queue (`rx_ring_delivers_in_order`). No assertion of
`post_recvs` fails, the RECV queue never holds more than `max_recv_wr` and the completion queue
never overruns (`rx_path_never_fails`).
-/

namespace ERpc

open Arc Transition

/-- `ibv_post_recv` on a queue created with `max_recv_wr = kRQDepth`: the chain goes to the back
of the RECV queue, and posting more than the queue holds fails. -/
def ibvPostRecv (rq wrs : List ℕ) : Option (List ℕ) :=
  if kRQDepth < rq.length + wrs.length then none else some (rq ++ wrs)

/-- The NIC, the RECV state of the transport and the RX side of the Rpc. -/
structure RxSys where
  tr : IbRecv
  rxRingHead : ℕ
  rpc : Rpc
  rq : List ℕ
  cq : List ℕ
  buf : ℕ → Pkt
  arrived : List Pkt

/-- What can happen next: a packet reaches the NIC, or the event loop runs `process_comps_st`. -/
inductive RxAct
  | nicRecv (p : Pkt)
  | comps

namespace RxSys

variable (T : Transport) (pacing : Bool)

/-- The NIC receives `p` into the buffer of its first posted RECV. With no RECV posted the packet
is dropped; a completion queue that already holds its `kRQDepth` entries overruns. -/
def nicRecv (s : RxSys) (p : Pkt) : Option RxSys :=
  match s.rq with
  | [] => some s
  | i :: rq =>
    if kRQDepth ≤ s.cq.length then none
    else some { s with
      rq := rq
      cq := s.cq ++ [i]
      buf := Function.update s.buf i p
      arrived := s.arrived ++ [p] }

/-- The loop of `process_comps_st` over `num` packets: take the packet in the RX ring entry at
`rx_ring_head_`, advance the head, and process the packet. -/
def rxLoop (buf : ℕ → Pkt) : ℕ → ℕ → Rpc → ℕ × Rpc
  | 0, head, rpc => (head, rpc)
  | num + 1, head, rpc =>
    rxLoop buf num ((head + 1) % kNumRxRingEntries) (Rpc.processPkt T pacing rpc (buf head))

/-- `Rpc::process_comps_st` with `rx_burst` and `post_recvs` of the transport; `none` where an
assertion fails or the NIC refuses the RECVs. -/
def processCompsSt (s : RxSys) : Option RxSys :=
  -- `ibv_poll_cq (recv_cq, kPostlist, recv_wc)` returns the first completions of the queue
  let numPkts := min kPostlist s.cq.length
  if numPkts = 0 then some s
  else
    let (rxRingHead, rpc) := rxLoop T pacing s.buf numPkts s.rxRingHead s.rpc
    match s.tr.postRecvs numPkts with
    | none => none
    | some (tr, wrs) =>
      match ibvPostRecv s.rq wrs with
      | none => none
      | some rq => some { s with
          tr := tr
          rq := rq
          cq := s.cq.drop numPkts
          rxRingHead := rxRingHead
          rpc := rpc }

/-- One step of the system. -/
def step (s : RxSys) : RxAct → Option RxSys
  | .nicRecv p => s.nicRecv p
  | .comps => s.processCompsSt T pacing

/-- After `init_recvs`: every RX ring buffer posted in ring order, and nothing received. The
initial contents of the buffers are whatever they are. -/
def init (rpc : Rpc) (buf : ℕ → Pkt) : RxSys :=
  ⟨IbRecv.init, 0, rpc, initRecvs, [], buf, []⟩

section Steps

variable {T pacing}

theorem rxLoop_eq (buf : ℕ → Pkt) : ∀ (n : ℕ) {head : ℕ} (rpc : Rpc), head < kRQDepth →
    rxLoop T pacing buf n head rpc =
      ((head + n) % kRQDepth, Rpc.processCompsSt T pacing rpc ((arc kRQDepth head n).map buf))
  | 0, head, rpc, hh => by
    simp [rxLoop, Rpc.processCompsSt, Nat.mod_eq_of_lt hh]
  | n + 1, head, rpc, hh => by
    have hnext : (head + 1) % kRQDepth < kRQDepth := Nat.mod_lt _ kRQDepth_pos
    rw [rxLoop, show kNumRxRingEntries = kRQDepth from rfl, rxLoop_eq buf n _ hnext, arc_succ',
      Nat.mod_eq_of_lt hh, arc_congr (Nat.mod_mod (head + 1) kRQDepth), Nat.mod_add_mod,
      Nat.add_assoc, Nat.add_comm 1 n]
    rfl

theorem nicRecv_eq_some {s t : RxSys} {p : Pkt} (h : s.nicRecv p = some t) :
    (s.rq = [] ∧ t = s) ∨ ∃ i rq, s.rq = i :: rq ∧ s.cq.length < kRQDepth ∧
      t = { s with
        rq := rq
        cq := s.cq ++ [i]
        buf := Function.update s.buf i p
        arrived := s.arrived ++ [p] } := by
  unfold nicRecv at h
  split at h
  · exact .inl ⟨‹_›, (Option.some.inj h).symm⟩
  · split_ifs at h with hc
    exact .inr ⟨_, _, ‹_›, by omega, (Option.some.inj h).symm⟩

end Steps

/-- What holds in every reachable state. Read round the ring from `recv_head`, the buffers are:
those handed back and not yet posted, up to `rx_ring_head_`; those with a completion not yet
polled; and those posted to the NIC. The packets in the buffers with a completion are the last to
have arrived, after those the Rpc has processed. -/
structure Inv (T : Transport) (pacing : Bool) (rpc0 : Rpc) (s : RxSys) : Prop where
  head : s.rxRingHead < kRQDepth
  recvHead : s.tr.recvHead < kRQDepth
  slack : s.tr.recvsToPost < kRecvSlack
  toPost : s.rxRingHead = (s.tr.recvHead + s.tr.recvsToPost) % kRQDepth
  room : s.cq.length + s.tr.recvsToPost ≤ kRQDepth
  cq : s.cq = arc kRQDepth s.rxRingHead s.cq.length
  rq : s.rq = arc kRQDepth (s.rxRingHead + s.cq.length)
    (kRQDepth - s.tr.recvsToPost - s.cq.length)
  delivered : ∃ pre, s.arrived = pre ++ s.cq.map s.buf ∧
    s.rpc = Rpc.processCompsSt T pacing rpc0 pre

section Inv

variable {T pacing} {rpc0 : Rpc} {s t : RxSys}

theorem Inv.init (buf0 : ℕ → Pkt) : Inv T pacing rpc0 (init rpc0 buf0) where
  head := kRQDepth_pos
  recvHead := kRQDepth_pos
  slack := show 0 < kRecvSlack by decide
  toPost := rfl
  room := Nat.zero_le _
  cq := rfl
  rq := initRecvs_eq
  delivered := ⟨[], rfl, rfl⟩

theorem Inv.nicRecv {p : Pkt} (hi : Inv T pacing rpc0 s) (h : s.nicRecv p = some t) :
    Inv T pacing rpc0 t := by
  rcases nicRecv_eq_some h with ⟨-, rfl⟩ | ⟨i, rq, hrq, hlt, rfl⟩
  · exact hi
  obtain ⟨pre, harr, hrpc⟩ := hi.delivered
  have hrq' := hi.rq
  obtain ⟨m, hm⟩ : ∃ m, kRQDepth - s.tr.recvsToPost - s.cq.length = m + 1 := by
    have h := congrArg List.length hrq'
    rw [hrq, length_arc, List.length_cons] at h
    exact ⟨_, h.symm⟩
  rw [hm, arc_succ', hrq, List.cons.injEq] at hrq'
  obtain ⟨rfl, rfl⟩ := hrq'
  have hcq : s.cq ++ [(s.rxRingHead + s.cq.length) % kRQDepth] =
      arc kRQDepth s.rxRingHead (s.cq.length + 1) := by
    rw [arc_succ, ← hi.cq]
  have hfresh : (s.rxRingHead + s.cq.length) % kRQDepth ∉ s.cq := by
    have hnd := nodup_arc (D := kRQDepth) s.rxRingHead (n := s.cq.length + 1) (by omega)
    rw [← hcq, List.nodup_append] at hnd
    exact fun hmem => hnd.2.2 _ hmem _ (List.mem_singleton_self _) rfl
  have hmap : s.cq.map (Function.update s.buf ((s.rxRingHead + s.cq.length) % kRQDepth) p) =
      s.cq.map s.buf :=
    List.map_congr_left fun _ hj => Function.update_of_ne (ne_of_mem_of_not_mem hj hfresh) _ _
  refine ⟨hi.head, hi.recvHead, hi.slack, hi.toPost, ?_, ?_, ?_, ?_⟩
  · simp only [List.length_append, List.length_singleton]
    omega
  · simpa only [List.length_append, List.length_singleton] using hcq
  · simp only [List.length_append, List.length_singleton]
    rw [← Nat.add_assoc, show m = kRQDepth - s.tr.recvsToPost - (s.cq.length + 1) by omega]
  · refine ⟨pre, ?_, hrpc⟩
    simp only [List.map_append, List.map_singleton, Function.update_self, hmap, harr,
      List.append_assoc]

theorem take_cq (hi : Inv T pacing rpc0 s) {n : ℕ} (hn : n ≤ s.cq.length) :
    s.cq.take n = arc kRQDepth s.rxRingHead n := by
  rw [congrArg (List.take n) hi.cq, take_arc _ hn]

theorem drop_cq (hi : Inv T pacing rpc0 s) {n : ℕ} (hn : n ≤ s.cq.length) :
    s.cq.drop n = arc kRQDepth ((s.rxRingHead + n) % kRQDepth) (s.cq.length - n) := by
  rw [congrArg (List.drop n) hi.cq, drop_arc _ hn, arc_congr (Nat.mod_mod _ _).symm]

/-- What `process_comps_st` does with `n` completions to poll: read their packets from the RX
ring and process them, and hand the buffers to `post_recvs`, which below the slack only counts
them and at the slack posts every buffer handed back since the last post. -/
theorem processCompsSt_of_pos (hi : Inv T pacing rpc0 s) {n : ℕ}
    (hn : min kPostlist s.cq.length = n) (h0 : 0 < n) :
    s.processCompsSt T pacing = some { s with
      tr := if s.tr.recvsToPost + n < kRecvSlack then ⟨s.tr.recvHead, s.tr.recvsToPost + n⟩
        else ⟨(s.tr.recvHead + (s.tr.recvsToPost + n)) % kRQDepth, 0⟩
      rq := if s.tr.recvsToPost + n < kRecvSlack then s.rq
        else s.rq ++ arc kRQDepth s.tr.recvHead (s.tr.recvsToPost + n)
      cq := s.cq.drop n
      rxRingHead := (s.rxRingHead + n) % kRQDepth
      rpc := Rpc.processCompsSt T pacing s.rpc ((s.cq.take n).map s.buf) } := by
  have hnc : n ≤ s.cq.length := hn ▸ min_le_right _ _
  have hroom := hi.room
  have hlen : s.rq.length = kRQDepth - s.tr.recvsToPost - s.cq.length := by
    rw [hi.rq, length_arc]
  unfold processCompsSt
  rw [hn, if_neg (Nat.pos_iff_ne_zero.1 h0), rxLoop_eq _ _ _ hi.head,
    IbRecv.postRecvs_eq hi.recvHead hi.slack (by omega), take_cq hi hnc]
  split_ifs with hslack
  · dsimp only
    rw [ibvPostRecv, if_neg (by simp only [List.length_nil]; omega), List.append_nil]
  · dsimp only
    rw [ibvPostRecv, if_neg (by simp only [length_arc]; omega)]

theorem Inv.processCompsSt (hi : Inv T pacing rpc0 s) (h : s.processCompsSt T pacing = some t) :
    Inv T pacing rpc0 t := by
  obtain ⟨n, hn⟩ : ∃ n, min kPostlist s.cq.length = n := ⟨_, rfl⟩
  rcases Nat.eq_zero_or_pos n with h0 | h0
  · have hnone : s.processCompsSt T pacing = some s := by
      unfold RxSys.processCompsSt
      rw [hn, if_pos h0]
    rw [hnone, Option.some.injEq] at h
    exact h ▸ hi
  rw [processCompsSt_of_pos hi hn h0, Option.some.injEq] at h
  subst h
  have hnc : n ≤ s.cq.length := hn ▸ min_le_right _ _
  have hroom := hi.room
  have hslackLt := hi.slack
  obtain ⟨pre, harr, hrpc⟩ := hi.delivered
  have htoPost : (s.rxRingHead + n) % kRQDepth =
      (s.tr.recvHead + (s.tr.recvsToPost + n)) % kRQDepth := by
    rw [hi.toPost, Nat.mod_add_mod, Nat.add_assoc]
  have hstart : ((s.rxRingHead + n) % kRQDepth + (s.cq.length - n)) % kRQDepth =
      (s.rxRingHead + s.cq.length) % kRQDepth := by
    rw [Nat.mod_add_mod, Nat.add_assoc, Nat.add_sub_cancel' hnc]
  have hdel : ∃ pre, s.arrived = pre ++ (s.cq.drop n).map s.buf ∧
      Rpc.processCompsSt T pacing s.rpc ((s.cq.take n).map s.buf) =
        Rpc.processCompsSt T pacing rpc0 pre := by
    refine ⟨pre ++ (s.cq.take n).map s.buf, ?_, ?_⟩
    · rw [harr, List.append_assoc, ← List.map_append, List.take_append_drop]
    · rw [hrpc, Rpc.processCompsSt, Rpc.processCompsSt, Rpc.processCompsSt, List.foldl_append]
  by_cases hslack : s.tr.recvsToPost + n < kRecvSlack
  · refine ⟨Nat.mod_lt _ kRQDepth_pos, ?_, ?_, ?_, ?_, ?_, ?_, ?_⟩ <;>
      simp only [if_pos hslack, List.length_drop]
    · exact hi.recvHead
    · exact hslack
    · exact htoPost
    · omega
    · exact drop_cq hi hnc
    · rw [arc_congr hstart, show kRQDepth - (s.tr.recvsToPost + n) - (s.cq.length - n) =
        kRQDepth - s.tr.recvsToPost - s.cq.length by omega]
      exact hi.rq
    · exact hdel
  · have hwrap : (s.rxRingHead + s.cq.length + (kRQDepth - s.tr.recvsToPost - s.cq.length)) %
        kRQDepth = s.tr.recvHead % kRQDepth := by
      rw [show s.rxRingHead + s.cq.length + (kRQDepth - s.tr.recvsToPost - s.cq.length) =
        s.rxRingHead + (kRQDepth - s.tr.recvsToPost) by omega, hi.toPost, Nat.mod_add_mod,
        show s.tr.recvHead + s.tr.recvsToPost + (kRQDepth - s.tr.recvsToPost) =
          s.tr.recvHead + kRQDepth by omega, Nat.add_mod_right]
    refine ⟨Nat.mod_lt _ kRQDepth_pos, ?_, ?_, ?_, ?_, ?_, ?_, ?_⟩ <;>
      simp only [if_neg hslack, List.length_drop]
    · exact Nat.mod_lt _ kRQDepth_pos
    · decide
    · rw [Nat.add_zero, Nat.mod_mod, htoPost]
    · omega
    · exact drop_cq hi hnc
    · rw [hi.rq, arc_append hwrap, arc_congr hstart, show kRQDepth - s.tr.recvsToPost -
        s.cq.length + (s.tr.recvsToPost + n) = kRQDepth - 0 - (s.cq.length - n) by omega]
    · exact hdel

theorem Inv.step (hi : Inv T pacing rpc0 s) {a : RxAct} (h : s.step T pacing a = some t) :
    Inv T pacing rpc0 t := by
  cases a with
  | nicRecv p => exact hi.nicRecv h
  | comps => exact hi.processCompsSt h

theorem inv_of_reachable {buf0 : ℕ → Pkt} (hr : Reachable (step T pacing) (init rpc0 buf0) s) :
    Inv T pacing rpc0 s :=
  Reachable.induct (Inv T pacing rpc0) (Inv.init buf0) (fun _ _ _ _ hi h => hi.step h) hr

end Inv

section Safety

variable {T pacing} {rpc0 : Rpc} {buf0 : ℕ → Pkt} {s : RxSys}

/-- Every packet the NIC has placed in a buffer the Rpc has processed, once and in order of
arrival, unless it still waits in its buffer, intact, behind a completion the Rpc has not
polled; and those wait in order of arrival too. -/
theorem rx_ring_delivers_in_order (hr : Reachable (step T pacing) (init rpc0 buf0) s) :
    ∃ pre, s.arrived = pre ++ s.cq.map s.buf ∧ s.rpc = Rpc.processCompsSt T pacing rpc0 pre :=
  (inv_of_reachable hr).delivered

/-- Every buffer of the RX ring is in exactly one place: handed back by the Rpc and not yet
posted, filled and behind a completion, or posted to the NIC; read round the ring from
`recv_head` they come in that order. The completions name, in order, the buffers the Rpc reads
next from `rx_ring_head_` on. -/
theorem recv_buffers_partition_ring (hr : Reachable (step T pacing) (init rpc0 buf0) s) :
    arc kRQDepth s.tr.recvHead s.tr.recvsToPost ++ s.cq ++ s.rq =
        arc kRQDepth s.tr.recvHead kRQDepth ∧
      (arc kRQDepth s.tr.recvHead s.tr.recvsToPost ++ s.cq ++ s.rq).Perm (List.range kRQDepth) ∧
      s.cq = arc kRQDepth s.rxRingHead s.cq.length := by
  have hi := inv_of_reachable hr
  have hroom := hi.room
  have hring : arc kRQDepth s.tr.recvHead s.tr.recvsToPost ++ s.cq ++ s.rq =
      arc kRQDepth s.tr.recvHead kRQDepth := by
    set c := s.cq.length with hc
    have hcq : s.cq = arc kRQDepth s.rxRingHead c := hi.cq
    have hrq : s.rq = arc kRQDepth (s.rxRingHead + c) (kRQDepth - s.tr.recvsToPost - c) := hi.rq
    have h1 : (s.tr.recvHead + s.tr.recvsToPost) % kRQDepth = s.rxRingHead % kRQDepth := by
      rw [hi.toPost, Nat.mod_mod]
    have h2 : (s.tr.recvHead + (s.tr.recvsToPost + c)) % kRQDepth =
        (s.rxRingHead + c) % kRQDepth := by
      rw [hi.toPost, Nat.mod_add_mod, Nat.add_assoc]
    rw [hcq, hrq, arc_append h1, arc_append h2,
      show s.tr.recvsToPost + c + (kRQDepth - s.tr.recvsToPost - c) = kRQDepth by omega]
  refine ⟨hring, ?_, hi.cq⟩
  rw [hring]
  exact arc_perm_range kRQDepth_pos _

/-- The RX path never fails: no assertion of `post_recvs` fails and the NIC always takes the
RECVs it is given, and a completion queue that holds no more than `kRQDepth` never overruns. The
NIC drops a packet for want of a posted RECV only when more than `kRQDepth - kRecvSlack`
completions wait for the Rpc. -/
theorem rx_path_never_fails (hr : Reachable (step T pacing) (init rpc0 buf0) s) :
    (s.step T pacing .comps).isSome ∧ (∀ p, (s.step T pacing (.nicRecv p)).isSome) ∧
      (s.rq = [] → kRQDepth < s.cq.length + kRecvSlack) := by
  have hi := inv_of_reachable hr
  have hslack := hi.slack
  have hlen : s.rq.length = kRQDepth - s.tr.recvsToPost - s.cq.length := by
    rw [hi.rq, length_arc]
  refine ⟨?_, fun p => ?_, fun h0 => ?_⟩
  · obtain ⟨n, hn⟩ : ∃ n, min kPostlist s.cq.length = n := ⟨_, rfl⟩
    rcases Nat.eq_zero_or_pos n with h0 | h0
    · simp only [step, RxSys.processCompsSt, hn, h0, if_true, Option.isSome_some]
    · rw [step, processCompsSt_of_pos hi hn h0, Option.isSome_some]
  · simp only [step, RxSys.nicRecv]
    split
    · rfl
    · rename_i i rq hrq
      have hpos : 0 < s.rq.length := by
        rw [hrq, List.length_cons]
        exact Nat.succ_pos _
      rw [if_neg (by omega), Option.isSome_some]
  · rw [h0, List.length_nil] at hlen
    omega

end Safety

section Witness

/-- The Rpc as `Rpc::Rpc` leaves it. -/
def rxRpc0 : Rpc := Rpc.init 0 "" 0 0 0 (fun _ => none) 0 0

/-- A packet that is not eRPC's: the Rpc drops it. -/
def strayPkt : Pkt := ⟨default, []⟩

/-- Two packets reach the NIC and the Rpc polls them. -/
def twoPktsRun : List RxAct := [.nicRecv strayPkt, .nicRecv strayPkt, .comps]

theorem twoPktsRun_reachable : ∃ s, Reachable (step (Transport.ib false) false)
    (init rxRpc0 fun _ => strayPkt) s ∧ (s.arrived.length = 2 ∧ s.cq = []) :=
  Reachable.exists_of_run twoPktsRun (by decide +kernel)

theorem rx_ring_delivers_in_order_two : ∃ s, Reachable (step (Transport.ib false) false)
    (init rxRpc0 fun _ => strayPkt) s ∧ s.arrived.length = 2 ∧ s.cq = [] ∧
      ∃ pre, s.arrived = pre ++ s.cq.map s.buf ∧
        s.rpc = Rpc.processCompsSt (Transport.ib false) false rxRpc0 pre := by
  obtain ⟨s, hr, hlen, hcq⟩ := twoPktsRun_reachable
  exact ⟨s, hr, hlen, hcq, rx_ring_delivers_in_order hr⟩

theorem recv_buffers_partition_ring_two : ∃ s, Reachable (step (Transport.ib false) false)
    (init rxRpc0 fun _ => strayPkt) s ∧ s.arrived.length = 2 ∧
      arc kRQDepth s.tr.recvHead s.tr.recvsToPost ++ s.cq ++ s.rq =
        arc kRQDepth s.tr.recvHead kRQDepth ∧
      (arc kRQDepth s.tr.recvHead s.tr.recvsToPost ++ s.cq ++ s.rq).Perm (List.range kRQDepth) ∧
      s.cq = arc kRQDepth s.rxRingHead s.cq.length := by
  obtain ⟨s, hr, hlen, -⟩ := twoPktsRun_reachable
  exact ⟨s, hr, hlen, recv_buffers_partition_ring hr⟩

theorem rx_path_never_fails_two : ∃ s, Reachable (step (Transport.ib false) false)
    (init rxRpc0 fun _ => strayPkt) s ∧ s.arrived.length = 2 ∧
      (s.step (Transport.ib false) false .comps).isSome ∧
      (∀ p, (s.step (Transport.ib false) false (.nicRecv p)).isSome) ∧
      (s.rq = [] → kRQDepth < s.cq.length + kRecvSlack) := by
  obtain ⟨s, hr, hlen, -⟩ := twoPktsRun_reachable
  exact ⟨s, hr, hlen, rx_path_never_fails hr⟩

end Witness

end RxSys

end ERpc
