import ERpc.Model.Client

/-!
# What the client's loops and list operations do

The two kick loops send, or put into the wheel, one packet per credit; `n` rounds of either are
one update of the sslot's counters and of the session's credits, and one batch of packets
(`kickReqLoop_bypass`, `kickReqLoop_wheel`, `kickRfrLoop_eq`). The loops always run at least once
where the datapath calls them, so the closed forms are stated for `n + 1` rounds.

The active-RPC list is read through `nextOf` and `prevOf`. Writing one link is a
`Function.update` of one of them (`nextOf_setNext`, `prevOf_setPrev`), so adding an sslot at the
tail and deleting one rewrite the two link functions exactly as the list lemmas of `DList` expect
(`nextOf_addToActiveRpcList`, `nextOf_deleteFromActiveRpcList`).
-/

namespace ERpc

namespace Rpc

variable (T : Transport) {st : Rpc} {s i t j : ℕ}

/-- Hand a batch of datapath packets to the transport. -/
def sendAll (st : Rpc) (ps : List Pkt) : Rpc := { st with tx := st.tx ++ ps }

attribute [simp] sendAll

/-- The RFR that `enqueue_rfr_st` sends as packet `pktNum`, for the response whose header 0 is
`respHdr`, to remote session `dest`. -/
def rfrPkt (respHdr : PktHdr) (dest pktNum : ℕ) : Pkt :=
  ⟨{ reqType := respHdr.reqType
     msgSize := 0
     destSessionNum := dest
     pktType := .kRFR
     pktNum := pktNum
     reqNum := reqNumField respHdr.reqNum
     magic := kPktHdrMagic }, []⟩

theorem enqueueRfrSt_eq (h : PktHdr) :
    st.enqueueRfrSt s i h =
      st.send (rfrPkt h (st.sess s).remoteSessionNum (st.slot s i).clientInfo.numTx) :=
  rfl

/-! ### The kick loops -/

/-- Wheel entries for packets `k, k + 1, …, k + n - 1` of sslot `(s, i)`, in order. -/
def wheelEntries (s i : ℕ) : ℕ → ℕ → List (ℕ × ℕ × ℕ)
  | _, 0 => []
  | k, n + 1 => (s, i, k) :: wheelEntries s i (k + 1) n

/-- `in_wheel_` once packets `k, …, k + n - 1` are marked. -/
def markInWheel : (ℕ → Bool) → ℕ → ℕ → ℕ → Bool
  | f, _, 0 => f
  | f, k, n + 1 => markInWheel (Function.update f (k % kSessionCredits) true) (k + 1) n

theorem mem_wheelEntries {e : ℕ × ℕ × ℕ} :
    ∀ {k n : ℕ}, e ∈ wheelEntries s i k n ↔ e.1 = s ∧ e.2.1 = i ∧ k ≤ e.2.2 ∧ e.2.2 < k + n
  | k, 0 => by simp [wheelEntries]
  | k, n + 1 => by
    rw [wheelEntries, List.mem_cons, mem_wheelEntries]
    obtain ⟨a, b, c⟩ := e
    simp only [Prod.mk.injEq]
    omega

theorem markInWheel_eq_true {q : ℕ} :
    ∀ {f : ℕ → Bool} {k n : ℕ}, markInWheel f k n q = true ↔
      f q = true ∨ ∃ m, k ≤ m ∧ m < k + n ∧ m % kSessionCredits = q
  | f, k, 0 => by
    simp only [markInWheel, Nat.add_zero]
    exact ⟨.inl, fun h => h.elim id fun ⟨m, h1, h2, _⟩ => absurd h2 (by omega)⟩
  | f, k, n + 1 => by
    rw [markInWheel, markInWheel_eq_true, Function.update_apply]
    constructor
    · rintro (h | ⟨m, h1, h2, h3⟩)
      · split_ifs at h with hq
        · exact .inr ⟨k, le_rfl, by omega, hq.symm⟩
        · exact .inl h
      · exact .inr ⟨m, by omega, by omega, h3⟩
    · rintro (h | ⟨m, h1, h2, h3⟩)
      · by_cases hq : q = k % kSessionCredits
        · exact .inl (if_pos hq)
        · exact .inl ((if_neg hq).trans h)
      · by_cases hm : m = k
        · subst hm
          exact .inl (if_pos h3.symm)
        · exact .inr ⟨m, by omega, by omega, h3⟩

/-- `n + 1` rounds of `kick_req_st` that bypass the wheel send packets `num_tx_, …` of the
request in order, one credit each. -/
theorem kickReqLoop_bypass {req : MsgBuffer} (n : ℕ) (st : Rpc) (h : (st.slot s i).txBuf = some req) :
    kickReqLoop T true s i (n + 1) st =
      ((st.modifyCi s i fun ci => { ci with numTx := ci.numTx + (n + 1) }).modifyCsi s
        (fun csi => { csi with credits := csi.credits - (n + 1) })).sendAll
        ((List.range (n + 1)).map fun k => req.pkt T ((st.slot s i).clientInfo.numTx + k)) := by
  induction n generalizing st with
  | zero => simp [kickReqLoop, enqueuePktTxBurstSt, h]
  | succ n ih =>
    rw [kickReqLoop]
    simp only [if_true, enqueuePktTxBurstSt, h]
    rw [ih _ (by simpa [SSlot.txBuf] using h)]
    simp [Function.update_idem, List.range_succ_eq_map, Nat.sub_sub, Nat.add_comm 1, Nat.add_assoc]

/-- `n + 1` rounds of `kick_req_st` through the wheel put packets `num_tx_, …` into it, one
credit each, and mark them in `in_wheel_`. -/
theorem kickReqLoop_wheel (n : ℕ) (st : Rpc) :
    kickReqLoop T false s i (n + 1) st =
      ({ st with wheel := st.wheel ++ wheelEntries s i (st.slot s i).clientInfo.numTx (n + 1) }.modifyCi
        s i fun ci => { ci with
          numTx := ci.numTx + (n + 1)
          wheelCount := ci.wheelCount + (n + 1)
          inWheel := markInWheel ci.inWheel ci.numTx (n + 1) }).modifyCsi s
        (fun csi => { csi with credits := csi.credits - (n + 1) }) := by
  induction n generalizing st with
  | zero => simp [kickReqLoop, enqueueWheelReqSt, wheelEntries, markInWheel]
  | succ n ih =>
    rw [kickReqLoop]
    simp only [Bool.false_eq_true, if_false]
    rw [ih]
    simp only [enqueueWheelReqSt, modifyCi_eq, modifyCsi_eq, setSlot_eq, sess_mk, slot_mk,
      getD_sessionVec, sslotArr_sess, setSess_mk, Function.update_self, Function.update_idem]
    simp [wheelEntries, markInWheel, Nat.sub_sub, Nat.add_comm 1, Nat.add_assoc]

/-- `n + 1` rounds of `kick_rfr_st` send RFRs `num_tx_, …` in order, one credit each. -/
theorem kickRfrLoop_eq (n : ℕ) (st : Rpc) :
    kickRfrLoop s i (n + 1) st =
      ((st.modifyCi s i fun ci => { ci with numTx := ci.numTx + (n + 1) }).modifyCsi s
        (fun csi => { csi with credits := csi.credits - (n + 1) })).sendAll
        ((List.range (n + 1)).map fun k =>
          rfrPkt ((st.slot s i).clientInfo.respMsgbuf.pkthdr 0) (st.sess s).remoteSessionNum
            ((st.slot s i).clientInfo.numTx + k)) := by
  induction n generalizing st with
  | zero => simp [kickRfrLoop, enqueueRfrSt_eq]
  | succ n ih =>
    rw [kickRfrLoop, ih, enqueueRfrSt_eq]
    simp [Function.update_idem, List.range_succ_eq_map, Nat.sub_sub, Nat.add_comm 1, Nat.add_assoc]

/-! ### Links of the active-RPC list -/

@[simp] theorem nextOf_slot : st.nextOf (.slot s i) = (st.slot s i).clientInfo.next := rfl
@[simp] theorem prevOf_slot : st.prevOf (.slot s i) = (st.slot s i).clientInfo.prev := rfl
@[simp] theorem nextOf_null : st.nextOf .null = .null := rfl
@[simp] theorem prevOf_null : st.prevOf .null = .null := rfl
@[simp] theorem nextOf_root : st.nextOf .root = st.rootSentinel.next := rfl
@[simp] theorem prevOf_tail : st.prevOf .tail = st.tailSentinel.prev := rfl

theorem links_eq {st' : Rpc}
    (hs : ∀ t j, ((st'.slot t j).clientInfo.next, (st'.slot t j).clientInfo.prev) =
      ((st.slot t j).clientInfo.next, (st.slot t j).clientInfo.prev))
    (hr : st'.rootSentinel = st.rootSentinel) (ht : st'.tailSentinel = st.tailSentinel) :
    st'.nextOf = st.nextOf ∧ st'.prevOf = st.prevOf := by
  refine ⟨funext fun p => ?_, funext fun p => ?_⟩ <;> cases p with
  | slot t j =>
    have := hs t j
    simp only [Prod.mk.injEq] at this
    simp [this]
  | _ => simp [nextOf, prevOf, hr, ht]

theorem nextOf_setNext {x : Ptr} (hx : x ≠ .null) (y : Ptr) :
    (st.setNext x y).nextOf = Function.update st.nextOf x y := by
  funext p
  cases x with
  | null => exact absurd rfl hx
  | slot s i =>
    cases p with
    | slot t j =>
      by_cases h : t = s ∧ j = i
      · obtain ⟨rfl, rfl⟩ := h
        simp [setNext]
      · rw [Function.update_of_ne (by simpa using h)]
        show ((st.modifyCi s i fun ci => { ci with next := y }).slot t j).clientInfo.next = _
        rw [slot_modifyCi_of_ne _ h]
        rfl
    | _ => simp [setNext, nextOf]
  | _ => cases p <;> simp [setNext, nextOf]

theorem prevOf_setNext (x y : Ptr) : (st.setNext x y).prevOf = st.prevOf := by
  funext p
  cases x with
  | slot s i =>
    cases p with
    | slot t j =>
      by_cases h : t = s ∧ j = i
      · obtain ⟨rfl, rfl⟩ := h
        simp [setNext]
      · show ((st.modifyCi s i fun ci => { ci with next := y }).slot t j).clientInfo.prev = _
        rw [slot_modifyCi_of_ne _ h]
        rfl
    | _ => simp [setNext, prevOf]
  | _ => cases p <;> simp [setNext, prevOf]

theorem prevOf_setPrev {x : Ptr} (hx : x ≠ .null) (y : Ptr) :
    (st.setPrev x y).prevOf = Function.update st.prevOf x y := by
  funext p
  cases x with
  | null => exact absurd rfl hx
  | slot s i =>
    cases p with
    | slot t j =>
      by_cases h : t = s ∧ j = i
      · obtain ⟨rfl, rfl⟩ := h
        simp [setPrev]
      · rw [Function.update_of_ne (by simpa using h)]
        show ((st.modifyCi s i fun ci => { ci with prev := y }).slot t j).clientInfo.prev = _
        rw [slot_modifyCi_of_ne _ h]
        rfl
    | _ => simp [setPrev, prevOf]
  | _ => cases p <;> simp [setPrev, prevOf]

theorem nextOf_setPrev (x y : Ptr) : (st.setPrev x y).nextOf = st.nextOf := by
  funext p
  cases x with
  | slot s i =>
    cases p with
    | slot t j =>
      by_cases h : t = s ∧ j = i
      · obtain ⟨rfl, rfl⟩ := h
        simp [setPrev]
      · show ((st.modifyCi s i fun ci => { ci with prev := y }).slot t j).clientInfo.next = _
        rw [slot_modifyCi_of_ne _ h]
        rfl
    | _ => simp [setPrev, nextOf]
  | _ => cases p <;> simp [setPrev, nextOf]

/-- `add_to_active_rpc_list` puts the sslot between the last node and the tail sentinel. -/
theorem nextOf_addToActiveRpcList (h : st.prevOf .tail ≠ .null) :
    (st.addToActiveRpcList s i).nextOf =
      Function.update (Function.update st.nextOf (st.prevOf .tail) (.slot s i)) (.slot s i) .tail := by
  simp only [addToActiveRpcList, nextOf_setPrev, nextOf_setNext (Ptr.noConfusion : Ptr.slot s i ≠ .null),
    prevOf_tail ▸ nextOf_setNext h]
  rfl

theorem prevOf_addToActiveRpcList :
    (st.addToActiveRpcList s i).prevOf =
      Function.update (Function.update st.prevOf (.slot s i) (st.prevOf .tail)) .tail (.slot s i) := by
  simp only [addToActiveRpcList, prevOf_setPrev (Ptr.noConfusion : Ptr.slot s i ≠ .null),
    prevOf_setPrev (Ptr.noConfusion : Ptr.tail ≠ .null), prevOf_setNext]
  rfl

/-- `delete_from_active_rpc_list` links the sslot's two neighbours to each other. -/
theorem links_deleteFromActiveRpcList (hp : st.prevOf (.slot s i) ≠ .null)
    (hn : st.nextOf (.slot s i) ≠ .null) (hx : st.prevOf (.slot s i) ≠ .slot s i) :
    (st.deleteFromActiveRpcList s i).nextOf =
        Function.update st.nextOf (st.prevOf (.slot s i)) (st.nextOf (.slot s i)) ∧
      (st.deleteFromActiveRpcList s i).prevOf =
        Function.update st.prevOf (st.nextOf (.slot s i)) (st.prevOf (.slot s i)) := by
  have hnext : (st.setNext (st.prevOf (.slot s i)) (st.nextOf (.slot s i))).nextOf (.slot s i) =
      st.nextOf (.slot s i) := by
    rw [nextOf_setNext hp, Function.update_of_ne (Ne.symm hx)]
  have hprev : (st.setNext (st.prevOf (.slot s i)) (st.nextOf (.slot s i))).prevOf (.slot s i) =
      st.prevOf (.slot s i) := by
    rw [prevOf_setNext]
  refine ⟨?_, ?_⟩
  · rw [deleteFromActiveRpcList, nextOf_setPrev, nextOf_setNext hp]
  · simp only [deleteFromActiveRpcList]
    rw [hnext, hprev, prevOf_setPrev hn, prevOf_setNext]

end Rpc

end ERpc
