import ERpc.Model.Reset
import ERpc.Lib.Reach
import ERpc.Lib.OptVec

/-!
# One Rpc under session management

An Rpc driven by session management alone: its application creates and destroys sessions, its
Nexus hands it session-management packets of any content (requests and responses from any peer,
duplicated, stale or in error), the transport resolves routing info or not and the allocator
succeeds or not (`SmOracle`), and sessions are reset. No request is enqueued.

`SmInv` is what holds of every state such runs reach while `session_vec_` has at most `2 ^ 16`
entries, the sessions whose `uint16_t` numbers are their indices. Two of its parts are the point
of this module: the RX ring entries of the live sessions and the free ones add up to the whole
ring (`kSessionCredits` per session), and the connect-request token map names the one server
session each token created. The rest is the bookkeeping the handlers rely on: every session sits
at its local session number, no sslot is linked into the active-RPC list, and a server session is
never in the middle of connecting. `session_vec_` never shrinks and the token map only gains
entries (`smStep_grows`), so a state within the bound has only such states before it; past the
bound the invariant fails (`SmWrap`).
-/

namespace ERpc

/-- What can happen to one Rpc under session management. -/
inductive SmOp
  | createSession (remoteUri : String) (remRpcId token : ℕ)
  | destroySession (sessionNum : ℤ)
  | smRx (p : SmPkt) (o : SmOracle)
  | resetClient (s : ℕ)
  | resetServer (s : ℕ)

/-- A new Rpc, with `retry_connect_on_invalid_rpc_id_` as its application sets it. -/
def smStart (rpcId : ℕ) (hostname : String) (smUdpPort transportType routingInfo : ℕ)
    (reqFuncArr : ℕ → Option ReqFuncType) (rpcRtoCycles smTimeoutCycles : ℕ) (retry : Bool) :
    Rpc :=
  { Rpc.init rpcId hostname smUdpPort transportType routingInfo reqFuncArr rpcRtoCycles
      smTimeoutCycles with retryConnectOnInvalidRpcId := retry }

namespace Rpc

variable (T : Transport)

/-- One operation. A reset is called on a live session of its role. -/
def smStep (st : Rpc) : SmOp → Option Rpc
  | .createSession uri r t => (st.createSessionSt uri r t).map Prod.fst
  | .destroySession n => some (st.destroySessionSt n).1
  | .smRx p o => st.handleSmRxSt T [(p, o)]
  | .resetClient s =>
    match st.sessionVec s with
    | some x => if x.role = .kClient then some (st.handleResetClientSt T s) else none
    | none => none
  | .resetServer s =>
    match st.sessionVec s with
    | some x => if x.role = .kServer then some (st.handleResetServerSt s).1 else none
    | none => none

/-- `|{i : session_vec_[i] != nullptr}|` -/
def liveSessions (st : Rpc) : ℕ := OptVec.liveCount st.sessionVec st.sessionVecSize

end Rpc

/-- No sslot of `x` points into the active-RPC list. -/
def Session.Unlinked (x : Session) : Prop :=
  ∀ i, (x.sslotArr i).clientInfo.prev = .null ∧ (x.sslotArr i).clientInfo.next = .null

/-- `y` may stand in for the live session `x`: it keeps what the invariant reads of a session. -/
structure SessKeeps (x y : Session) : Prop where
  role : y.role = x.role
  uniqToken : y.uniqToken = x.uniqToken
  lsn : y.localSessionNum = x.localSessionNum
  server : x.role = .kServer → y.server = x.server ∧
    (x.state ≠ .kConnectInProgress → y.state ≠ .kConnectInProgress)
  prev : ∀ i, (y.sslotArr i).clientInfo.prev = (x.sslotArr i).clientInfo.prev
  next : ∀ i, (y.sslotArr i).clientInfo.next = (x.sslotArr i).clientInfo.next

/-- What holds of every state that session management alone reaches. -/
structure SmInv (st : Rpc) : Prop where
  size : ∀ k, st.sessionVecSize ≤ k → st.sessionVec k = none
  lsn : ∀ k x, st.sessionVec k = some x → x.localSessionNum = k
  unlinked : ∀ k x, st.sessionVec k = some x → x.Unlinked
  ring : st.ringEntriesAvailable + kSessionCredits * st.liveSessions = kNumRxRingEntries
  server : ∀ k x, st.sessionVec k = some x → x.role = .kServer →
    st.connReqTokenMap x.uniqToken = some k ∧ x.server.sessionNum = k ∧
      x.state ≠ .kConnectInProgress
  token : ∀ t n, st.connReqTokenMap t = some n → n < st.sessionVecSize ∧
    ∀ x, st.sessionVec n = some x → x.role = .kServer ∧ x.uniqToken = t
  resp : ∀ p ∈ st.smTx, p.pktType = .kConnectResp → p.errType = .kNoError →
    st.connReqTokenMap p.uniqToken = some p.server.sessionNum

theorem SessKeeps.refl (x : Session) : SessKeeps x x :=
  ⟨rfl, rfl, rfl, fun _ => ⟨rfl, id⟩, fun _ => rfl, fun _ => rfl⟩

theorem SessKeeps.of_client {x y : Session} (hx : x.role = .kClient) (hr : y.role = x.role)
    (ht : y.uniqToken = x.uniqToken) (hl : y.localSessionNum = x.localSessionNum)
    (ha : y.sslotArr = x.sslotArr) : SessKeeps x y :=
  ⟨hr, ht, hl, fun h => absurd (hx.symm.trans h) (by decide), fun i => by rw [ha],
    fun i => by rw [ha]⟩

namespace SmInv

variable {st st' : Rpc}

theorem lt_of_some (h : SmInv st) {k : ℕ} {x : Session} (hk : st.sessionVec k = some x) :
    k < st.sessionVecSize := by
  by_contra hle
  rw [h.size k (Nat.le_of_not_lt hle)] at hk
  exact absurd hk (by simp)

theorem congr (h : SmInv st) (hv : st'.sessionVec = st.sessionVec)
    (hn : st'.sessionVecSize = st.sessionVecSize)
    (hr : st'.ringEntriesAvailable = st.ringEntriesAvailable)
    (hm : st'.connReqTokenMap = st.connReqTokenMap) (ht : st'.smTx = st.smTx) : SmInv st' where
  size := by rw [hv, hn]; exact h.size
  lsn := by rw [hv]; exact h.lsn
  unlinked := by rw [hv]; exact h.unlinked
  ring := by rw [hr, Rpc.liveSessions, hv, hn]; exact h.ring
  server := by rw [hv, hm]; exact h.server
  token := by rw [hv, hn, hm]; exact h.token
  resp := by rw [ht, hm]; exact h.resp

theorem emit (h : SmInv st) (e : Event) : SmInv (st.emit e) := h.congr rfl rfl rfl rfl rfl

theorem undefined (h : SmInv st) : SmInv st.undefined := h.congr rfl rfl rfl rfl rfl

theorem smPktUdpTxSt (h : SmInv st) {p : SmPkt}
    (hp : p.pktType = .kConnectResp → p.errType = .kNoError →
      st.connReqTokenMap p.uniqToken = some p.server.sessionNum) :
    SmInv (st.smPktUdpTxSt p) where
  size := h.size
  lsn := h.lsn
  unlinked := h.unlinked
  ring := h.ring
  server := h.server
  token := h.token
  resp q hq := by
    rcases List.mem_append.1 hq with hq | hq
    · exact h.resp q hq
    · rw [List.mem_singleton.1 hq]
      exact hp

theorem smPktUdpTxSt_of_ne (h : SmInv st) {p : SmPkt}
    (hp : p.pktType ≠ .kConnectResp ∨ p.errType ≠ .kNoError) : SmInv (st.smPktUdpTxSt p) :=
  h.smPktUdpTxSt fun h1 h2 => by rcases hp with hp | hp <;> contradiction

theorem setSess (h : SmInv st) {k : ℕ} {x y : Session} (hk : st.sessionVec k = some x)
    (hy : SessKeeps x y) : SmInv (st.setSess k y) where
  size j hj := by
    have hjk : j ≠ k := fun e => Nat.lt_irrefl _ (e ▸ h.lt_of_some hk |>.trans_le hj)
    simp only [Rpc.setSess_sessionVec, Function.update_of_ne hjk]
    exact h.size j hj
  lsn j z hj := by
    by_cases hjk : j = k
    · subst hjk
      simp only [Rpc.setSess_sessionVec, Function.update_self, Option.some.injEq] at hj
      rw [← hj, hy.lsn, h.lsn j x hk]
    · simp only [Rpc.setSess_sessionVec, Function.update_of_ne hjk] at hj
      exact h.lsn j z hj
  unlinked j z hj := by
    by_cases hjk : j = k
    · subst hjk
      simp only [Rpc.setSess_sessionVec, Function.update_self, Option.some.injEq] at hj
      intro i
      rw [← hj, hy.prev, hy.next]
      exact h.unlinked j x hk i
    · simp only [Rpc.setSess_sessionVec, Function.update_of_ne hjk] at hj
      exact h.unlinked j z hj
  ring := by
    rw [Rpc.setSess_ringEntriesAvailable, Rpc.liveSessions, Rpc.setSess_sessionVec,
      Rpc.setSess_sessionVecSize, OptVec.liveCount_update_some _ (by simp [hk])]
    exact h.ring
  server j z hj hz := by
    by_cases hjk : j = k
    · subst hjk
      simp only [Rpc.setSess_sessionVec, Function.update_self, Option.some.injEq] at hj
      subst hj
      have hx : x.role = .kServer := hy.role ▸ hz
      obtain ⟨hs, hst⟩ := hy.server hx
      obtain ⟨hm, hn, hc⟩ := h.server j x hk hx
      rw [Rpc.setSess_connReqTokenMap, hy.uniqToken, hs]
      exact ⟨hm, hn, hst hc⟩
    · simp only [Rpc.setSess_sessionVec, Function.update_of_ne hjk] at hj
      exact h.server j z hj hz
  token t n hn := by
    obtain ⟨hlt, hx⟩ := h.token t n hn
    refine ⟨hlt, fun z hz => ?_⟩
    by_cases hnk : n = k
    · subst hnk
      simp only [Rpc.setSess_sessionVec, Function.update_self, Option.some.injEq] at hz
      rw [← hz, hy.role, hy.uniqToken]
      exact hx x hk
    · simp only [Rpc.setSess_sessionVec, Function.update_of_ne hnk] at hz
      exact hx z hz
  resp := h.resp

theorem sess_eq {k : ℕ} {x : Session} (hk : st.sessionVec k = some x) : st.sess k = x := by
  simp [Rpc.sess, hk]

theorem freeBury (h : SmInv st) {k : ℕ} {x : Session} (hk : st.sessionVec k = some x) :
    SmInv (st.freeRingEntries.burySessionSt x) := by
  have hv : (st.freeRingEntries.burySessionSt x).sessionVec = Function.update st.sessionVec k none := by
    simp [h.lsn k x hk]
  have hlive : (st.freeRingEntries.burySessionSt x).liveSessions + 1 = st.liveSessions := by
    rw [Rpc.liveSessions, hv]
    exact OptVec.liveCount_update_none (h.lt_of_some hk) (by simp [hk])
  refine ⟨fun j hj => ?_, fun j z hj => ?_, fun j z hj => ?_, ?_, fun j z hj hz => ?_,
    fun t n hn => ?_, h.resp⟩
  · rw [hv]
    by_cases hjk : j = k
    · subst hjk
      exact Function.update_self ..
    · rw [Function.update_of_ne hjk]
      exact h.size j hj
  · rw [hv] at hj
    exact h.lsn j z (OptVec.eq_some_of_update_none hj).2
  · rw [hv] at hj
    exact h.unlinked j z (OptVec.eq_some_of_update_none hj).2
  · have hr : (st.freeRingEntries.burySessionSt x).ringEntriesAvailable =
        st.ringEntriesAvailable + kSessionCredits := rfl
    rw [hr, ← h.ring, ← hlive, Nat.mul_add, Nat.mul_one]
    omega
  · rw [hv] at hj
    exact h.server j z (OptVec.eq_some_of_update_none hj).2 hz
  · obtain ⟨hlt, hx⟩ := h.token t n hn
    refine ⟨hlt, fun z hz => ?_⟩
    rw [hv] at hz
    exact hx z (OptVec.eq_some_of_update_none hz).2

/-- Pushing a new session whose ring entries are allocated keeps the invariant, with the token
map `m` extended by the session if it is a server session. -/
theorem push (h : SmInv st) (hr : st.haveRingEntries = true) {x : Session}
    {m : ℕ → Option ℕ} (hl : x.localSessionNum = st.sessionVecSize) (hu : x.Unlinked)
    (hm : ∀ t n, st.connReqTokenMap t = some n → m t = some n)
    (hm' : ∀ t n, m t = some n → st.connReqTokenMap t = some n ∨
      (t = x.uniqToken ∧ n = st.sessionVecSize ∧ x.role = .kServer))
    (hs : x.role = .kServer → m x.uniqToken = some st.sessionVecSize ∧
      x.server.sessionNum = st.sessionVecSize ∧ x.state ≠ .kConnectInProgress) :
    SmInv ({ st with connReqTokenMap := m }.allocRingEntries.pushSession x) := by
  have hlive : ({ st with connReqTokenMap := m }.allocRingEntries.pushSession x).liveSessions =
      st.liveSessions + 1 :=
    OptVec.liveCount_push x
  have hN : ∀ j, j < st.sessionVecSize → j ≠ st.sessionVecSize := fun j hj => Nat.ne_of_lt hj
  refine ⟨fun j hj => ?_, fun j z hj => ?_, fun j z hj => ?_, ?_, fun j z hj hz => ?_,
    fun t n hn => ?_, fun q hq h1 h2 => hm _ _ (h.resp q hq h1 h2)⟩
  · simp only [Rpc.pushSession, Rpc.allocRingEntries] at hj ⊢
    rw [Function.update_of_ne (by omega)]
    exact h.size j (by omega)
  · simp only [Rpc.pushSession, Rpc.allocRingEntries] at hj
    rcases OptVec.eq_some_of_update_some hj with ⟨rfl, rfl⟩ | ⟨-, hj⟩
    · exact hl
    · exact h.lsn j z hj
  · simp only [Rpc.pushSession, Rpc.allocRingEntries] at hj
    rcases OptVec.eq_some_of_update_some hj with ⟨rfl, rfl⟩ | ⟨-, hj⟩
    · exact hu
    · exact h.unlinked j z hj
  · have hring := h.ring
    have h512 : kSessionCredits ≤ st.ringEntriesAvailable := by
      simpa [Rpc.haveRingEntries] using hr
    rw [hlive]
    simp only [Rpc.pushSession, Rpc.allocRingEntries]
    rw [← hring, Nat.mul_add, Nat.mul_one]
    omega
  · simp only [Rpc.pushSession, Rpc.allocRingEntries] at hj ⊢
    rcases OptVec.eq_some_of_update_some hj with ⟨rfl, rfl⟩ | ⟨-, hj⟩
    · exact hs hz
    · obtain ⟨hmk, hsk, hck⟩ := h.server j z hj hz
      exact ⟨hm _ _ hmk, hsk, hck⟩
  · simp only [Rpc.pushSession, Rpc.allocRingEntries] at hn ⊢
    rcases hm' t n hn with hn | ⟨rfl, rfl, hx⟩
    · obtain ⟨hlt, hx⟩ := h.token t n hn
      refine ⟨Nat.lt_succ_of_lt hlt, fun z hz => ?_⟩
      rw [Function.update_of_ne (hN n hlt)] at hz
      exact hx z hz
    · refine ⟨Nat.lt_succ_self _, fun z hz => ?_⟩
      rw [Function.update_self, Option.some.injEq] at hz
      subst hz
      exact ⟨hx, rfl⟩

theorem setSlot (h : SmInv st) {s i : ℕ} (hk : (st.sessionVec s).isSome) {y : SSlot}
    (hp : y.clientInfo.prev = (st.slot s i).clientInfo.prev)
    (hn : y.clientInfo.next = (st.slot s i).clientInfo.next) : SmInv (st.setSlot s i y) := by
  obtain ⟨x, hx⟩ := Option.isSome_iff_exists.1 hk
  rw [Rpc.setSlot_eq, sess_eq hx]
  refine h.setSess hx ⟨rfl, rfl, rfl, fun _ => ⟨rfl, id⟩, fun j => ?_, fun j => ?_⟩ <;>
    dsimp only <;> by_cases hj : j = i
  · subst hj
    rw [Function.update_self, hp, Rpc.slot, sess_eq hx]
  · rw [Function.update_of_ne hj]
  · subst hj
    rw [Function.update_self, hn, Rpc.slot, sess_eq hx]
  · rw [Function.update_of_ne hj]

theorem modifyCi (h : SmInv st) {s i : ℕ} (hk : (st.sessionVec s).isSome)
    {f : ClientInfo → ClientInfo} (hf : ∀ ci, (f ci).prev = ci.prev ∧ (f ci).next = ci.next) :
    SmInv (st.modifyCi s i f) := by
  rw [Rpc.modifyCi_eq]
  exact h.setSlot hk (hf _).1 (hf _).2

theorem modifyCsi (h : SmInv st) {s : ℕ} (hk : (st.sessionVec s).isSome)
    (f : ClientSessionInfo → ClientSessionInfo) : SmInv (st.modifyCsi s f) := by
  obtain ⟨x, hx⟩ := Option.isSome_iff_exists.1 hk
  rw [Rpc.modifyCsi_eq, sess_eq hx]
  exact h.setSess hx ⟨rfl, rfl, rfl, fun _ => ⟨rfl, id⟩, fun _ => rfl, fun _ => rfl⟩

theorem sendSmReqSt (h : SmInv st) {n : ℕ} (hk : (st.sessionVec n).isSome) :
    SmInv (st.sendSmReqSt n) := by
  have h1 : SmInv { st with smPendingReqs := setInsert (st.sess n).localSessionNum st.smPendingReqs } :=
    h.congr rfl rfl rfl rfl rfl
  have h2 := h1.modifyCsi (s := n) hk fun ci => { ci with smReqTs := st.tsc }
  refine h2.smPktUdpTxSt_of_ne (.inl ?_)
  split_ifs <;> simp

/-! ### The handlers

Each handler keeps the invariant, branch by branch of the source: a branch that only answers
sends a packet that is not a successful connect response, and a branch that creates or buries a
session is `push` or `freeBury`. -/

section Handlers

variable (T : Transport)

theorem role_of_connecting (h : SmInv st) {k : ℕ} {x : Session} (hk : st.sessionVec k = some x)
    (hx : x.state = .kConnectInProgress) : x.role = .kClient := by
  cases hr : x.role
  · exact absurd hx (h.server k x hk hr).2.2
  · rfl

/-- A connect request keeps the invariant if it leaves at most `2 ^ 16` sessions: the number of
a new server session, a `uint16_t`, is then its index. -/
theorem handleConnectReqSt (h : SmInv st) {p : SmPkt} (hp : p.pktType = .kConnectReq)
    (o : SmOracle) (hb : (st.handleConnectReqSt T p o).sessionVecSize ≤ 2 ^ 16) :
    SmInv (st.handleConnectReqSt T p o) := by
  have hresp : p.pktType.reqToResp = .kConnectResp := by rw [hp]; rfl
  unfold Rpc.handleConnectReqSt at hb ⊢
  rcases hm : st.connReqTokenMap p.uniqToken with _ | n
  · simp only [hm] at hb
    dsimp only at hb ⊢
    split_ifs at hb ⊢ with h1 h2 h3 h4
    · exact h.smPktUdpTxSt_of_ne (.inr (by simp [smConstructResp]))
    · exact h.smPktUdpTxSt_of_ne (.inr (by simp [smConstructResp]))
    · exact h.smPktUdpTxSt_of_ne (.inr (by simp [smConstructResp]))
    · exact h.smPktUdpTxSt_of_ne (.inr (by simp [smConstructResp]))
    · have hr : st.haveRingEntries = true := by simpa using h2
      have hlt : st.sessionVecSize < 2 ^ 16 := by
        simp only [Rpc.smPktUdpTxSt, Rpc.pushSession, Rpc.allocRingEntries] at hb
        omega
      rw [toSessionNum_of_lt hlt]
      have hpush := h.push (x := st.newServerSession T p st.sessionVecSize)
        (m := Function.update st.connReqTokenMap p.uniqToken (some st.sessionVecSize)) hr rfl
        (fun i => ⟨rfl, rfl⟩)
        (fun t n' hn' => by
          rw [Function.update_of_ne (ne_of_apply_ne st.connReqTokenMap (by simp [hn', hm]))]
          exact hn')
        (fun t n' hn' => by
          by_cases ht : t = p.uniqToken
          · subst ht
            rw [Function.update_self, Option.some.injEq] at hn'
            exact .inr ⟨rfl, hn'.symm, rfl⟩
          · rw [Function.update_of_ne ht] at hn'
            exact .inl hn')
        (fun _ => ⟨Function.update_self .., rfl, by simp [Rpc.newServerSession, Session.init]⟩)
      refine hpush.smPktUdpTxSt fun _ _ => ?_
      simp [Rpc.newServerSession, smConstructResp, Session.init]
  · dsimp only
    split_ifs with hle
    · exact h.undefined
    rcases hx : st.sessionVec n with _ | x
    · exact h
    · dsimp only
      split_ifs
      · obtain ⟨-, hx'⟩ := h.token _ n hm
        obtain ⟨hsrv, htok⟩ := hx' x hx
        refine h.smPktUdpTxSt fun _ _ => ?_
        simp only [smConstructResp]
        rw [hm, (h.server n x hx hsrv).2.1]
      · exact h

theorem handleConnectRespSt (h : SmInv st) (p : SmPkt) (o : SmOracle) :
    SmInv (st.handleConnectRespSt p o) := by
  unfold Rpc.handleConnectRespSt
  dsimp only
  by_cases hle : st.sessionVecSize ≤ p.client.sessionNum
  · rw [if_pos hle]
    exact h.undefined
  rw [if_neg hle]
  rcases hx : st.sessionVec p.client.sessionNum with _ | x
  · exact h
  · dsimp only
    by_cases hc : x.state = .kConnectInProgress
    · have hcl := h.role_of_connecting hx hc
      rw [if_neg (not_not.2 hc)]
      split_ifs
      · exact h.congr rfl rfl rfl rfl rfl
      · exact (h.freeBury hx).emit _
      · have hs := h.setSess hx (y := { x with server := p.server, state := .kDisconnectInProgress })
          (SessKeeps.of_client hcl rfl rfl rfl rfl)
        exact hs.sendSmReqSt (by simp)
      · have hs := h.setSess hx (y :=
          { x with
            server := p.server
            remoteSessionNum := p.server.sessionNum
            state := .kConnected }) (SessKeeps.of_client hcl rfl rfl rfl rfl)
        exact hs.emit _
    · rw [if_pos hc]
      exact h

theorem handleDisconnectReqSt (h : SmInv st) {p : SmPkt} (hp : p.pktType = .kDisconnectReq) :
    SmInv (st.handleDisconnectReqSt p) := by
  have hne : (smConstructResp p .kNoError).pktType ≠ .kConnectResp := by
    simp [smConstructResp, hp, SmPktType.reqToResp]
  unfold Rpc.handleDisconnectReqSt
  split_ifs with hle
  · exact h.undefined
  rcases hx : st.sessionVec p.server.sessionNum with _ | x
  · exact h.smPktUdpTxSt_of_ne (.inl hne)
  · exact (h.freeBury hx).smPktUdpTxSt_of_ne (.inl hne)

theorem handleDisconnectRespSt (h : SmInv st) (p : SmPkt) :
    SmInv (st.handleDisconnectRespSt p) := by
  unfold Rpc.handleDisconnectRespSt
  split_ifs with hle
  · exact h.undefined
  rcases hx : st.sessionVec p.client.sessionNum with _ | x
  · exact h
  · exact (h.freeBury hx).emit _

theorem handleSmPkt (h : SmInv st) {p : SmPkt} {o : SmOracle} {st' : Rpc}
    (hs : st.handleSmPkt T p o = some st') (hb : st'.sessionVecSize ≤ 2 ^ 16) : SmInv st' := by
  have h0 : ∀ (c : Prop) [Decidable c] (l : List ℕ),
      SmInv (if c then { st with smPendingReqs := l } else st) := by
    intro c _ l
    split_ifs
    · exact h.congr rfl rfl rfl rfl rfl
    · exact h
  unfold Rpc.handleSmPkt at hs
  cases hp : p.pktType <;> simp only [hp, Option.some.injEq, reduceCtorEq] at hs <;> subst hs
  · exact (h0 _ _).handleConnectReqSt T hp o hb
  · exact (h0 _ _).handleConnectRespSt p o
  · exact (h0 _ _).handleDisconnectReqSt hp
  · exact (h0 _ _).handleDisconnectRespSt p

/-- A new client session keeps the invariant if it is at most the `2 ^ 16`-th. -/
theorem createSessionSt (h : SmInv st) {uri : String} {r t : ℕ} {res : Rpc × ℤ}
    (hc : st.createSessionSt uri r t = some res) (hb : res.1.sessionVecSize ≤ 2 ^ 16) :
    SmInv res.1 := by
  unfold Rpc.createSessionSt at hc
  rcases hport : extractUdpPortFromUri uri with _ | port <;>
    simp only [hport, Option.map_none, Option.map_some, reduceCtorEq, Option.some.injEq] at hc
  subst hc
  split_ifs at hb ⊢ with h1 h2 h3
  · exact h
  · exact h
  · exact h
  · have hr : st.haveRingEntries = true := by simpa using h3
    have hlt : st.sessionVecSize < 2 ^ 16 := by
      simp [Rpc.sendSmReqSt, Rpc.modifyCsi] at hb
      omega
    refine SmInv.sendSmReqSt (h.push (m := st.connReqTokenMap) hr (toSessionNum_of_lt hlt)
      (fun i => ⟨rfl, rfl⟩) (fun _ _ hn => hn) (fun _ _ hn => .inl hn)
      (fun hs => absurd hs (by simp [Session.init]))) (by simp)

theorem destroySessionSt (h : SmInv st) (n : ℤ) : SmInv (st.destroySessionSt n).1 := by
  unfold Rpc.destroySessionSt
  split_ifs
  · exact h
  · dsimp only
    rcases hx : st.sessionVec n.toNat with _ | x
    · exact h
    · dsimp only
      split_ifs with h1 h2
      · exact h
      · exact h
      · have hcl : x.role = .kClient := not_not.1 h1
        cases hs : x.state
        · exact h
        · have h' := h.setSess hx (y := { x with state := .kDisconnectInProgress })
            (SessKeeps.of_client hcl rfl rfl rfl rfl)
          exact h'.sendSmReqSt (by simp)
        · exact h
        · exact h

theorem handleResetServerSt (h : SmInv st) {s : ℕ} {x : Session} (hk : st.sessionVec s = some x) :
    SmInv (st.handleResetServerSt s).1 := by
  have h1 := h.setSess hk (y := { x with state := .kResetInProgress })
    ⟨rfl, rfl, rfl, fun _ => ⟨rfl, fun _ => by simp⟩, fun _ => rfl, fun _ => rfl⟩
  simp only [Rpc.handleResetServerSt, sess_eq hk, Rpc.sess_setSess_self]
  split_ifs
  · exact h1.freeBury (by rw [Rpc.setSess_sessionVec, Function.update_self])
  · exact h1

theorem deleteFromActiveRpcList_of_null {st : Rpc} {s i : ℕ}
    (hp : (st.slot s i).clientInfo.prev = .null) (hn : (st.slot s i).clientInfo.next = .null) :
    st.deleteFromActiveRpcList s i = st.undefined := by
  simp only [Rpc.deleteFromActiveRpcList, Rpc.prevOf, Rpc.nextOf, hp, hn, Rpc.setNext, Rpc.setPrev,
    Rpc.slot_undefined]
  rfl

/-- One pass of the reset loop over a live session keeps the invariant and the session. -/
theorem resetClientSlot (h : SmInv st) {s : ℕ} (hk : (st.sessionVec s).isSome) (i : ℕ) :
    SmInv (st.resetClientSlot T s i) ∧ ((st.resetClientSlot T s i).sessionVec s).isSome := by
  obtain ⟨x, hx⟩ := Option.isSome_iff_exists.1 hk
  have hlinks := h.unlinked s x hx i
  unfold Rpc.resetClientSlot
  dsimp only
  split
  · have h1 := h.setSlot (i := i) hk (y := { st.slot s i with txMsgbuf := .null }) rfl rfl
    have hnull : ((st.setSlot s i { st.slot s i with txMsgbuf := .null }).slot s i).clientInfo.prev =
        .null ∧ ((st.setSlot s i { st.slot s i with txMsgbuf := .null }).slot s i).clientInfo.next =
        .null := by
      simp only [Rpc.setSlot_eq, Rpc.slot_setSess_self, Function.update_self]
      rw [Rpc.slot, sess_eq hx]
      exact hlinks
    rw [deleteFromActiveRpcList_of_null hnull.1 hnull.2]
    have h2 := h1.undefined.modifyCsi (s := s) (by simp)
      fun csi => { csi with sslotFreeVec := (st.slot s i).index :: csi.sslotFreeVec }
    refine ⟨(h2.modifyCi (s := s) (i := i) (by simp) ?_).emit _, ?_⟩
    · exact fun _ => ⟨rfl, rfl⟩
    · simp only [Rpc.emit, Rpc.modifyCi_eq, Rpc.setSlot_eq, Rpc.setSess_sessionVec,
        Function.update_self, Option.isSome_some]
  · exact ⟨h, hk⟩

theorem foldl_resetClientSlot (h : SmInv st) {s : ℕ} (hk : (st.sessionVec s).isSome)
    (l : List ℕ) : SmInv (l.foldl (Rpc.resetClientSlot T s) st) ∧
      ((l.foldl (Rpc.resetClientSlot T s) st).sessionVec s).isSome := by
  induction l generalizing st with
  | nil => exact ⟨h, hk⟩
  | cons i l ih =>
    obtain ⟨h', hk'⟩ := h.resetClientSlot T hk i
    exact ih h' hk'

theorem handleResetClientSt (h : SmInv st) {s : ℕ} (hk : (st.sessionVec s).isSome) :
    SmInv (st.handleResetClientSt T s) := by
  have h0 : SmInv { st with stallq := Rpc.eraseSessionFromStallq s st.stallq } :=
    h.congr rfl rfl rfl rfl rfl
  have h1 := h0.foldl_resetClientSlot T (s := s) (by simp only; exact hk)
    (List.range kSessionReqWindow)
  unfold Rpc.handleResetClientSt
  dsimp only
  generalize (List.range kSessionReqWindow).foldl (Rpc.resetClientSlot T s)
    { st with stallq := Rpc.eraseSessionFromStallq s st.stallq } = st2 at h1 ⊢
  obtain ⟨h1, hk1⟩ := h1
  obtain ⟨y, hy⟩ := Option.isSome_iff_exists.1 hk1
  have h2 := h1.setSess hy (y := { y with state := .kDisconnectInProgress })
    ⟨rfl, rfl, rfl, fun _ => ⟨rfl, fun _ => by simp⟩, fun _ => rfl, fun _ => rfl⟩
  rw [sess_eq hy, Rpc.sess_setSess_self]
  exact (h2.freeBury (by rw [Rpc.setSess_sessionVec, Function.update_self])).emit _

/-- A step keeps the invariant if it leaves at most `2 ^ 16` sessions. -/
theorem smStep (h : SmInv st) {op : SmOp} {st' : Rpc} (hs : st.smStep T op = some st')
    (hb : st'.sessionVecSize ≤ 2 ^ 16) : SmInv st' := by
  cases op with
  | createSession uri r t =>
    simp only [Rpc.smStep, Option.map_eq_some_iff] at hs
    obtain ⟨res, hres, rfl⟩ := hs
    exact h.createSessionSt hres hb
  | destroySession n =>
    simp only [Rpc.smStep, Option.some.injEq] at hs
    subst hs
    exact h.destroySessionSt n
  | smRx p o =>
    simp only [Rpc.smStep, Rpc.handleSmRxSt, Option.bind_eq_some_iff, Option.some.injEq] at hs
    obtain ⟨st1, h1, rfl⟩ := hs
    exact h.handleSmPkt T h1 hb
  | resetClient s =>
    simp only [Rpc.smStep] at hs
    split at hs
    · split_ifs at hs
      simp only [Option.some.injEq] at hs
      subst hs
      exact h.handleResetClientSt T (by simp [*])
    · exact absurd hs (by simp)
  | resetServer s =>
    simp only [Rpc.smStep] at hs
    split at hs
    · rename_i x hx
      split_ifs at hs
      simp only [Option.some.injEq] at hs
      subst hs
      exact h.handleResetServerSt hx
    · exact absurd hs (by simp)

end Handlers

end SmInv

/-! ### What a step keeps

Every step keeps the length of `session_vec_` and the token map, except the two creations:
`create_session_st` appends a client session, and a connect request for a token with no entry
appends a server session and writes the token's entry. -/

section Frame

variable (T : Transport) {st st₁ st₂ : Rpc}

/-- `st'` has the length of `session_vec_` and the token map of `st`. -/
def SmFrame (st st' : Rpc) : Prop :=
  st'.sessionVecSize = st.sessionVecSize ∧ st'.connReqTokenMap = st.connReqTokenMap

theorem SmFrame.trans (h₁ : SmFrame st st₁) (h₂ : SmFrame st₁ st₂) : SmFrame st st₂ :=
  ⟨h₂.1.trans h₁.1, h₂.2.trans h₁.2⟩

/-- What one step may do to `session_vec_` and the token map: the map only gains entries, and
the vector keeps its length or gains one session, which, if it is a server session, is the
first of its token. -/
structure Grows (st st' : Rpc) : Prop where
  token : ∀ t n, st.connReqTokenMap t = some n → st'.connReqTokenMap t = some n
  size : st'.sessionVecSize = st.sessionVecSize ∨ st'.sessionVecSize = st.sessionVecSize + 1 ∧
    ∀ x, st'.sessionVec st.sessionVecSize = some x → x.role = .kServer →
      st.connReqTokenMap x.uniqToken = none ∧ (st'.connReqTokenMap x.uniqToken).isSome

theorem SmFrame.grows (h : SmFrame st st') : Grows st st' :=
  ⟨fun _ _ hn => h.2 ▸ hn, .inl h.1⟩

theorem Grows.size_le (h : Grows st st') : st.sessionVecSize ≤ st'.sessionVecSize := by
  rcases h.size with h | ⟨h, -⟩ <;> omega

theorem Grows.of_frame (h₁ : SmFrame st st₁) (h₂ : Grows st₁ st₂) : Grows st st₂ where
  token t n hn := h₂.token t n (h₁.2 ▸ hn)
  size := by
    have h := h₂.size
    rw [h₁.1, h₁.2] at h
    exact h

theorem setNext_smFrame (x y : Ptr) : SmFrame st (st.setNext x y) := by
  cases x <;> exact ⟨rfl, rfl⟩

theorem setPrev_smFrame (x y : Ptr) : SmFrame st (st.setPrev x y) := by
  cases x <;> exact ⟨rfl, rfl⟩

theorem deleteFromActiveRpcList_smFrame (s i : ℕ) :
    SmFrame st (st.deleteFromActiveRpcList s i) :=
  (setNext_smFrame _ _).trans (setPrev_smFrame _ _)

theorem resetClientSlot_smFrame (s i : ℕ) : SmFrame st (st.resetClientSlot T s i) := by
  unfold Rpc.resetClientSlot
  dsimp only
  split
  · obtain ⟨h1, h2⟩ :=
      @deleteFromActiveRpcList_smFrame (st.setSlot s i { st.slot s i with txMsgbuf := .null }) s i
    simp only [SmFrame, Rpc.emit, Rpc.modifyCi_eq, Rpc.setSlot_eq, Rpc.modifyCsi_eq,
      Rpc.setSess_sessionVecSize, Rpc.setSess_connReqTokenMap] at h1 h2 ⊢
    exact ⟨h1, h2⟩
  · exact ⟨rfl, rfl⟩

theorem foldl_resetClientSlot_smFrame (s : ℕ) (l : List ℕ) :
    SmFrame st (l.foldl (Rpc.resetClientSlot T s) st) := by
  induction l generalizing st with
  | nil => exact ⟨rfl, rfl⟩
  | cons i l ih => exact (resetClientSlot_smFrame T s i).trans ih

theorem handleResetClientSt_smFrame (s : ℕ) : SmFrame st (st.handleResetClientSt T s) := by
  have h := @foldl_resetClientSlot_smFrame T
    { st with stallq := Rpc.eraseSessionFromStallq s st.stallq } s (List.range kSessionReqWindow)
  unfold Rpc.handleResetClientSt
  dsimp only
  generalize (List.range kSessionReqWindow).foldl (Rpc.resetClientSlot T s)
    { st with stallq := Rpc.eraseSessionFromStallq s st.stallq } = st2 at h ⊢
  simpa [SmFrame] using h

theorem handleResetServerSt_smFrame (s : ℕ) : SmFrame st (st.handleResetServerSt s).1 := by
  simp only [Rpc.handleResetServerSt]
  split_ifs <;> simp [SmFrame]

theorem sendSmReqSt_smFrame (n : ℕ) : SmFrame st (st.sendSmReqSt n) := by
  simp [SmFrame, Rpc.sendSmReqSt]

theorem destroySessionSt_smFrame (n : ℤ) : SmFrame st (st.destroySessionSt n).1 := by
  unfold Rpc.destroySessionSt
  split_ifs
  · exact ⟨rfl, rfl⟩
  · dsimp only
    rcases st.sessionVec n.toNat with _ | x
    · exact ⟨rfl, rfl⟩
    · dsimp only
      split_ifs
      · exact ⟨rfl, rfl⟩
      · exact ⟨rfl, rfl⟩
      · cases x.state <;> simp [SmFrame, Rpc.sendSmReqSt]

theorem handleConnectRespSt_smFrame (p : SmPkt) (o : SmOracle) :
    SmFrame st (st.handleConnectRespSt p o) := by
  unfold Rpc.handleConnectRespSt
  dsimp only
  by_cases hle : st.sessionVecSize ≤ p.client.sessionNum
  · rw [if_pos hle]
    exact ⟨rfl, rfl⟩
  rw [if_neg hle]
  rcases st.sessionVec p.client.sessionNum with _ | x
  · exact ⟨rfl, rfl⟩
  · dsimp only
    split_ifs <;> simp [SmFrame, Rpc.sendSmReqSt]

theorem handleDisconnectReqSt_smFrame (p : SmPkt) : SmFrame st (st.handleDisconnectReqSt p) := by
  unfold Rpc.handleDisconnectReqSt
  split_ifs
  · exact ⟨rfl, rfl⟩
  rcases st.sessionVec p.server.sessionNum with _ | x <;> exact ⟨rfl, rfl⟩

theorem handleDisconnectRespSt_smFrame (p : SmPkt) : SmFrame st (st.handleDisconnectRespSt p) := by
  unfold Rpc.handleDisconnectRespSt
  split_ifs
  · exact ⟨rfl, rfl⟩
  rcases st.sessionVec p.client.sessionNum with _ | x <;> exact ⟨rfl, rfl⟩

theorem createSessionSt_grows {uri : String} {r t : ℕ} {res : Rpc × ℤ}
    (hc : st.createSessionSt uri r t = some res) : Grows st res.1 := by
  unfold Rpc.createSessionSt at hc
  rcases hport : extractUdpPortFromUri uri with _ | port <;>
    simp only [hport, Option.map_none, Option.map_some, reduceCtorEq, Option.some.injEq] at hc
  subst hc
  split_ifs
  · exact SmFrame.grows ⟨rfl, rfl⟩
  · exact SmFrame.grows ⟨rfl, rfl⟩
  · exact SmFrame.grows ⟨rfl, rfl⟩
  · refine ⟨fun _ _ hn => by simpa [Rpc.sendSmReqSt] using hn, .inr ⟨by simp [Rpc.sendSmReqSt],
      fun x hx hs => ?_⟩⟩
    simp only [Rpc.sendSmReqSt, Rpc.modifyCsi_eq, Rpc.smPktUdpTxSt, Rpc.setSess_sessionVec,
      Rpc.pushSession, Rpc.allocRingEntries, Function.update_self, Option.some.injEq] at hx
    rw [← hx] at hs
    simp [Session.init] at hs

/-- A connect request writes the token map only at its token, which had no entry, when it
appends the token's server session. -/
theorem handleConnectReqSt_grows {p : SmPkt} (o : SmOracle) :
    Grows st (st.handleConnectReqSt T p o) := by
  unfold Rpc.handleConnectReqSt
  rcases hm : st.connReqTokenMap p.uniqToken with _ | n'
  · dsimp only
    split_ifs
    · exact SmFrame.grows ⟨rfl, rfl⟩
    · exact SmFrame.grows ⟨rfl, rfl⟩
    · exact SmFrame.grows ⟨rfl, rfl⟩
    · exact SmFrame.grows ⟨rfl, rfl⟩
    · refine ⟨fun t n hn => ?_, .inr ⟨by simp, fun x hx _ => ?_⟩⟩
      · have ht : t ≠ p.uniqToken := ne_of_apply_ne st.connReqTokenMap (by simp [hn, hm])
        simp [Function.update_of_ne ht, hn]
      · simp only [Rpc.smPktUdpTxSt, Rpc.pushSession, Rpc.allocRingEntries, Function.update_self,
          Option.some.injEq] at hx
        subst hx
        simp [Rpc.newServerSession, Session.init, hm]
  · dsimp only
    split_ifs
    · exact SmFrame.grows ⟨rfl, rfl⟩
    rcases st.sessionVec n' with _ | x
    · exact SmFrame.grows ⟨rfl, rfl⟩
    · dsimp only
      split_ifs
      · exact SmFrame.grows ⟨rfl, rfl⟩
      · exact SmFrame.grows ⟨rfl, rfl⟩

theorem handleSmPkt_grows {p : SmPkt} {o : SmOracle} {st' : Rpc}
    (hs : st.handleSmPkt T p o = some st') : Grows st st' := by
  have h0 : ∀ (c : Prop) [Decidable c] (l : List ℕ),
      SmFrame st (if c then { st with smPendingReqs := l } else st) := by
    intro c _ l
    split_ifs <;> exact ⟨rfl, rfl⟩
  unfold Rpc.handleSmPkt at hs
  cases hp : p.pktType <;> simp only [hp, Option.some.injEq, reduceCtorEq] at hs <;> subst hs
  · exact Grows.of_frame (h0 _ _) (handleConnectReqSt_grows T o)
  · exact ((h0 _ _).trans (handleConnectRespSt_smFrame p o)).grows
  · exact ((h0 _ _).trans (handleDisconnectReqSt_smFrame p)).grows
  · exact ((h0 _ _).trans (handleDisconnectRespSt_smFrame p)).grows

/-- Every step grows `session_vec_` and the token map as `Grows` says. -/
theorem smStep_grows {op : SmOp} {st' : Rpc} (hs : st.smStep T op = some st') :
    Grows st st' := by
  cases op with
  | createSession uri r tok =>
    simp only [Rpc.smStep, Option.map_eq_some_iff] at hs
    obtain ⟨res, hres, rfl⟩ := hs
    exact createSessionSt_grows hres
  | destroySession k =>
    simp only [Rpc.smStep, Option.some.injEq] at hs
    subst hs
    exact (destroySessionSt_smFrame k).grows
  | smRx p o =>
    simp only [Rpc.smStep, Rpc.handleSmRxSt, Option.bind_eq_some_iff, Option.some.injEq] at hs
    obtain ⟨st1, h1, rfl⟩ := hs
    exact handleSmPkt_grows T h1
  | resetClient s =>
    simp only [Rpc.smStep] at hs
    split at hs
    · split_ifs at hs
      simp only [Option.some.injEq] at hs
      subst hs
      exact (handleResetClientSt_smFrame T s).grows
    · exact absurd hs (by simp)
  | resetServer s =>
    simp only [Rpc.smStep] at hs
    split at hs
    · split_ifs at hs
      simp only [Option.some.injEq] at hs
      subst hs
      exact (handleResetServerSt_smFrame s).grows
    · exact absurd hs (by simp)

end Frame

/-! ### Every run -/

/-- A connect request with token `t` for an Rpc of transport type `tt`. -/
def connectReqOf (tt t : ℕ) : SmPkt :=
  ⟨.kConnectReq, .kNoError, t, SessionEndpoint.init,
    { SessionEndpoint.init with transportType := tt }⟩

/-- A disconnect request for server session `n`. -/
def disconnectReqOf (n : ℕ) : SmPkt :=
  ⟨.kDisconnectReq, .kNoError, 0, SessionEndpoint.init,
    { SessionEndpoint.init with sessionNum := n }⟩

/-- Routing info resolves and every allocation succeeds. -/
def smOk : SmOracle := ⟨true, true⟩

section Runs

open Transition

variable (T : Transport) (rpcId : ℕ) (hostname : String) (smUdpPort transportType routingInfo : ℕ)
  (reqFuncArr : ℕ → Option ReqFuncType) (rpcRtoCycles smTimeoutCycles : ℕ) (retry : Bool)

theorem smInv_smStart :
    SmInv (smStart rpcId hostname smUdpPort transportType routingInfo reqFuncArr rpcRtoCycles
      smTimeoutCycles retry) where
  size _ _ := rfl
  lsn _ _ h := absurd h (by simp [smStart, Rpc.init])
  unlinked _ _ h := absurd h (by simp [smStart, Rpc.init])
  ring := by simp [smStart, Rpc.init, Rpc.liveSessions, OptVec.liveCount]
  server _ _ h := absurd h (by simp [smStart, Rpc.init])
  token _ _ h := absurd h (by simp [smStart, Rpc.init])
  resp _ h := absurd h (by simp [smStart, Rpc.init])

omit rpcId hostname smUdpPort transportType routingInfo reqFuncArr rpcRtoCycles smTimeoutCycles
  retry in
/-- Every state that session management reaches with at most `2 ^ 16` sessions passes the
invariant; `session_vec_` never shrinks, so neither did any state before it have more. -/
theorem SmInv.of_reachable {rpcId : ℕ} {hostname : String} {smUdpPort transportType routingInfo : ℕ}
    {reqFuncArr : ℕ → Option ReqFuncType} {rpcRtoCycles smTimeoutCycles : ℕ} {retry : Bool}
    {st : Rpc} (hr : Reachable (Rpc.smStep T) (smStart rpcId hostname smUdpPort transportType
      routingInfo reqFuncArr rpcRtoCycles smTimeoutCycles retry) st)
    (hb : st.sessionVecSize ≤ 2 ^ 16) : SmInv st :=
  Reachable.induct (fun st => st.sessionVecSize ≤ 2 ^ 16 → SmInv st) (fun _ => smInv_smStart ..)
    (fun _ _ _ _ hs hst hb' => (hs ((smStep_grows T hst).size_le.trans hb')).smStep T hst hb') hr hb

/-- The step created a server session of token `t`. -/
def createsServerSession (t : ℕ) (st st' : Rpc) : Bool :=
  st.sessionVecSize < st'.sessionVecSize &&
    match st'.sessionVec st.sessionVecSize with
    | some x => x.role == .kServer && x.uniqToken == t
    | none => false

end Runs

end ERpc
