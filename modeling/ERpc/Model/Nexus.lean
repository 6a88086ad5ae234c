import ERpc.Model.Sm

/-!
# The session-management thread of a Nexus

`Nexus::sm_thread_func` (`nexus_impl/nexus_sm_thread.cc`) receives management packets on the
Nexus's UDP port. It skips unblock packets, looks up the hook of the packet's Rpc in
`reg_hooks_arr_` and queues the packet there; a request for an Rpc that has no hook is answered
with `kInvalidRemoteRpcId`, a response for one is dropped. The Rpc is the server's for a request
and the client's for a response, read from a full `uint8_t`, while the table has
`kMaxRpcId + 1` entries. The model reads the table as a function on `Fin (kMaxRpcId + 1)` and
returns `none` where the code reads past it.

`HeartbeatMgr::make_heartbeat` (`heartbeat_mgr.h`) builds the ping requests that the heartbeat
manager sends to remote management threads.
-/

namespace ERpc

/-- `kMaxRpcId` (`UINT8_MAX - 1`) -/
def kMaxRpcId : ℕ := 254

/-- What one pass of the loop of `sm_thread_func` does with the packet it received. -/
inductive SmThreadAction
  | unblock
  | push (rpcId : ℕ) (p : SmPkt)
  | send (p : SmPkt)
  | drop
  deriving DecidableEq, Repr

def SmPkt.targetRpcId (p : SmPkt) : ℕ := if p.isReq then p.server.rpcId else p.client.rpcId

/-- One pass of the loop of `Nexus::sm_thread_func` on packet `p`; `regHooksArr k` says whether
Rpc `k` has a hook. -/
def smThreadFunc (regHooksArr : Fin (kMaxRpcId + 1) → Bool) (p : SmPkt) :
    Option SmThreadAction :=
  if p.pktType = .kUnblock then some .unblock
  else if h : p.targetRpcId < kMaxRpcId + 1 then
    if regHooksArr ⟨p.targetRpcId, h⟩ then some (.push p.targetRpcId p)
    else if p.isReq then some (.send (smConstructResp p .kInvalidRemoteRpcId))
    else some .drop
  else none

/-- `split_uri`: the hostname and the UDP port of a URI, as `extract_hostname_from_uri` and
`extract_udp_port_from_uri` read them. -/
def splitUri (uri : String) : Option (String × ℕ) :=
  (extractUdpPortFromUri uri).map fun port => (extractHostnameFromUri uri, port)

/-- `split_uri` reads a URI of the grammar back as its hostname and port. -/
theorem splitUri_of_grammar {hostname : String} {port : ℕ} (hh : hostname ≠ "")
    (hc : ':' ∉ hostname.toList) (hp : port < 2 ^ 16) :
    splitUri (hostname ++ ":" ++ toString port) = some (hostname, port) := by
  obtain ⟨-, h1, h2⟩ := uri_of_grammar hh hc hp
  unfold splitUri
  rw [h2, Option.map_some, h1]

/-- `HeartbeatMgr::make_heartbeat`: the local process is the packet's client; the transport
type, Rpc IDs and session numbers keep the invalid values of `SessionEndpoint`'s constructor. -/
def makeHeartbeat (localHostname : String) (localSmUdpPort : ℕ) (remoteUri : String) :
    Option SmPkt :=
  (splitUri remoteUri).map fun (remoteHostname, remoteSmUdpPort) =>
    { pktType := .kPingReq
      errType := .kNoError
      uniqToken := 0
      client := { SessionEndpoint.init with
        hostname := localHostname, smUdpPort := localSmUdpPort }
      server := { SessionEndpoint.init with
        hostname := remoteHostname, smUdpPort := remoteSmUdpPort } }

variable {regHooksArr : Fin (kMaxRpcId + 1) → Bool} {p : SmPkt}

/-- The thread reads past `reg_hooks_arr_` exactly on the packets other than unblocks whose Rpc ID
is above `kMaxRpcId`. -/
theorem smThreadFunc_eq_none_iff :
    smThreadFunc regHooksArr p = none ↔ p.pktType ≠ .kUnblock ∧ kMaxRpcId < p.targetRpcId := by
  unfold smThreadFunc
  by_cases hu : p.pktType = .kUnblock
  · simp [hu]
  by_cases hlt : p.targetRpcId < kMaxRpcId + 1
  · rw [if_neg hu, dif_pos hlt]
    have hr : ¬ kMaxRpcId < p.targetRpcId := by omega
    simp only [hr, and_false, iff_false]
    split_ifs <;> simp
  · simp only [hu, dif_neg hlt, if_false, ne_eq, not_false_eq_true, true_and, true_iff]
    omega

theorem smThreadFunc_of_hook {k : Fin (kMaxRpcId + 1)} (hu : p.pktType ≠ .kUnblock)
    (hk : p.targetRpcId = k) (hh : regHooksArr k = true) :
    smThreadFunc regHooksArr p = some (.push k p) := by
  have hlt : p.targetRpcId < kMaxRpcId + 1 := hk ▸ k.isLt
  have hfin : (⟨p.targetRpcId, hlt⟩ : Fin (kMaxRpcId + 1)) = k := Fin.ext hk
  unfold smThreadFunc
  rw [if_neg hu, dif_pos hlt, hfin, if_pos hh, hk]

theorem makeHeartbeat_target {localHostname : String} {localSmUdpPort : ℕ} {remoteUri : String}
    {hb : SmPkt} (h : hb ∈ makeHeartbeat localHostname localSmUdpPort remoteUri) :
    hb.pktType = .kPingReq ∧ hb.targetRpcId = kInvalidRpcId := by
  unfold makeHeartbeat at h
  obtain ⟨⟨host, port⟩, -, rfl⟩ := Option.mem_map.1 h
  simp [SmPkt.targetRpcId, SmPkt.isReq, SmPktType.isReq, SessionEndpoint.init]

/-- A work item of a ping type makes `handle_sm_rx_st` throw, whatever follows it. -/
theorem handleSmRxSt_ping (T : Transport) (st : Rpc) (o : SmOracle)
    (q : List (SmPkt × SmOracle)) (hp : p.pktType = .kPingReq ∨ p.pktType = .kPingResp) :
    st.handleSmRxSt T ((p, o) :: q) = none := by
  rcases hp with hp | hp <;> simp [Rpc.handleSmRxSt, Rpc.handleSmPkt, hp]

/-- Packets the management thread or the Rpc cannot handle. Every heartbeat makes the thread read
past `reg_hooks_arr_`, and so does the connect request of every session a client creates for Rpc
`kInvalidRpcId`, an ID that `create_session_st` accepts. A ping request for an Rpc that has a
hook goes to that Rpc's queue, where `handle_sm_rx_st` throws. -/
theorem sm_thread_mishandles_packets (T : Transport) (regHooksArr : Fin (kMaxRpcId + 1) → Bool) :
    (∀ localHostname localSmUdpPort remoteUri,
      ∀ hb ∈ makeHeartbeat localHostname localSmUdpPort remoteUri,
        smThreadFunc regHooksArr hb = none) ∧
    (∀ (st st' : Rpc) uri t (n : ℤ), st.createSessionSt uri kInvalidRpcId t = some (st', n) →
      0 ≤ n → ∃ p ∈ st'.smTx, smThreadFunc regHooksArr p = none) ∧
    ∀ (k : Fin (kMaxRpcId + 1)) (p : SmPkt) (o : SmOracle) (st : Rpc), regHooksArr k = true →
      p.pktType = .kPingReq → p.server.rpcId = k →
        smThreadFunc regHooksArr p = some (.push k p) ∧ st.handleSmRxSt T [(p, o)] = none := by
  refine ⟨fun localHostname localSmUdpPort remoteUri hb hmem => ?_,
    fun st st' uri t n hc hn => ?_, fun k p o st hk hp hr => ?_⟩
  · obtain ⟨hping, htarget⟩ := makeHeartbeat_target hmem
    refine smThreadFunc_eq_none_iff.2 ⟨by simp [hping], ?_⟩
    rw [htarget]
    decide
  · obtain ⟨p, hs, hp, -, hr, -⟩ := Rpc.createSessionSt_smTx hc hn
    refine ⟨p, by simp [hs], smThreadFunc_eq_none_iff.2 ⟨by simp [hp], ?_⟩⟩
    simp [SmPkt.targetRpcId, SmPkt.isReq, SmPktType.isReq, hp, hr, kMaxRpcId, kInvalidRpcId]
  · have ht : p.targetRpcId = k := by simp [SmPkt.targetRpcId, SmPkt.isReq, SmPktType.isReq, hp, hr]
    exact ⟨smThreadFunc_of_hook (by simp [hp]) ht hk, handleSmRxSt_ping T st o [] (.inl hp)⟩

end ERpc
