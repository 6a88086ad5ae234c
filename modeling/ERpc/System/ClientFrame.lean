import ERpc.System.Inv

/-!
# What a step of one client sslot leaves alone

Every client handler works on one sslot `(s, i)`. It writes the sslot and the bookkeeping of
session `s`, relinks the active-RPC list around the sslot, and adds to the stall queue, the wheel,
the events and the packets sent only what is about the sslot. `ClStep s i cl cl'` says this of two
states. It holds of each write the handlers make (`ClStep.setSess`, `ClStep.sendAll`, ...) and
composes (`ClStep.trans`), like the frame of one memory region.

From a state with the invariant, a `ClStep` keeps the invariant as soon as it keeps what it reads
of the sslot pair `(s, i)`, of session `s`, of the active-RPC list and of the stall queue
(`Inv.cl_step`). The list depends only on the links and on which sslots are active
(`ActiveList.congr`).
-/

namespace ERpc

namespace Rpc

variable {cl : Rpc} {s i : ℕ}

@[simp] theorem clientView_x : (cl.clientView s i).x = (cl.slot s i).clientSlot := rfl
@[simp] theorem clientView_stalled : (cl.clientView s i).stalled = decide ((s, i) ∈ cl.stallq) := rfl
@[simp] theorem clientView_wheel : (cl.clientView s i).wheel = wheelFor s i cl.wheel := rfl
@[simp] theorem clientView_events : (cl.clientView s i).events = evsFor s i cl.events := rfl
@[simp] theorem clientView_sent : (cl.clientView s i).sent = pktsFor s i cl.tx := rfl

end Rpc

/-- `cl'` is `cl` after a step of client sslot `(s, i)`. -/
structure ClStep (s i : ℕ) (cl cl' : Rpc) : Prop where
  size : cl'.sessionVecSize = cl.sessionVecSize
  vec : ∀ t, cl.sessionVec t = some (cl.sess t) → cl'.sessionVec t = some (cl'.sess t)
  state : ∀ t, (cl'.sess t).state = (cl.sess t).state
  remote : ∀ t, (cl'.sess t).remoteSessionNum = (cl.sess t).remoteSessionNum
  csi : ∀ t, t ≠ s → (cl'.sess t).clientInfo = (cl.sess t).clientInfo
  view : ∀ t j, ¬(t = s ∧ j = i) → cl'.clientView t j = cl.clientView t j
  stallq : ∀ e ∈ cl'.stallq, e ∈ cl.stallq ∨ e = (s, i)
  wheel : ∀ e ∈ cl'.wheel, e ∈ cl.wheel ∨ (e.1 = s ∧ e.2.1 = i)
  tx : ∀ q ∈ cl'.tx, q ∈ cl.tx ∨ (q.hdr.destSessionNum = s ∧ q.hdr.reqNum % kSessionReqWindow = i)
  events : ∀ e ∈ cl'.events, e ∈ cl.events ∨ e.slot? = some (s, i)
  sm : cl'.smPendingReqs = cl.smPendingReqs

namespace ClStep

variable {s i : ℕ} {cl cl' cl'' : Rpc}

theorem refl (cl : Rpc) : ClStep s i cl cl :=
  ⟨rfl, fun _ h => h, fun _ => rfl, fun _ => rfl, fun _ _ => rfl, fun _ _ _ => rfl,
    fun _ h => .inl h, fun _ h => .inl h, fun _ h => .inl h, fun _ h => .inl h, rfl⟩

theorem trans (h1 : ClStep s i cl cl') (h2 : ClStep s i cl' cl'') : ClStep s i cl cl'' where
  size := h2.size.trans h1.size
  vec t h := h2.vec t (h1.vec t h)
  state t := (h2.state t).trans (h1.state t)
  remote t := (h2.remote t).trans (h1.remote t)
  csi t ht := (h2.csi t ht).trans (h1.csi t ht)
  view t j h := (h2.view t j h).trans (h1.view t j h)
  stallq e he := (h2.stallq e he).elim (h1.stallq e) .inr
  wheel e he := (h2.wheel e he).elim (h1.wheel e) .inr
  tx q hq := (h2.tx q hq).elim (h1.tx q) .inr
  events e he := (h2.events e he).elim (h1.events e) .inr
  sm := h2.sm.trans h1.sm

/-! ### The writes of the client handlers -/

theorem sessionVec_setSess {t u : ℕ} {x : Session} (h : cl.sessionVec t = some (cl.sess t)) :
    (cl.setSess u x).sessionVec t = some ((cl.setSess u x).sess t) := by
  rw [Rpc.setSess_sessionVec]
  by_cases htu : t = u
  · subst htu
    rw [Function.update_self, Rpc.sess_setSess_self]
  · rw [Function.update_of_ne htu, Rpc.sess_setSess_of_ne _ htu, h]

/-- Writing back session `t` with its state, its remote session, and, unless it is session `s`,
its bookkeeping, and the client view of every sslot but `(s, i)`. -/
theorem setSess {t : ℕ} {x : Session} (hst : x.state = (cl.sess t).state)
    (hr : x.remoteSessionNum = (cl.sess t).remoteSessionNum)
    (hc : t ≠ s → x.clientInfo = (cl.sess t).clientInfo)
    (hx : ∀ j, ¬(t = s ∧ j = i) → (x.sslotArr j).clientSlot = (cl.slot t j).clientSlot) :
    ClStep s i cl (cl.setSess t x) where
  size := rfl
  vec _ h := sessionVec_setSess h
  state u := by
    rw [Rpc.sess_setSess]
    split_ifs with h
    · rw [h, hst]
    · rfl
  remote u := by
    rw [Rpc.sess_setSess]
    split_ifs with h
    · rw [h, hr]
    · rfl
  csi u hu := by
    rw [Rpc.sess_setSess]
    split_ifs with h
    · subst h
      exact hc hu
    · rfl
  view u j h := by
    simp only [Rpc.clientView, Rpc.slot_setSess, Rpc.setSess_stallq, Rpc.setSess_wheel,
      Rpc.setSess_events, Rpc.setSess_tx]
    split_ifs with hu
    · subst hu
      rw [hx j h]
      rfl
    · rfl
  stallq _ h := .inl h
  wheel _ h := .inl h
  tx _ h := .inl h
  events _ h := .inl h
  sm := rfl

theorem setSlot (x : SSlot) : ClStep s i cl (cl.setSlot s i x) :=
  setSess rfl rfl (fun h => absurd rfl h) fun j hj => by
    dsimp only
    rw [Function.update_of_ne fun h => hj ⟨rfl, h⟩]
    rfl

theorem modifyCi (f : ClientInfo → ClientInfo) : ClStep s i cl (cl.modifyCi s i f) :=
  setSlot _

theorem modifyCsi (f : ClientSessionInfo → ClientSessionInfo) : ClStep s i cl (cl.modifyCsi s f) :=
  setSess rfl rfl (fun h => absurd rfl h) fun _ _ => rfl

theorem modifyCi_links {t j : ℕ} {f : ClientInfo → ClientInfo}
    (hf : ∀ x : SSlot, { x with clientInfo := f x.clientInfo }.clientSlot = x.clientSlot) :
    ClStep s i cl (cl.modifyCi t j f) := by
  refine setSess rfl rfl (fun _ => rfl) fun k _ => ?_
  dsimp only
  by_cases hk : k = j
  · subst hk
    rw [Function.update_self]
    exact hf _
  · rw [Function.update_of_ne hk]
    rfl

theorem sentinels (r t : Links) : ClStep s i cl { cl with rootSentinel := r, tailSentinel := t } where
  size := rfl
  vec _ h := h
  state _ := rfl
  remote _ := rfl
  csi _ _ := rfl
  view _ _ _ := rfl
  stallq _ h := .inl h
  wheel _ h := .inl h
  tx _ h := .inl h
  events _ h := .inl h
  sm := rfl

theorem undefined : ClStep s i cl cl.undefined where
  size := rfl
  vec _ h := h
  state _ := rfl
  remote _ := rfl
  csi _ _ := rfl
  view _ _ _ := rfl
  stallq _ h := .inl h
  wheel _ h := .inl h
  tx _ h := .inl h
  events _ h := .inl h
  sm := rfl

theorem setNext (x y : Ptr) : ClStep s i cl (cl.setNext x y) := by
  cases x with
  | null => exact undefined
  | root => exact sentinels _ _
  | tail => exact sentinels _ _
  | slot t j => exact modifyCi_links (f := fun ci => { ci with next := y }) fun _ => rfl

theorem setPrev (x y : Ptr) : ClStep s i cl (cl.setPrev x y) := by
  cases x with
  | null => exact undefined
  | root => exact sentinels _ _
  | tail => exact sentinels _ _
  | slot t j => exact modifyCi_links (f := fun ci => { ci with prev := y }) fun _ => rfl

theorem addToActiveRpcList : ClStep s i cl (cl.addToActiveRpcList s i) := by
  simp only [Rpc.addToActiveRpcList]
  exact (((setNext _ _).trans (setPrev _ _)).trans (setNext _ _)).trans (setPrev _ _)

theorem deleteFromActiveRpcList : ClStep s i cl (cl.deleteFromActiveRpcList s i) := by
  simp only [Rpc.deleteFromActiveRpcList]
  exact (setNext _ _).trans (setPrev _ _)

theorem sendAll {ps : List Pkt}
    (hps : ∀ q ∈ ps, q.hdr.destSessionNum = s ∧ q.hdr.reqNum % kSessionReqWindow = i) :
    ClStep s i cl (cl.sendAll ps) where
  size := rfl
  vec _ h := h
  state _ := rfl
  remote _ := rfl
  csi _ _ := rfl
  view t j h := by
    simp only [Rpc.clientView, Rpc.sendAll, Rpc.slot_mk, Rpc.getD_sessionVec, Rpc.sslotArr_sess,
      pktsFor_append, pktsFor_of_ne h hps, List.append_nil]
    rfl
  stallq _ h := .inl h
  wheel _ h := .inl h
  tx q hq := (List.mem_append.1 hq).imp_right (hps q)
  events _ h := .inl h
  sm := rfl

theorem emit {e : Event} (he : e.slot? = some (s, i)) : ClStep s i cl (cl.emit e) where
  size := rfl
  vec _ h := h
  state _ := rfl
  remote _ := rfl
  csi _ _ := rfl
  view t j h := by
    have hs : ∀ e' ∈ [e], e'.slot? = some (s, i) := fun e' he' => List.mem_singleton.1 he' ▸ he
    simp only [Rpc.clientView, Rpc.emit, Rpc.slot_mk, Rpc.getD_sessionVec, Rpc.sslotArr_sess,
      evsFor_append, evsFor_of_ne h hs, List.append_nil]
    rfl
  stallq _ h := .inl h
  wheel _ h := .inl h
  tx _ h := .inl h
  events e' he' := (List.mem_append.1 he').imp_right fun h => by rw [List.mem_singleton.1 h]; exact he
  sm := rfl

theorem stallq_eq {q : List (ℕ × ℕ)} (hq : ∀ e, e ≠ (s, i) → (e ∈ q ↔ e ∈ cl.stallq)) :
    ClStep s i cl { cl with stallq := q } where
  size := rfl
  vec _ h := h
  state _ := rfl
  remote _ := rfl
  csi _ _ := rfl
  view t j h := by
    have : (t, j) ≠ (s, i) := fun h' => h (Prod.mk.inj h')
    simp only [Rpc.clientView, Rpc.slot_mk, Rpc.getD_sessionVec, Rpc.sslotArr_sess, hq _ this]
  stallq e he := by
    by_cases h : e = (s, i)
    · exact .inr h
    · exact .inl ((hq e h).1 he)
  wheel _ h := .inl h
  tx _ h := .inl h
  events _ h := .inl h
  sm := rfl

theorem wheel_eq {w : List (ℕ × ℕ × ℕ)}
    (hw : ∀ t j, ¬(t = s ∧ j = i) → wheelFor t j w = wheelFor t j cl.wheel)
    (hsub : ∀ e ∈ w, e ∈ cl.wheel ∨ (e.1 = s ∧ e.2.1 = i)) :
    ClStep s i cl { cl with wheel := w } where
  size := rfl
  vec _ h := h
  state _ := rfl
  remote _ := rfl
  csi _ _ := rfl
  view t j h := by
    simp only [Rpc.clientView, Rpc.slot_mk, Rpc.getD_sessionVec, Rpc.sslotArr_sess, hw t j h]
  stallq _ h := .inl h
  wheel := hsub
  tx _ h := .inl h
  events _ h := .inl h
  sm := rfl

end ClStep

/-! ### The links of the active-RPC list -/

namespace Rpc

variable {st : Rpc} {s i : ℕ}

theorem nextOf_modifyCi {f : ClientInfo → ClientInfo} (hf : ∀ ci, (f ci).next = ci.next) :
    (st.modifyCi s i f).nextOf = st.nextOf := by
  funext p
  cases p with
  | slot t j =>
    by_cases h : t = s ∧ j = i
    · obtain ⟨rfl, rfl⟩ := h
      simp [hf]
    · simp only [nextOf_slot, slot_modifyCi_of_ne _ h]
  | _ => rfl

theorem prevOf_modifyCi {f : ClientInfo → ClientInfo} (hf : ∀ ci, (f ci).prev = ci.prev) :
    (st.modifyCi s i f).prevOf = st.prevOf := by
  funext p
  cases p with
  | slot t j =>
    by_cases h : t = s ∧ j = i
    · obtain ⟨rfl, rfl⟩ := h
      simp [hf]
    · simp only [prevOf_slot, slot_modifyCi_of_ne _ h]
  | _ => rfl

theorem nextOf_setSlot {x : SSlot} (hx : x.clientInfo.next = (st.slot s i).clientInfo.next) :
    (st.setSlot s i x).nextOf = st.nextOf := by
  funext p
  cases p with
  | slot t j =>
    simp only [nextOf_slot, slot_setSlot]
    split_ifs with h
    · obtain ⟨rfl, rfl⟩ := h
      exact hx
    · rfl
  | _ => rfl

theorem prevOf_setSlot {x : SSlot} (hx : x.clientInfo.prev = (st.slot s i).clientInfo.prev) :
    (st.setSlot s i x).prevOf = st.prevOf := by
  funext p
  cases p with
  | slot t j =>
    simp only [prevOf_slot, slot_setSlot]
    split_ifs with h
    · obtain ⟨rfl, rfl⟩ := h
      exact hx
    · rfl
  | _ => rfl

@[simp] theorem slot_modifyCsi (f : ClientSessionInfo → ClientSessionInfo) {t j : ℕ} :
    (st.modifyCsi s f).slot t j = st.slot t j := by
  rw [modifyCsi_eq, slot_setSess]
  split_ifs with h
  · rw [h]
    rfl
  · rfl

theorem nextOf_modifyCsi (f : ClientSessionInfo → ClientSessionInfo) :
    (st.modifyCsi s f).nextOf = st.nextOf := by
  funext p
  cases p with
  | slot t j => rw [nextOf_slot, nextOf_slot, slot_modifyCsi]
  | _ => rfl

theorem prevOf_modifyCsi (f : ClientSessionInfo → ClientSessionInfo) :
    (st.modifyCsi s f).prevOf = st.prevOf := by
  funext p
  cases p with
  | slot t j => rw [prevOf_slot, prevOf_slot, slot_modifyCsi]
  | _ => rfl

end Rpc

variable {n : ℕ}

theorem ActiveList.congr {cl cl' : Rpc} (h : ActiveList n cl) (hn : cl'.nextOf = cl.nextOf)
    (hp : cl'.prevOf = cl.prevOf)
    (hx : ∀ t j, (cl'.slot t j).txMsgbuf = .null ↔ (cl.slot t j).txMsgbuf = .null) :
    ActiveList n cl' := by
  obtain ⟨l, hb, hnd, hl⟩ := h
  refine ⟨l, hn ▸ hp ▸ hb, hnd, fun p => (hl p).trans ?_⟩
  simp only [ne_eq, hx]

/-- A step of sslot `(s, i)` that keeps the links and whether the sslot is active keeps the
list. -/
theorem ActiveList.of_clStep {s i : ℕ} {cl cl' : Rpc} (h : ActiveList n cl) (hc : ClStep s i cl cl')
    (hn : cl'.nextOf = cl.nextOf) (hp : cl'.prevOf = cl.prevOf)
    (hx : (cl'.slot s i).txMsgbuf = .null ↔ (cl.slot s i).txMsgbuf = .null) : ActiveList n cl' := by
  refine h.congr hn hp fun t j => ?_
  by_cases htj : t = s ∧ j = i
  · obtain ⟨rfl, rfl⟩ := htj
    exact hx
  · have : (cl'.slot t j).txMsgbuf = (cl.slot t j).txMsgbuf :=
      congrArg (fun c : ClientView => c.x.txMsgbuf) (hc.view t j htj)
    rw [this]

/-! ### The invariant over a step of one sslot -/

section Wheel

theorem wheelFor_cons {s i : ℕ} (e : ℕ × ℕ × ℕ) (w : List (ℕ × ℕ × ℕ)) :
    wheelFor s i (e :: w) = if e.1 = s ∧ e.2.1 = i then e.2.2 :: wheelFor s i w else wheelFor s i w := by
  simp only [wheelFor, List.filterMap_cons]
  split_ifs <;> rfl

theorem wheelFor_nodup {w : List (ℕ × ℕ × ℕ)} (h : w.Nodup) (s i : ℕ) : (wheelFor s i w).Nodup :=
  h.filterMap fun a a' b ha ha' => by
    obtain ⟨a1, a2, a3⟩ := a
    obtain ⟨b1, b2, b3⟩ := a'
    simp only [Option.mem_def, Option.ite_none_right_eq_some, Option.some.injEq] at ha ha'
    obtain ⟨⟨rfl, rfl⟩, rfl⟩ := ha
    obtain ⟨⟨rfl, rfl⟩, rfl⟩ := ha'
    rfl

theorem nodup_of_wheelFor : ∀ {w : List (ℕ × ℕ × ℕ)}, (∀ s i, (wheelFor s i w).Nodup) → w.Nodup
  | [], _ => List.nodup_nil
  | e :: w, h => by
    have hw : ∀ s i, (wheelFor s i w).Nodup := fun s i => by
      have := h s i
      rw [wheelFor_cons] at this
      split_ifs at this
      · exact (List.nodup_cons.1 this).2
      · exact this
    refine List.nodup_cons.2 ⟨fun he => ?_, nodup_of_wheelFor hw⟩
    have := h e.1 e.2.1
    rw [wheelFor_cons, if_pos ⟨rfl, rfl⟩] at this
    exact (List.nodup_cons.1 this).1 (mem_wheelFor.2 he)

end Wheel

theorem SessInv.congr {T : Transport} {s : ℕ} {cs cs' : Session} {w w' : ℕ → ClientView}
    (h : SessInv T s cs w) (hc : cs'.clientInfo = cs.clientInfo) (hst : cs'.state = cs.state)
    (hr : cs'.remoteSessionNum = cs.remoteSessionNum) (hw : ∀ j, (w' j).x = (w j).x) :
    SessInv T s cs' w' where
  credits := by
    simp only [hc, hw]
    exact h.credits
  free_nodup := hc ▸ h.free_nodup
  free_mem j := by
    rw [hc, hw]
    exact h.free_mem j
  backlog := hc ▸ h.backlog
  backlog_ok := hc ▸ h.backlog_ok
  connected := hst ▸ h.connected
  remote := hr ▸ h.remote

variable {T : Transport} {pacing : Bool} {d : Dp}

/-- A step of client sslot `(s, i)` keeps the invariant of the datapath as soon as it keeps the
invariant of the sslot pair and of the session, the active-RPC list, and a stall queue without
repeats. -/
theorem Inv.cl_step (h : Inv T pacing n d) {s i : ℕ} {cl : Rpc} (hs : s < n)
    (hi : i < kSessionReqWindow) (hc : ClStep s i d.cl cl)
    (hsess : SessInv T s (cl.sess s) (cl.clientView s))
    (hslot : SlotInv T pacing s i (cl.clientView s i) (d.sv.serverView s i))
    (hlist : ActiveList n cl) (hq : cl.stallq.Nodup) : Inv T pacing n { d with cl := cl } where
  cl_size := hc.size.trans h.cl_size
  sv_size := h.sv_size
  cl_sess t ht := hc.vec t (h.cl_sess t ht)
  sv_sess := h.sv_sess
  sv_static := h.sv_static
  sessions t ht := by
    by_cases hts : t = s
    · subst hts
      exact hsess
    · refine (h.sessions t ht).congr (hc.csi t hts) (hc.state t) (hc.remote t) fun j => ?_
      rw [hc.view t j fun h => hts h.1]
  slots t ht j hj := by
    by_cases htj : t = s ∧ j = i
    · obtain ⟨rfl, rfl⟩ := htj
      exact hslot
    · dsimp only
      rw [hc.view t j htj]
      exact h.slots t ht j hj
  list := hlist
  stallq_nodup := hq
  stallq_range e he := (hc.stallq e he).elim (h.stallq_range e) fun he' => he' ▸ ⟨hs, hi⟩
  wheel_nodup := nodup_of_wheelFor fun t j => by
    by_cases htj : t = s ∧ j = i
    · obtain ⟨rfl, rfl⟩ := htj
      exact hslot.wheel_nodup
    · have := congrArg ClientView.wheel (hc.view t j htj)
      simp only [Rpc.clientView_wheel] at this
      rw [this]
      exact wheelFor_nodup h.wheel_nodup t j
  wheel_range e he := (hc.wheel e he).elim (h.wheel_range e) fun ⟨h1, h2⟩ => ⟨h1 ▸ hs, h2 ▸ hi⟩
  cl_tx_range q hq := (hc.tx q hq).elim (h.cl_tx_range q) fun ⟨h1, _⟩ => h1 ▸ hs
  sv_tx_range := h.sv_tx_range
  events_range e he t ht := by
    rcases List.mem_append.1 he with he | he
    · rcases hc.events e he with he' | he'
      · exact h.events_range e (List.mem_append_left _ he') t ht
      · rw [he', Option.mem_def, Option.some.injEq] at ht
        rw [← ht]
        exact ⟨hs, hi⟩
    · exact h.events_range e (List.mem_append_right _ he) t ht
  sm_idle := hc.sm.trans h.sm_idle

end ERpc
