import ERpc.System.Datapath

/-!
# What each sslot pair looks like

The invariant of the datapath is a statement about each sslot pair: sslot `i` of client session
`s` and sslot `i` of server session `s`. What it reads of the client is the sslot without its
list links, timestamps and continuation (`ClientSlot`), whether the sslot waits in the credit
stall queue, its wheel entries, the events about it and the packets for it (`ClientView`); of the
server, the sslot, its events and the packets it sent for it (`ServerView`).

A packet belongs to the sslot pair its header names: the session `dest_session_num_` and the sslot
`req_num_ % kSessionReqWindow`, which is how `process_comps_st` finds it.
-/

namespace ERpc

/-- What the invariant reads of a client sslot. -/
structure ClientSlot where
  index : ℕ
  txMsgbuf : TxMsgbuf
  curReqNum : ℕ
  numTx : ℕ
  numRx : ℕ
  respMsgbuf : MsgBuffer
  inWheel : ℕ → Bool
  wheelCount : ℕ

/-- The client sslot without its links, its timestamps and its continuation. -/
def SSlot.clientSlot (x : SSlot) : ClientSlot :=
  ⟨x.index, x.txMsgbuf, x.curReqNum, x.clientInfo.numTx, x.clientInfo.numRx,
    x.clientInfo.respMsgbuf, x.clientInfo.inWheel, x.clientInfo.wheelCount⟩

/-- One client sslot as the invariant sees it. -/
structure ClientView where
  x : ClientSlot
  stalled : Bool
  wheel : List ℕ
  events : List Event
  sent : List Pkt

/-- One server sslot as the invariant sees it. -/
structure ServerView where
  x : SSlot
  events : List Event
  sent : List Pkt

/-- The packets of sslot `i` of session `s`. -/
def pktsFor (s i : ℕ) (ps : List Pkt) : List Pkt :=
  ps.filter fun p => p.hdr.destSessionNum == s && p.hdr.reqNum % kSessionReqWindow == i

/-- The events about sslot `i` of session `s`. -/
def evsFor (s i : ℕ) (es : List Event) : List Event :=
  es.filter fun e => e.slot? == some (s, i)

/-- The packet numbers of the wheel entries of sslot `i` of session `s`. -/
def wheelFor (s i : ℕ) (w : List (ℕ × ℕ × ℕ)) : List ℕ :=
  w.filterMap fun e => if e.1 = s ∧ e.2.1 = i then some e.2.2 else none

/-- The request numbers of the request-handler calls among `es`. -/
def reqFuncNums (es : List Event) : List ℕ :=
  es.filterMap fun
    | .reqFunc _ _ r _ => some r
    | _ => none

/-- The request numbers of the responses enqueued among `es`. -/
def respNums (es : List Event) : List ℕ :=
  es.filterMap fun
    | .respEnqueued _ _ r _ => some r
    | _ => none

/-- The request numbers given to sslots among `es`. -/
def assignedNums (es : List Event) : List ℕ :=
  es.filterMap fun
    | .reqAssigned _ _ r _ => some r
    | _ => none

/-- The request numbers of the continuations among `es`. -/
def contNums (es : List Event) : List ℕ :=
  es.filterMap fun
    | .contFunc _ _ r _ _ => some r
    | _ => none

namespace Rpc

/-- Sslot `i` of client session `s`, as the invariant sees it. -/
def clientView (cl : Rpc) (s i : ℕ) : ClientView :=
  ⟨(cl.slot s i).clientSlot, decide ((s, i) ∈ cl.stallq), wheelFor s i cl.wheel,
    evsFor s i cl.events, pktsFor s i cl.tx⟩

/-- Sslot `i` of server session `s`, as the invariant sees it. -/
def serverView (sv : Rpc) (s i : ℕ) : ServerView :=
  ⟨sv.slot s i, evsFor s i sv.events, pktsFor s i sv.tx⟩

end Rpc

section Filters

variable {s i : ℕ}

@[simp] theorem pktsFor_append (ps qs : List Pkt) :
    pktsFor s i (ps ++ qs) = pktsFor s i ps ++ pktsFor s i qs :=
  List.filter_append _ _

theorem mem_pktsFor {p : Pkt} {ps : List Pkt} :
    p ∈ pktsFor s i ps ↔ p ∈ ps ∧ p.hdr.destSessionNum = s ∧ p.hdr.reqNum % kSessionReqWindow = i := by
  simp [pktsFor]

theorem pktsFor_of_forall {ps : List Pkt}
    (h : ∀ p ∈ ps, p.hdr.destSessionNum = s ∧ p.hdr.reqNum % kSessionReqWindow = i) :
    pktsFor s i ps = ps :=
  List.filter_eq_self.2 fun p hp => by simp [h p hp]

theorem pktsFor_of_ne {t j : ℕ} {ps : List Pkt} (hne : ¬(t = s ∧ j = i))
    (h : ∀ p ∈ ps, p.hdr.destSessionNum = s ∧ p.hdr.reqNum % kSessionReqWindow = i) :
    pktsFor t j ps = [] :=
  List.filter_eq_nil_iff.2 fun p hp => by
    obtain ⟨h1, h2⟩ := h p hp
    simp only [h1, h2, Bool.and_eq_true, beq_iff_eq, not_and]
    exact fun ht hj => hne ⟨ht.symm, hj.symm⟩

@[simp] theorem evsFor_append (es fs : List Event) :
    evsFor s i (es ++ fs) = evsFor s i es ++ evsFor s i fs :=
  List.filter_append _ _

theorem evsFor_of_forall {es : List Event} (h : ∀ e ∈ es, e.slot? = some (s, i)) : evsFor s i es = es :=
  List.filter_eq_self.2 fun e he => by simp [h e he]

theorem evsFor_of_ne {t j : ℕ} {es : List Event} (hne : ¬(t = s ∧ j = i))
    (h : ∀ e ∈ es, e.slot? = some (s, i)) : evsFor t j es = [] :=
  List.filter_eq_nil_iff.2 fun e he => by
    simp only [h e he, beq_iff_eq, Option.some.injEq, Prod.mk.injEq]
    exact fun ⟨h1, h2⟩ => hne ⟨h1.symm, h2.symm⟩

theorem evsFor_single {e : Event} {t j : ℕ} (h : e.slot? = some (t, j)) :
    evsFor s i [e] = if t = s ∧ j = i then [e] else [] := by
  by_cases hs : t = s ∧ j = i
  · obtain ⟨rfl, rfl⟩ := hs
    simp [evsFor, h]
  · simp only [evsFor, List.filter_cons, List.filter_nil, h, if_neg hs]
    split_ifs with h'
    · simp only [beq_iff_eq, Option.some.injEq, Prod.mk.injEq] at h'
      exact absurd h' hs
    · rfl

theorem mem_evsFor {e : Event} {es : List Event} : e ∈ evsFor s i es ↔ e ∈ es ∧ e.slot? = some (s, i) := by
  simp [evsFor]

@[simp] theorem wheelFor_append (w w' : List (ℕ × ℕ × ℕ)) :
    wheelFor s i (w ++ w') = wheelFor s i w ++ wheelFor s i w' :=
  List.filterMap_append

theorem mem_wheelFor {p : ℕ} {w : List (ℕ × ℕ × ℕ)} : p ∈ wheelFor s i w ↔ (s, i, p) ∈ w := by
  simp only [wheelFor, List.mem_filterMap, Option.ite_none_right_eq_some, Option.some.injEq]
  constructor
  · rintro ⟨⟨a, b, c⟩, h, ⟨rfl, rfl⟩, rfl⟩
    exact h
  · intro h
    exact ⟨(s, i, p), h, ⟨rfl, rfl⟩, rfl⟩

@[simp] theorem reqFuncNums_append (es fs : List Event) :
    reqFuncNums (es ++ fs) = reqFuncNums es ++ reqFuncNums fs :=
  List.filterMap_append

@[simp] theorem respNums_append (es fs : List Event) :
    respNums (es ++ fs) = respNums es ++ respNums fs :=
  List.filterMap_append

@[simp] theorem assignedNums_append (es fs : List Event) :
    assignedNums (es ++ fs) = assignedNums es ++ assignedNums fs :=
  List.filterMap_append

@[simp] theorem contNums_append (es fs : List Event) :
    contNums (es ++ fs) = contNums es ++ contNums fs :=
  List.filterMap_append

@[simp] theorem reqFuncNums_reqFunc (t j r : ℕ) (B : MsgBuffer) : reqFuncNums [.reqFunc t j r B] = [r] := rfl
@[simp] theorem reqFuncNums_respEnqueued (t j r : ℕ) (B : MsgBuffer) :
    reqFuncNums [.respEnqueued t j r B] = [] := rfl
@[simp] theorem respNums_reqFunc (t j r : ℕ) (B : MsgBuffer) : respNums [.reqFunc t j r B] = [] := rfl
@[simp] theorem respNums_respEnqueued (t j r : ℕ) (B : MsgBuffer) :
    respNums [.respEnqueued t j r B] = [r] := rfl

-- a handler call or an enqueued response appended to the history, for `rw`
theorem reqFuncNums_append_reqFunc (es : List Event) (t j r : ℕ) (B : MsgBuffer) :
    reqFuncNums (es ++ [.reqFunc t j r B]) = reqFuncNums es ++ [r] := by
  rw [reqFuncNums_append, reqFuncNums_reqFunc]
theorem respNums_append_reqFunc (es : List Event) (t j r : ℕ) (B : MsgBuffer) :
    respNums (es ++ [.reqFunc t j r B]) = respNums es := by
  rw [respNums_append, respNums_reqFunc, List.append_nil]
theorem reqFuncNums_append_respEnqueued (es : List Event) (t j r : ℕ) (B : MsgBuffer) :
    reqFuncNums (es ++ [.respEnqueued t j r B]) = reqFuncNums es := by
  rw [reqFuncNums_append, reqFuncNums_respEnqueued, List.append_nil]
theorem respNums_append_respEnqueued (es : List Event) (t j r : ℕ) (B : MsgBuffer) :
    respNums (es ++ [.respEnqueued t j r B]) = respNums es ++ [r] := by
  rw [respNums_append, respNums_respEnqueued]

@[simp] theorem assignedNums_reqAssigned (t j r : ℕ) (B : MsgBuffer) :
    assignedNums [.reqAssigned t j r B] = [r] := rfl
@[simp] theorem assignedNums_contFunc (t j r tag : ℕ) (B : MsgBuffer) :
    assignedNums [.contFunc t j r tag B] = [] := rfl
@[simp] theorem contNums_reqAssigned (t j r : ℕ) (B : MsgBuffer) : contNums [.reqAssigned t j r B] = [] := rfl
@[simp] theorem contNums_contFunc (t j r tag : ℕ) (B : MsgBuffer) :
    contNums [.contFunc t j r tag B] = [r] := rfl

theorem mem_reqFuncNums {r : ℕ} {es : List Event} : r ∈ reqFuncNums es ↔ ∃ t j B, .reqFunc t j r B ∈ es := by
  simp only [reqFuncNums, List.mem_filterMap]
  constructor
  · rintro ⟨e, he, h⟩
    cases e with
    | reqFunc t j r' B =>
      cases h
      exact ⟨t, j, B, he⟩
    | _ => cases h
  · rintro ⟨t, j, B, h⟩
    exact ⟨_, h, rfl⟩

theorem mem_respNums {r : ℕ} {es : List Event} : r ∈ respNums es ↔ ∃ t j B, .respEnqueued t j r B ∈ es := by
  simp only [respNums, List.mem_filterMap]
  constructor
  · rintro ⟨e, he, h⟩
    cases e with
    | respEnqueued t j r' B =>
      cases h
      exact ⟨t, j, B, he⟩
    | _ => cases h
  · rintro ⟨t, j, B, h⟩
    exact ⟨_, h, rfl⟩

theorem pairwise_append_single {l : List ℕ} {r : ℕ} (h : l.Pairwise (· < ·)) (hr : ∀ a ∈ l, a < r) :
    (l ++ [r]).Pairwise (· < ·) :=
  List.pairwise_append.2 ⟨h, List.pairwise_singleton _ _, fun a ha b hb => by
    rw [List.mem_singleton.1 hb]
    exact hr a ha⟩

end Filters

end ERpc
