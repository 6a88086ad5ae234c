import ERpc.Model.HeartbeatMgr
import ERpc.Lib.Reach
import Mathlib

/-!
# The heartbeat manager over any sequence of calls

The manager serves `unlocked_add_remote`, `unlocked_receive_hb` and `do_one` calls one at a time,
each at a TSC not before the last. `HbSys` keeps, besides the manager, the calls made so far and
what `do_one` has reported and sent.

Two behaviours of the code decide what the manager can detect. `unlocked_receive_hb` stores the
heartbeat's time with `emplace`, which leaves a tracked URI's timestamp as it is, so a timestamp is
always the time of the `unlocked_add_remote` that began tracking the URI, and a check reports a URI
once the timeout has passed since then, whatever heartbeats came. And `do_one` stops at a due
event of a URI it no longer tracks without popping it; once such an event is at the head of the
queue, no later `do_one` handles any event until that URI is added again.
-/

namespace ERpc

open Transition HeartbeatMgr

/-- The calls on the manager, each with the TSC it reads. -/
inductive HbCall
  | addRemote (remoteUri : String) (now : ℕ)
  | receiveHb (smPkt : SmPkt) (now : ℕ)
  | doOne (now : ℕ)
  deriving DecidableEq, Repr

/-- The TSC a call reads. -/
def HbCall.now : HbCall → ℕ
  | .addRemote _ now => now
  | .receiveHb _ now => now
  | .doOne now => now

/-- The manager, the TSC of its last call, the calls so far, what `do_one` has appended to
`failed_uris`, and the heartbeats it has sent. -/
structure HbSys where
  mgr : HeartbeatMgr
  clock : ℕ
  calls : List HbCall
  failedUris : List String
  sent : List SmPkt

namespace HbSys

/-- The manager as its constructor leaves it at `creationTsc`. -/
def init (hostname : String) (smUdpPort failureTimeoutTsc creationTsc : ℕ) : HbSys :=
  ⟨HeartbeatMgr.create hostname smUdpPort failureTimeoutTsc, creationTsc, [], [], []⟩

/-- A call, whatever its TSC. -/
def call (s : HbSys) (c : HbCall) : HbSys :=
  match c with
  | .addRemote u now =>
    { s with mgr := s.mgr.unlockedAddRemote u now, clock := now, calls := s.calls ++ [c] }
  | .receiveHb smPkt now =>
    { s with mgr := s.mgr.unlockedReceiveHb smPkt now, clock := now, calls := s.calls ++ [c] }
  | .doOne now =>
    let r := s.mgr.doOne now
    ⟨r.1, now, s.calls ++ [c], s.failedUris ++ r.2.1, s.sent ++ r.2.2⟩

/-- A call at a TSC not before the last one. -/
def step (s : HbSys) (c : HbCall) : Option HbSys :=
  if s.clock ≤ c.now then some (s.call c) else none

variable {s t : HbSys} {c : HbCall}

theorem step_eq (hs : s.step c = some t) : s.clock ≤ c.now ∧ t = s.call c := by
  unfold step at hs
  split_ifs at hs with hc
  exact ⟨hc, (Option.some.inj hs).symm⟩

@[simp] theorem call_clock (s : HbSys) (c : HbCall) : (s.call c).clock = c.now := by
  cases c <;> rfl

@[simp] theorem call_calls (s : HbSys) (c : HbCall) : (s.call c).calls = s.calls ++ [c] := by
  cases c <;> rfl

section Manager

variable {h : HeartbeatMgr} {now : ℕ} {u : String}

/-- The constants of the manager, which no call changes. -/
def Consts (F : ℕ) (h : HeartbeatMgr) : Prop :=
  h.failureTimeoutTsc = F ∧ h.hbSendDeltaTsc = F / 10 ∧ h.hbCheckDeltaTsc = F / 2

/-- What the manager keeps over every call: its constants and its queue sorted by time. -/
def MgrInv (F : ℕ) (h : HeartbeatMgr) : Prop :=
  Consts F h ∧ TimeQueue.Sorted Event.tsc h.hbEventPqueue

theorem MgrInv.handleEvent {F : ℕ} (hi : MgrInv F h) (e : HeartbeatMgr.Event) :
    MgrInv F (h.handleEvent now e).1 := by
  obtain ⟨⟨h1, h2, h3⟩, hs⟩ := hi
  rcases handleEvent_cases h now e with ⟨-, he⟩ | ⟨-, -, he⟩ | ⟨-, -, he⟩ <;> rw [he]
  · exact ⟨⟨h1, h2, h3⟩, hs.push⟩
  · exact ⟨⟨h1, h2, h3⟩, hs⟩
  · exact ⟨⟨h1, h2, h3⟩, hs.push⟩

theorem MgrInv.doOne {F : ℕ} (hi : MgrInv F h) (now : ℕ) : MgrInv F (h.doOne now).1 := by
  unfold HeartbeatMgr.doOne
  refine doOneLoop_induct (MgrInv F) (fun h e rest hi hq _ _ => ?_) _ _ _ _ hi
  have hrest : MgrInv F { h with hbEventPqueue := rest } := by
    have hs := hi.2
    rw [TimeQueue.Sorted, hq] at hs
    exact ⟨hi.1, hs.of_cons⟩
  exact hrest.handleEvent e

theorem MgrInv.addRemote {F : ℕ} (hi : MgrInv F h) (u : String) (now : ℕ) :
    MgrInv F (h.unlockedAddRemote u now) :=
  ⟨hi.1, hi.2.push.push⟩

theorem handleEvent_map {t : ℕ} (e : HeartbeatMgr.Event)
    (hu : (h.handleEvent now e).1.mapLastHbRx u = some t) : h.mapLastHbRx u = some t := by
  rcases handleEvent_cases h now e with ⟨-, he⟩ | ⟨-, -, he⟩ | ⟨-, -, he⟩ <;> rw [he] at hu
  · exact hu
  · by_cases heq : u = e.remUri
    · subst heq
      simp at hu
    · simpa [Function.update_of_ne heq] using hu
  · exact hu

theorem doOne_map {t : ℕ} (hu : (h.doOne now).1.mapLastHbRx u = some t) :
    h.mapLastHbRx u = some t := by
  have key : ∀ u t, (h.doOne now).1.mapLastHbRx u = some t → h.mapLastHbRx u = some t :=
    doOneLoop_induct (fun h' => ∀ u t, h'.mapLastHbRx u = some t → h.mapLastHbRx u = some t)
      (fun h' e rest hp _ _ _ u t hu =>
        hp u t (handleEvent_map (h := { h' with hbEventPqueue := rest }) e hu))
      (h.hbEventPqueue.length + 1) h [] [] (fun _ _ hu => hu)
  exact key u t hu

end Manager

section Reachable

variable {hostname : String} {smUdpPort F c0 : ℕ}

/-- What every reachable state keeps: the manager's constants and sorted queue, and the timestamp
of each tracked URI is the TSC of an `unlocked_add_remote` of it. -/
def Inv (F : ℕ) (s : HbSys) : Prop :=
  MgrInv F s.mgr ∧ ∀ u t, s.mgr.mapLastHbRx u = some t → HbCall.addRemote u t ∈ s.calls

theorem Inv.init : Inv F (init hostname smUdpPort F c0) :=
  ⟨⟨⟨rfl, rfl, rfl⟩, List.Pairwise.nil⟩, fun _ _ hu => by simp [HbSys.init, create] at hu⟩

theorem Inv.call (hi : Inv F s) (c : HbCall) : Inv F (s.call c) := by
  obtain ⟨hm, hadd⟩ := hi
  cases c with
  | addRemote v now =>
    refine ⟨hm.addRemote v now, fun u t hu => ?_⟩
    change (s.mgr.unlockedAddRemote v now).mapLastHbRx u = some t at hu
    rw [unlockedAddRemote_mapLastHbRx] at hu
    simp only [call_calls, List.mem_append, List.mem_singleton]
    by_cases huv : u = v
    · subst huv
      unfold emplace at hu
      split_ifs at hu with hv
      · exact .inl (hadd u t hu)
      · simp only [Function.update_self, Option.some.injEq] at hu
        exact .inr (by rw [hu])
    · rw [emplace_apply_of_ne huv] at hu
      exact .inl (hadd u t hu)
  | receiveHb smPkt now =>
    refine ⟨?_, fun u t hu => ?_⟩
    · change MgrInv F (s.mgr.unlockedReceiveHb smPkt now)
      rw [unlockedReceiveHb_eq_self]
      exact hm
    · change (s.mgr.unlockedReceiveHb smPkt now).mapLastHbRx u = some t at hu
      rw [unlockedReceiveHb_eq_self] at hu
      exact List.mem_append_left _ (hadd u t hu)
  | doOne now =>
    exact ⟨hm.doOne now, fun u t hu => List.mem_append_left _ (hadd u t (doOne_map hu))⟩

theorem inv_of_reachable (hr : Reachable step (init hostname smUdpPort F c0) s) : Inv F s :=
  Reachable.induct (Inv F) Inv.init (fun _ _ _ _ hi hs => (step_eq hs).2 ▸ hi.call _) hr

/-- Failure detection over any sequence of calls. A heartbeat leaves the manager as it is, the
timestamp of a tracked URI is the TSC of an `unlocked_add_remote` of it, and a check of the URI
reports it exactly when more than the timeout has passed since that timestamp. -/
theorem hb_check_ignores_heartbeats (hr : Reachable step (init hostname smUdpPort F c0) s) :
    (∀ smPkt now, s.mgr.unlockedReceiveHb smPkt now = s.mgr) ∧
    ∀ u t, s.mgr.mapLastHbRx u = some t → HbCall.addRemote u t ∈ s.calls ∧
      ∀ now tsc, (s.mgr.handleEvent now ⟨.kCheck, u, tsc⟩).2.1 = [u] ↔ F < now - t := by
  obtain ⟨⟨⟨hF, -, -⟩, -⟩, hadd⟩ := inv_of_reachable hr
  refine ⟨fun smPkt now => unlockedReceiveHb_eq_self s.mgr smPkt now, fun u t hu =>
    ⟨hadd u t hu, fun now tsc => ?_⟩⟩
  rw [handleEvent_check hu, hF]

/-- A heartbeat from `a:1`, the client. -/
def pingFromA : SmPkt :=
  { pktType := .kPingReq, errType := .kNoError, uniqToken := 0
    client := { SessionEndpoint.init with hostname := "a", smUdpPort := 1 }
    server := { SessionEndpoint.init with hostname := "b", smUdpPort := 2 } }

/-- `a:1` is tracked from TSC 0, and its heartbeat comes at TSC 101. -/
def heartbeatRun : List HbCall := [.addRemote "a:1" 0, .receiveHb pingFromA 101]

theorem hb_check_ignores_heartbeats_run :
    ∃ s, Reachable step (init "b" 2 100 0) s ∧ HbCall.receiveHb pingFromA 101 ∈ s.calls ∧
      pingFromA.client.uri = "a:1" ∧ s.mgr.mapLastHbRx "a:1" = some 0 ∧
      (s.mgr.handleEvent 101 ⟨.kCheck, "a:1", 50⟩).2.1 = ["a:1"] ∧
      (s.step (.doOne 101)).map failedUris = some ["a:1"] := by
  have hrun : ∃ s, Reachable step (init "b" 2 100 0) s ∧
      (HbCall.receiveHb pingFromA 101 ∈ s.calls ∧ s.mgr.mapLastHbRx "a:1" = some 0 ∧
        (s.step (.doOne 101)).map failedUris = some ["a:1"]) :=
    Reachable.exists_of_run heartbeatRun (by decide +kernel)
  obtain ⟨s, hr, hrx, hu, hdo⟩ := hrun
  refine ⟨s, hr, hrx, by decide, hu, ?_, hdo⟩
  exact (((hb_check_ignores_heartbeats hr).2 "a:1" 0 hu).2 101 50).2 (by decide)

end Reachable

section Blocking

variable {e : HeartbeatMgr.Event} {rest : List HeartbeatMgr.Event}

/-- From `s` on, a due event of a URI that is not tracked heads the queue, with at least `rest`
behind it; every timestamp of `s` is kept, and nothing more is reported or sent. -/
def Blocked (e : HeartbeatMgr.Event) (rest : List HeartbeatMgr.Event) (s t : HbSys) : Prop :=
  (∃ rest', t.mgr.hbEventPqueue = e :: rest' ∧ rest.Sublist rest') ∧
    t.mgr.mapLastHbRx e.remUri = none ∧ e.tsc ≤ t.clock ∧
    (∀ u x, s.mgr.mapLastHbRx u = some x → t.mgr.mapLastHbRx u = some x) ∧
    t.failedUris = s.failedUris ∧ t.sent = s.sent

/-- Every call at a later TSC keeps the queue blocked, except an `unlocked_add_remote` of the URI of
the event at its head. -/
theorem Blocked.call (hb : Blocked e rest s t) (hc : t.clock ≤ c.now)
    (hadd : ∀ now, c ≠ .addRemote e.remUri now) : Blocked e rest s (t.call c) := by
  obtain ⟨⟨rest', hq, hsub⟩, hu, hdue, hmap, hf, hs⟩ := hb
  cases c with
  | addRemote v now =>
    have hv : e.remUri ≠ v := fun hv => hadd now (by rw [hv])
    change t.clock ≤ now at hc
    refine ⟨⟨TimeQueue.push Event.tsc ⟨.kCheck, v, now + t.mgr.hbCheckDeltaTsc⟩
        (TimeQueue.push Event.tsc ⟨.kSend, v, now + t.mgr.hbSendDeltaTsc⟩ rest'), ?_,
        (hsub.trans (TimeQueue.sublist_push _ _)).trans (TimeQueue.sublist_push _ _)⟩,
      ?_, hdue.trans hc, fun u x hx => ?_, hf, hs⟩
    · change (t.mgr.unlockedAddRemote v now).hbEventPqueue = _
      rw [unlockedAddRemote_hbEventPqueue, hq, TimeQueue.push_cons_of_le (by dsimp only; omega),
        TimeQueue.push_cons_of_le (by dsimp only; omega)]
    · change (t.mgr.unlockedAddRemote v now).mapLastHbRx e.remUri = none
      rw [unlockedAddRemote_mapLastHbRx, emplace_apply_of_ne hv, hu]
    · change (t.mgr.unlockedAddRemote v now).mapLastHbRx u = some x
      rw [unlockedAddRemote_mapLastHbRx]
      exact emplace_of_eq_some (hmap u x hx) now
  | receiveHb smPkt now =>
    have hm : (t.call (.receiveHb smPkt now)).mgr = t.mgr := unlockedReceiveHb_eq_self _ _ _
    change t.clock ≤ now at hc
    rw [Blocked, hm]
    exact ⟨⟨rest', hq, hsub⟩, hu, hdue.trans hc, hmap, hf, hs⟩
  | doOne now =>
    have hd : t.mgr.doOne now = (t.mgr, [], []) := doOneLoop_of_untracked hq hu _ _ _
    change t.clock ≤ now at hc
    simp only [Blocked, HbSys.call, hd, List.append_nil]
    exact ⟨⟨rest', hq, hsub⟩, hu, hdue.trans hc, hmap, hf, hs⟩

theorem Blocked.run {s' : HbSys} (hb : Blocked e rest s s') (cs : List HbCall)
    (hcs : ∀ now, HbCall.addRemote e.remUri now ∉ cs) (hrun : Transition.run step s' cs = some t) :
    Blocked e rest s t := by
  refine run_induct (Blocked e rest s) (fun c => ∀ now, c ≠ .addRemote e.remUri now)
    (fun t c t' hb hc hs => ?_) cs hb (fun c hc now h => hcs now (h ▸ hc)) hrun
  obtain ⟨hle, rfl⟩ := step_eq hs
  exact hb.call hle hc

end Blocking

section Progress

variable {hostname : String} {smUdpPort F c0 : ℕ}

/-- After `do_one` at `now` on a reachable manager whose timeout has positive deltas, either every
event is in the future or a due event of a URI that is not tracked heads the queue. -/
theorem doOne_future_or_blocked (hF : 10 ≤ F)
    (hr : Reachable step (init hostname smUdpPort F c0) s) (now : ℕ) :
    (∀ e ∈ (s.mgr.doOne now).1.hbEventPqueue, now < e.tsc) ∨
      ∃ e rest, (s.mgr.doOne now).1.hbEventPqueue = e :: rest ∧ e.tsc ≤ now ∧
        (s.mgr.doOne now).1.mapLastHbRx e.remUri = none := by
  have hm := (inv_of_reachable hr).1
  have hsd : s.mgr.hbSendDeltaTsc = F / 10 := hm.1.2.1
  have hcd : s.mgr.hbCheckDeltaTsc = F / 2 := hm.1.2.2
  have hstop : Stopped now (s.mgr.doOne now).1 :=
    doOne_stopped (show 0 < s.mgr.hbSendDeltaTsc by omega) (show 0 < s.mgr.hbCheckDeltaTsc by omega)
  have hsort := (hm.doOne now).2
  rcases hq : (s.mgr.doOne now).1.hbEventPqueue with _ | ⟨e, rest⟩
  · exact .inl (by simp)
  · rw [hq] at hsort
    by_cases hfut : now < e.tsc
    · exact .inl (hsort.forall_lt hfut)
    · rcases hstop e rest hq with h | h
      · exact absurd h hfut
      · exact .inr ⟨e, rest, rfl, by omega, h⟩

/-- `do_one` over any sequence of calls. With a timeout of at least 10 cycles, so that the deltas
are positive, it handles every due event unless it meets a due event of a URI that is not tracked,
which it leaves at the head of the queue. From then on, every sequence of calls at later TSCs
without an `unlocked_add_remote` of that URI keeps that event at the head and everything behind it,
keeps every timestamp, and reports and sends nothing. -/
theorem hb_stale_event_blocks_do_one (hF : 10 ≤ F)
    (hr : Reachable step (init hostname smUdpPort F c0) s) :
    (∀ now, (∀ e ∈ (s.mgr.doOne now).1.hbEventPqueue, now < e.tsc) ∨
      ∃ e rest, (s.mgr.doOne now).1.hbEventPqueue = e :: rest ∧ e.tsc ≤ now ∧
        (s.mgr.doOne now).1.mapLastHbRx e.remUri = none) ∧
    ∀ e rest, s.mgr.hbEventPqueue = e :: rest → s.mgr.mapLastHbRx e.remUri = none →
      e.tsc ≤ s.clock → ∀ cs t, (∀ now, HbCall.addRemote e.remUri now ∉ cs) →
        Transition.run step s cs = some t →
          (∃ rest', t.mgr.hbEventPqueue = e :: rest' ∧ rest.Sublist rest') ∧
          (∀ u x, s.mgr.mapLastHbRx u = some x → t.mgr.mapLastHbRx u = some x) ∧
          t.failedUris = s.failedUris ∧ t.sent = s.sent := by
  refine ⟨doOne_future_or_blocked hF hr, fun e rest hq hu hdue cs t hcs hrun => ?_⟩
  have hb : Blocked e rest s s :=
    ⟨⟨rest, hq, List.Sublist.refl rest⟩, hu, hdue, fun _ _ hx => hx, rfl, rfl⟩
  obtain ⟨hq', -, -, hmap, hf, hs⟩ := hb.run cs hcs hrun
  exact ⟨hq', hmap, hf, hs⟩

/-- `a:1` is tracked from TSC 0 and reported failed at TSC 101, with its next heartbeat to send
due at 111; `c:3` is tracked from TSC 102, and the `do_one` at 112 stops at the event of `a:1`. -/
def staleSendRun : List HbCall :=
  [.addRemote "a:1" 0, .doOne 101, .addRemote "c:3" 102, .doOne 112]

theorem hb_stale_event_blocks_do_one_run :
    ∃ s t, Reachable step (init "b" 2 100 0) s ∧ Transition.run step s [.doOne 200] = some t ∧
      t.failedUris = s.failedUris ∧ t.sent = s.sent ∧
      (⟨.kCheck, "c:3", 152⟩ : HeartbeatMgr.Event) ∈ t.mgr.hbEventPqueue ∧
      t.mgr.mapLastHbRx "c:3" = some 102 := by
  have hrun : ∃ s, Reachable step (init "b" 2 100 0) s ∧
      (s.mgr.hbEventPqueue = [⟨.kSend, "a:1", 111⟩, ⟨.kSend, "c:3", 112⟩, ⟨.kCheck, "c:3", 152⟩] ∧
        s.mgr.mapLastHbRx "a:1" = none ∧ s.clock = 112 ∧ s.mgr.mapLastHbRx "c:3" = some 102 ∧
        (Transition.run step s [.doOne 200]).isSome) :=
    Reachable.exists_of_run staleSendRun (by decide +kernel)
  obtain ⟨s, hr, hq, hu, hclock, hc, hsome⟩ := hrun
  obtain ⟨t, ht⟩ := Option.isSome_iff_exists.1 hsome
  obtain ⟨-, hblock⟩ := hb_stale_event_blocks_do_one (by decide) hr
  obtain ⟨⟨rest', hq', hsub⟩, hmap, hf, hs⟩ := hblock _ _ hq hu (by rw [hclock]; decide) _ t
    (by simp) ht
  refine ⟨s, t, hr, ht, hf, hs, ?_, hmap _ _ hc⟩
  rw [hq']
  exact List.mem_cons_of_mem _ (hsub.subset (by simp))

end Progress

end HbSys

end ERpc
