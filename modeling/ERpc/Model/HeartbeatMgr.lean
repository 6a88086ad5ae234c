import ERpc.Model.Nexus
import ERpc.Lib.TimeQueue
import Mathlib

/-!
# The heartbeat manager

`HeartbeatMgr` (`heartbeat_mgr.h`) tracks remote URIs. For each it keeps in `map_last_hb_rx_` a
timestamp, meant to be that of the last heartbeat received, and in a priority queue by time it
schedules a heartbeat to send every `hb_send_delta_tsc_` and a check of the timestamp every
`hb_check_delta_tsc_`. A check more than `failure_timeout_tsc_` after the timestamp reports the URI
failed and stops tracking it.

The map is a function to `Option ℕ`; `std::unordered_map::emplace` leaves a key that is there
as it is. The priority queue is a list sorted by time (`TimeQueue`), where events of equal time
leave in the order they came. Each call reads `rdtsc ()` once, as `now`, and the TSC does not wrap.
The constructor takes `failure_timeout_tsc_` in cycles; the frequency and `creation_tsc_` serve
only the log lines of `kVerbose`, which are left out.
-/

namespace ERpc

inductive HeartbeatMgr.EventType
  | kSend
  | kCheck
  deriving DecidableEq, Repr

structure HeartbeatMgr.Event where
  type : HeartbeatMgr.EventType
  remUri : String
  tsc : ℕ
  deriving DecidableEq, Repr

/-- `HeartbeatMgr` without its mutex and UDP client. -/
structure HeartbeatMgr where
  hostname : String
  smUdpPort : ℕ
  failureTimeoutTsc : ℕ
  hbSendDeltaTsc : ℕ
  hbCheckDeltaTsc : ℕ
  mapLastHbRx : String → Option ℕ
  hbEventPqueue : List HeartbeatMgr.Event

namespace HeartbeatMgr

/-- `HeartbeatMgr::HeartbeatMgr`, with the failure timeout in TSC cycles. -/
def create (hostname : String) (smUdpPort failureTimeoutTsc : ℕ) : HeartbeatMgr where
  hostname := hostname
  smUdpPort := smUdpPort
  failureTimeoutTsc := failureTimeoutTsc
  hbSendDeltaTsc := failureTimeoutTsc / 10
  hbCheckDeltaTsc := failureTimeoutTsc / 2
  mapLastHbRx _ := none
  hbEventPqueue := []

/-- `std::unordered_map::emplace`: a key that is there keeps its value. -/
def emplace (m : String → Option ℕ) (k : String) (v : ℕ) : String → Option ℕ :=
  if (m k).isSome then m else Function.update m k (some v)

def scheduleHbSend (h : HeartbeatMgr) (remUri : String) (now : ℕ) : HeartbeatMgr :=
  { h with hbEventPqueue :=
      TimeQueue.push Event.tsc ⟨.kSend, remUri, now + h.hbSendDeltaTsc⟩ h.hbEventPqueue }

def scheduleHbCheck (h : HeartbeatMgr) (remUri : String) (now : ℕ) : HeartbeatMgr :=
  { h with hbEventPqueue :=
      TimeQueue.push Event.tsc ⟨.kCheck, remUri, now + h.hbCheckDeltaTsc⟩ h.hbEventPqueue }

def unlockedAddRemote (h : HeartbeatMgr) (remoteUri : String) (now : ℕ) : HeartbeatMgr :=
  let h := { h with mapLastHbRx := emplace h.mapLastHbRx remoteUri now }
  (h.scheduleHbSend remoteUri now).scheduleHbCheck remoteUri now

def unlockedReceiveHb (h : HeartbeatMgr) (smPkt : SmPkt) (now : ℕ) : HeartbeatMgr :=
  if (h.mapLastHbRx smPkt.client.uri).isNone then h
  else { h with mapLastHbRx := emplace h.mapLastHbRx smPkt.client.uri now }

/-- The switch of `do_one` on the event it popped: the manager after it, the URIs it appends to
`failed_uris` and the heartbeats it sends. -/
def handleEvent (h : HeartbeatMgr) (now : ℕ) (nextEv : Event) :
    HeartbeatMgr × List String × List SmPkt :=
  match nextEv.type with
  | .kSend =>
    (h.scheduleHbSend nextEv.remUri now, [],
      (makeHeartbeat h.hostname h.smUdpPort nextEv.remUri).toList)
  | .kCheck =>
    let lastPingRx := (h.mapLastHbRx nextEv.remUri).getD 0
    if now - lastPingRx > h.failureTimeoutTsc then
      ({ h with mapLastHbRx := Function.update h.mapLastHbRx nextEv.remUri none },
        [nextEv.remUri], [])
    else (h.scheduleHbCheck nextEv.remUri now, [], [])

/-- The loop of `do_one` at `now`, with `fuel` passes, `failed` and `sent` so far. -/
def doOneLoop (now : ℕ) : ℕ → HeartbeatMgr → List String → List SmPkt →
    HeartbeatMgr × List String × List SmPkt
  | 0, h, failed, sent => (h, failed, sent)
  | fuel + 1, h, failed, sent =>
    match h.hbEventPqueue with
    | [] => (h, failed, sent)
    | nextEv :: rest =>
      -- `in_future`
      if nextEv.tsc > now then (h, failed, sent)
      -- a URI that is not tracked stops the loop, and its event stays in the queue
      else if (h.mapLastHbRx nextEv.remUri).isNone then (h, failed, sent)
      else
        let r := handleEvent { h with hbEventPqueue := rest } now nextEv
        doOneLoop now fuel r.1 (failed ++ r.2.1) (sent ++ r.2.2)

/-- `do_one (failed_uris)`: the manager after it, the URIs it appends to `failed_uris` and the
heartbeats it sends. Each pass takes a due event, so with positive deltas the passes that find one
are fewer than the events in the queue (`doOneLoop_exit`). -/
def doOne (h : HeartbeatMgr) (now : ℕ) : HeartbeatMgr × List String × List SmPkt :=
  doOneLoop now (h.hbEventPqueue.length + 1) h [] []

/-- The loop has stopped: the queue is empty, or its head is in the future or for a URI that is
not tracked. -/
def Stopped (now : ℕ) (h : HeartbeatMgr) : Prop :=
  ∀ e rest, h.hbEventPqueue = e :: rest → now < e.tsc ∨ h.mapLastHbRx e.remUri = none

variable {h : HeartbeatMgr} {now : ℕ} {e : Event} {rest : List Event}

section Calls

theorem unlockedReceiveHb_eq_self (h : HeartbeatMgr) (smPkt : SmPkt) (now : ℕ) :
    h.unlockedReceiveHb smPkt now = h := by
  unfold unlockedReceiveHb emplace
  cases hm : h.mapLastHbRx smPkt.client.uri with
  | none => rfl
  | some t => simp

theorem emplace_apply_of_ne {m : String → Option ℕ} {k k' : String} (hk : k' ≠ k) (v : ℕ) :
    emplace m k v k' = m k' := by
  unfold emplace
  split_ifs
  · rfl
  · exact Function.update_of_ne hk _ _

theorem emplace_of_eq_some {m : String → Option ℕ} {k k' : String} {x : ℕ} (hx : m k' = some x)
    (v : ℕ) : emplace m k v k' = some x := by
  by_cases hk : k' = k
  · subst hk
    rw [emplace, if_pos (by simp [hx]), hx]
  · rw [emplace_apply_of_ne hk, hx]

@[simp] theorem unlockedAddRemote_mapLastHbRx (h : HeartbeatMgr) (u : String) (now : ℕ) :
    (h.unlockedAddRemote u now).mapLastHbRx = emplace h.mapLastHbRx u now := rfl

@[simp] theorem unlockedAddRemote_hbEventPqueue (h : HeartbeatMgr) (u : String) (now : ℕ) :
    (h.unlockedAddRemote u now).hbEventPqueue =
      TimeQueue.push Event.tsc ⟨.kCheck, u, now + h.hbCheckDeltaTsc⟩
        (TimeQueue.push Event.tsc ⟨.kSend, u, now + h.hbSendDeltaTsc⟩ h.hbEventPqueue) := rfl

/-- What handling an event can do: schedule the next send, report the URI failed, or schedule the
next check. -/
theorem handleEvent_cases (h : HeartbeatMgr) (now : ℕ) (e : Event) :
    (e.type = .kSend ∧ handleEvent h now e =
      (h.scheduleHbSend e.remUri now, [], (makeHeartbeat h.hostname h.smUdpPort e.remUri).toList)) ∨
    (e.type = .kCheck ∧ h.failureTimeoutTsc < now - (h.mapLastHbRx e.remUri).getD 0 ∧
      handleEvent h now e =
        ({ h with mapLastHbRx := Function.update h.mapLastHbRx e.remUri none }, [e.remUri], [])) ∨
    (e.type = .kCheck ∧ ¬ h.failureTimeoutTsc < now - (h.mapLastHbRx e.remUri).getD 0 ∧
      handleEvent h now e = (h.scheduleHbCheck e.remUri now, [], [])) := by
  unfold handleEvent
  cases ht : e.type with
  | kSend => exact .inl ⟨rfl, rfl⟩
  | kCheck =>
    dsimp only
    split_ifs with hlate
    · exact .inr (.inl ⟨rfl, hlate, rfl⟩)
    · exact .inr (.inr ⟨rfl, hlate, rfl⟩)

/-- A check of a tracked URI reports it exactly when more than the timeout passed since its
timestamp. -/
theorem handleEvent_check {u : String} {t : ℕ} (hu : h.mapLastHbRx u = some t) (tsc : ℕ) :
    (h.handleEvent now ⟨.kCheck, u, tsc⟩).2.1 = [u] ↔ h.failureTimeoutTsc < now - t := by
  rcases handleEvent_cases h now ⟨.kCheck, u, tsc⟩ with ⟨he, -⟩ | ⟨-, hlate, he⟩ | ⟨-, hlate, he⟩
  · cases he
  · rw [he]
    simp only [hu, Option.getD_some] at hlate
    simp [hlate]
  · rw [he]
    simp only [hu, Option.getD_some] at hlate
    simp [hlate]

end Calls

section Loop

/-- The loop rule: what the pop and the handling of a due event of a tracked URI keep, the whole
loop keeps. -/
theorem doOneLoop_induct (P : HeartbeatMgr → Prop)
    (hstep : ∀ h e rest, P h → h.hbEventPqueue = e :: rest → e.tsc ≤ now →
      h.mapLastHbRx e.remUri ≠ none → P (handleEvent { h with hbEventPqueue := rest } now e).1) :
    ∀ fuel h failed sent, P h → P (doOneLoop now fuel h failed sent).1
  | 0, _, _, _, hp => hp
  | fuel + 1, h, failed, sent, hp => by
    unfold doOneLoop
    rcases hq : h.hbEventPqueue with _ | ⟨e, rest⟩
    · exact hp
    · dsimp only
      split_ifs with hf hu
      · exact hp
      · exact hp
      · apply doOneLoop_induct P hstep
        exact hstep h e rest hp hq (by omega) (by simpa using hu)

theorem doOneLoop_of_untracked (hq : h.hbEventPqueue = e :: rest)
    (hu : h.mapLastHbRx e.remUri = none) (fuel : ℕ) (failed : List String) (sent : List SmPkt) :
    doOneLoop now fuel h failed sent = (h, failed, sent) := by
  cases fuel with
  | zero => rfl
  | succ fuel =>
    unfold doOneLoop
    rw [hq]
    dsimp only
    simp only [hu, Option.isNone_none, if_true, ite_self]

theorem handleEvent_hbSendDeltaTsc (h : HeartbeatMgr) (now : ℕ) (e : Event) :
    (h.handleEvent now e).1.hbSendDeltaTsc = h.hbSendDeltaTsc ∧
      (h.handleEvent now e).1.hbCheckDeltaTsc = h.hbCheckDeltaTsc ∧
      (h.handleEvent now e).1.failureTimeoutTsc = h.failureTimeoutTsc := by
  rcases handleEvent_cases h now e with ⟨-, he⟩ | ⟨-, -, he⟩ | ⟨-, -, he⟩ <;>
    rw [he] <;> exact ⟨rfl, rfl, rfl⟩

theorem handleEvent_due (hs : 0 < h.hbSendDeltaTsc) (hc : 0 < h.hbCheckDeltaTsc) (e : Event) :
    TimeQueue.due Event.tsc now (h.handleEvent now e).1.hbEventPqueue =
      TimeQueue.due Event.tsc now h.hbEventPqueue := by
  rcases handleEvent_cases h now e with ⟨-, he⟩ | ⟨-, -, he⟩ | ⟨-, -, he⟩ <;> rw [he]
  · exact TimeQueue.due_push_of_lt (by dsimp only; omega)
  · exact TimeQueue.due_push_of_lt (by dsimp only; omega)

/-- With positive deltas, enough passes end the loop where it stops by itself. The induction is on
the passes, and the events due at `now` fall by one in each. -/
theorem doOneLoop_exit (hs : 0 < h.hbSendDeltaTsc) (hc : 0 < h.hbCheckDeltaTsc) :
    ∀ fuel (failed : List String) (sent : List SmPkt),
      TimeQueue.due Event.tsc now h.hbEventPqueue < fuel →
        Stopped now (doOneLoop now fuel h failed sent).1 := by
  intro fuel
  induction fuel generalizing h with
  | zero => intro _ _ hf; omega
  | succ fuel ih =>
    intro failed sent hf
    unfold doOneLoop
    rcases hq : h.hbEventPqueue with _ | ⟨e, rest⟩
    · intro e' rest' he'
      rw [hq] at he'
      cases he'
    · dsimp only
      split_ifs with hfut hu
      · intro e' rest' he'
        rw [hq] at he'
        obtain ⟨rfl, rfl⟩ := List.cons_eq_cons.1 he'
        exact .inl hfut
      · intro e' rest' he'
        rw [hq] at he'
        obtain ⟨rfl, rfl⟩ := List.cons_eq_cons.1 he'
        exact .inr (by simpa using hu)
      · obtain ⟨hs', hc', -⟩ := handleEvent_hbSendDeltaTsc { h with hbEventPqueue := rest } now e
        have hdue : TimeQueue.due Event.tsc now
            (handleEvent { h with hbEventPqueue := rest } now e).1.hbEventPqueue =
              TimeQueue.due Event.tsc now rest :=
          handleEvent_due (h := { h with hbEventPqueue := rest }) hs hc e
        have hcons : TimeQueue.due Event.tsc now (e :: rest) = TimeQueue.due Event.tsc now rest + 1 :=
          TimeQueue.due_cons_of_le (by omega)
        rw [hq] at hf
        apply ih (hs'.symm ▸ hs) (hc'.symm ▸ hc)
        omega

theorem doOne_stopped (hs : 0 < h.hbSendDeltaTsc) (hc : 0 < h.hbCheckDeltaTsc) :
    Stopped now (h.doOne now).1 :=
  doOneLoop_exit hs hc _ [] [] (Nat.lt_succ_of_le (TimeQueue.due_le_length now _))

end Loop

end HeartbeatMgr

end ERpc
