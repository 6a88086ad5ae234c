import ERpc.Model.TimingWheel
import ERpc.Lib.Reach
import Mathlib

/-!
# The timing wheel over any sequence of inserts and reaps

The wheel serves `insert` and `reap` calls one at a time, each at a time not before the last, from
the state its constructor leaves at `base_tsc`. Entries are numbered in the order they are
inserted. `TwSys` keeps, besides the wheel, the time of the last call and, for each entry, its
desired time and the time of the slot that `insert` put it in.

With a horizon below `N - 1` slot widths, every call within the horizon passes `insert`'s
assertions, and the wheel moves each entry to the ready queue exactly once: never before its
desired time and no later than a slot width after it. Those timings come from the ring of slot
times (`TimingWheel.Ring`), which every reap keeps.

The ready queue is ordered by the time of each entry's slot, and by insertion within one slot, but
not by insertion. An entry whose desired time is not after the current slot's goes into the
current slot, and any other into the first slot after its desired time. So when a reap between two
inserts with one desired time makes the slot of exactly that time the current one, the later entry
goes into the earlier slot and leaves first.
-/

namespace ERpc

open Transition TimingWheel

/-- The calls on a timing wheel: `insert` of the next entry, and `reap`. -/
inductive TwCall
  | insert (refTsc desiredTxTsc : ℕ)
  | reap (reapTsc : ℕ)
  deriving DecidableEq, Repr

/-- The time a call is made at: its `ref_tsc` or its `reap_tsc`. -/
def TwCall.tsc : TwCall → ℕ
  | .insert refTsc _ => refTsc
  | .reap reapTsc => reapTsc

/-- The wheel, with its entries numbered in the order they were inserted; the time of the last
call; and for each entry, its desired time and the time of the slot `insert` put it in. -/
structure TwSys (N : ℕ) where
  wheel : TimingWheel ℕ N
  clock : ℕ
  desired : List ℕ
  slotTsc : List ℕ

namespace TwSys

variable {N : ℕ} [NeZero N]

/-- The time of the slot `insert (ent, ref_tsc, desired_tx_tsc)` puts its entry in. -/
def insertSlotTsc (t : TimingWheel ℕ N) (refTsc desiredTxTsc : ℕ) : ℕ :=
  match (t.reap refTsc).dstWslot desiredTxTsc with
  | some dst => ((t.reap refTsc).wheel dst).txTsc
  | none => 0

/-- The wheel as its constructor leaves it at `base_tsc`. -/
def init (w H baseTsc : ℕ) : TwSys N := ⟨create w H baseTsc, baseTsc, [], []⟩

/-- A call at a time not before the last one. -/
def step (s : TwSys N) : TwCall → Option (TwSys N)
  | .insert refTsc d =>
    if s.clock ≤ refTsc then
      (s.wheel.insert s.desired.length refTsc d).map fun wheel =>
        ⟨wheel, refTsc, s.desired ++ [d], s.slotTsc ++ [insertSlotTsc s.wheel refTsc d]⟩
    else none
  | .reap reapTsc =>
    if s.clock ≤ reapTsc then some ⟨s.wheel.reap reapTsc, reapTsc, s.desired, s.slotTsc⟩
    else none

variable {s s' : TwSys N} {c : TwCall}

/-- Everything a call can do. -/
theorem step_eq_some (h : s.step c = some s') :
    s.clock ≤ c.tsc ∧
      ((∃ r, c = .reap r ∧ s' = ⟨s.wheel.reap r, r, s.desired, s.slotTsc⟩) ∨
      ∃ refTsc d t, c = .insert refTsc d ∧ s.wheel.insert s.desired.length refTsc d = some t ∧
        s' = ⟨t, refTsc, s.desired ++ [d], s.slotTsc ++ [insertSlotTsc s.wheel refTsc d]⟩) := by
  cases c with
  | insert refTsc d =>
    simp only [step] at h
    split_ifs at h with hc
    obtain ⟨t, ht, rfl⟩ := Option.map_eq_some_iff.1 h
    exact ⟨hc, .inr ⟨refTsc, d, t, rfl, ht, rfl⟩⟩
  | reap r =>
    simp only [step] at h
    split_ifs at h with hc
    exact ⟨hc, .inl ⟨r, rfl, (Option.some.inj h).symm⟩⟩

end TwSys

section Wheel

variable {N : ℕ} [NeZero N] {w : ℕ} {dsr stsc : ℕ → ℕ} {t : TimingWheel ℕ N}

/-- The order of the ready queue: by slot time, and by insertion among the entries of a slot. -/
def SlotOrder (stsc : ℕ → ℕ) (a b : ℕ) : Prop := stsc a < stsc b ∨ stsc a = stsc b ∧ a < b

/-- The wheel's invariant, with `dsr` and `stsc` giving each entry's desired time and the time of
its slot. -/
structure WInv (w : ℕ) (dsr stsc : ℕ → ℕ) (t : TimingWheel ℕ N) : Prop where
  width : t.wslotWidthTsc = w
  ring : t.Ring
  chains : ∀ i, ChainWf (t.wheel i).chain
  slotted : ∀ i, ∀ e ∈ (t.wheel i).chain.flatten,
    stsc e = (t.wheel i).txTsc ∧ dsr e ≤ stsc e ∧ stsc e ≤ dsr e + w
  chainSorted : ∀ i, (t.wheel i).chain.flatten.Pairwise (· < ·)
  readySorted : t.readyQueue.Pairwise (SlotOrder stsc)
  readyBefore : ∀ e ∈ t.readyQueue, stsc e < t.curTsc ∧ dsr e ≤ stsc e ∧ stsc e ≤ dsr e + w

theorem WInv.create (w H baseTsc : ℕ) :
    WInv w dsr stsc (TimingWheel.create w H baseTsc : TimingWheel ℕ N) where
  width := rfl
  ring := create_ring w H baseTsc
  chains _ := chainWf_reset
  slotted _ e he := by simp [TimingWheel.create] at he
  chainSorted _ := by simp [TimingWheel.create]
  readySorted := List.Pairwise.nil
  readyBefore _ he := by simp [TimingWheel.create] at he

theorem reapPass_of_mem {j : Fin N} {e : ℕ} (he : e ∈ (t.reapPass.wheel j).chain.flatten) :
    t.reapPass.wheel j = t.wheel j := by
  rw [reapPass_wheel] at he ⊢
  by_cases hj : j = t.curWslot
  · rw [hj, Function.update_self] at he
    simp at he
  · rw [Function.update_of_ne hj]

/-- A pass keeps the invariant: the reaped slot's entries all have its time, which is after the
time of every entry already in the ready queue. -/
theorem WInv.reapPass (hw : 0 < w) (hi : WInv w dsr stsc t) : WInv w dsr stsc t.reapPass where
  width := hi.width
  ring := hi.ring.reapPass
  chains := by
    rw [reapPass_wheel]
    exact (Function.forall_update_iff t.wheel fun _ (ws : Wslot ℕ) => ChainWf ws.chain).2
      ⟨chainWf_reset, fun j _ => hi.chains j⟩
  slotted j e he := by
    have hj := reapPass_of_mem he
    rw [hj] at he ⊢
    exact hi.slotted j e he
  chainSorted := by
    rw [reapPass_wheel]
    exact (Function.forall_update_iff t.wheel fun _ (ws : Wslot ℕ) =>
      ws.chain.flatten.Pairwise (· < ·)).2 ⟨by simp, fun j _ => hi.chainSorted j⟩
  readySorted := by
    rw [reapPass_readyQueue, List.pairwise_append]
    refine ⟨hi.readySorted, (hi.chainSorted _).imp_of_mem fun ha hb hab => ?_,
      fun a ha b hb => .inl ?_⟩
    · exact .inr ⟨(hi.slotted _ _ ha).1.trans (hi.slotted _ _ hb).1.symm, hab⟩
    · rw [(hi.slotted _ b hb).1]
      exact (hi.readyBefore a ha).1
  readyBefore e he := by
    rw [hi.ring.reapPass_curTsc, hi.width]
    rw [reapPass_readyQueue] at he
    rcases List.mem_append.1 he with he | he
    · obtain ⟨h1, h2, h3⟩ := hi.readyBefore e he
      exact ⟨by omega, h2, h3⟩
    · obtain ⟨h1, h2, h3⟩ := hi.slotted _ e he
      rw [h1] at h2 h3 ⊢
      exact ⟨by rw [curTsc] at *; omega, h2, h3⟩

theorem WInv.reap (hw : 0 < w) (hi : WInv w dsr stsc t) (reapTsc : ℕ) :
    WInv w dsr stsc (t.reap reapTsc) :=
  reapLoop_induct (WInv w dsr stsc) (fun _ h _ => h.reapPass hw) _ t hi

/-- A reap appends to the ready queue, and only entries whose slot time has come, so no entry
leaves before its desired time. -/
theorem WInv.reap_readyQueue (hw : 0 < w) (hi : WInv w dsr stsc t) (reapTsc : ℕ) :
    ∃ moved, (t.reap reapTsc).readyQueue = t.readyQueue ++ moved ∧
      ∀ e ∈ moved, dsr e ≤ stsc e ∧ stsc e ≤ reapTsc := by
  refine (reapLoop_induct (fun t' => WInv w dsr stsc t' ∧ ∃ moved,
      t'.readyQueue = t.readyQueue ++ moved ∧ ∀ e ∈ moved, dsr e ≤ stsc e ∧ stsc e ≤ reapTsc)
    (fun t' ⟨hi', moved, hq, hm⟩ hc => ⟨hi'.reapPass hw, ?_⟩) _ t ⟨hi, [], by simp, by simp⟩).2
  refine ⟨moved ++ (t'.wheel t'.curWslot).chain.flatten, by rw [reapPass_readyQueue, hq,
    List.append_assoc], fun e he => ?_⟩
  rcases List.mem_append.1 he with he | he
  · exact hm e he
  · obtain ⟨h1, h2, -⟩ := hi'.slotted _ e he
    exact ⟨h2, by rw [h1]; exact hc⟩

omit [NeZero N] in
theorem WInv.congr {dsr' stsc' : ℕ → ℕ} (hi : WInv w dsr stsc t)
    (h : ∀ e, e ∈ t.readyQueue ∨ e ∈ t.entries → dsr' e = dsr e ∧ stsc' e = stsc e) :
    WInv w dsr' stsc' t where
  width := hi.width
  ring := hi.ring
  chains := hi.chains
  slotted i e he := by
    obtain ⟨hd, hs⟩ := h e (.inr (mem_entries.2 ⟨i, he⟩))
    rw [hd, hs]
    exact hi.slotted i e he
  chainSorted := hi.chainSorted
  readySorted := hi.readySorted.imp_of_mem fun ha hb hab => by
    rw [SlotOrder, (h _ (.inl ha)).2, (h _ (.inl hb)).2]
    exact hab
  readyBefore e he := by
    obtain ⟨hd, hs⟩ := h e (.inl he)
    rw [hd, hs]
    exact hi.readyBefore e he

omit [NeZero N] in
/-- Chaining a new entry, numbered after every entry in the wheel, into a slot whose time lies
between its desired time and a slot width after it keeps the invariant. -/
theorem WInv.setChain (hi : WInv w dsr stsc t) {dst : Fin N} {c : List (List ℕ)} {n : ℕ}
    (hc : ChainWf c) (hflat : c.flatten = (t.wheel dst).chain.flatten ++ [n])
    (hlt : ∀ e ∈ t.entries, e < n) (hn : stsc n = (t.wheel dst).txTsc)
    (hd : dsr n ≤ stsc n ∧ stsc n ≤ dsr n + w) :
    WInv w dsr stsc (t.setWslot dst { t.wheel dst with chain := c }) where
  width := hi.width
  ring := hi.ring.setWslot rfl
  chains := by
    rw [setWslot_wheel]
    exact (Function.forall_update_iff t.wheel fun _ (ws : Wslot ℕ) => ChainWf ws.chain).2
      ⟨hc, fun j _ => hi.chains j⟩
  slotted j e he := by
    rw [setChain_txTsc]
    by_cases hj : j = dst
    · rw [hj, setWslot_wheel, Function.update_self] at he
      rw [hj]
      rcases List.mem_append.1 (hflat ▸ he) with he | he
      · exact hi.slotted dst e he
      · rw [List.mem_singleton.1 he]
        exact ⟨hn, hd⟩
    · rw [setWslot_wheel, Function.update_of_ne hj] at he
      exact hi.slotted j e he
  chainSorted := by
    rw [setWslot_wheel]
    refine (Function.forall_update_iff t.wheel fun _ (ws : Wslot ℕ) =>
      ws.chain.flatten.Pairwise (· < ·)).2 ⟨?_, fun j _ => hi.chainSorted j⟩
    rw [hflat, List.pairwise_append]
    refine ⟨hi.chainSorted dst, List.pairwise_singleton _ _, fun a ha b hb => ?_⟩
    rw [List.mem_singleton.1 hb]
    exact hlt a (mem_entries.2 ⟨dst, ha⟩)
  readySorted := hi.readySorted
  readyBefore e he := by
    rw [curTsc_setChain]
    exact hi.readyBefore e he

end Wheel

namespace TwSys

variable {N : ℕ} [NeZero N] {w H : ℕ} {s s' : TwSys N}

/-- The invariant of every reachable state, for a slot width `w` and a horizon `H`. -/
structure Inv (w H : ℕ) (s : TwSys N) : Prop where
  wheel : WInv w (fun e => s.desired.getD e 0) (fun e => s.slotTsc.getD e 0) s.wheel
  horizon : s.wheel.horizonTsc = H
  ahead : s.clock < s.wheel.curTsc
  near : s.wheel.curTsc ≤ s.clock + w
  lengths : s.slotTsc.length = s.desired.length
  conserve : (s.wheel.readyQueue : Multiset ℕ) + s.wheel.entries = Multiset.range s.desired.length

theorem Inv.init (hw : 0 < w) (baseTsc : ℕ) : Inv w H (init w H baseTsc : TwSys N) where
  wheel := WInv.create w H baseTsc
  horizon := rfl
  ahead := by
    show baseTsc < (TimingWheel.create w H baseTsc : TimingWheel ℕ N).curTsc
    rw [create_curTsc]
    omega
  near := by
    show (TimingWheel.create w H baseTsc : TimingWheel ℕ N).curTsc ≤ baseTsc + w
    rw [create_curTsc]
  lengths := rfl
  conserve := by
    rw [TwSys.init, create_entries]
    rfl

omit [NeZero N] in
theorem Inv.lt_of_mem (hi : Inv w H s) {e : ℕ}
    (he : e ∈ s.wheel.readyQueue ∨ e ∈ s.wheel.entries) : e < s.desired.length := by
  rw [← Multiset.mem_range, ← hi.conserve, Multiset.mem_add, Multiset.mem_coe]
  exact he

theorem Inv.reap (hw : 0 < w) (hi : Inv w H s) {reapTsc : ℕ} (hc : s.clock ≤ reapTsc) :
    Inv w H ⟨s.wheel.reap reapTsc, reapTsc, s.desired, s.slotTsc⟩ where
  wheel := hi.wheel.reap hw reapTsc
  horizon := (reap_horizonTsc _ _).trans hi.horizon
  ahead := hi.wheel.ring.lt_reap_curTsc (hi.wheel.width ▸ hw) reapTsc
  near := by
    have h0 : s.wheel.curTsc ≤ reapTsc + s.wheel.wslotWidthTsc := by
      rw [hi.wheel.width]
      exact le_trans hi.near (by omega)
    have h := hi.wheel.ring.reap_curTsc_le h0
    rwa [hi.wheel.width] at h
  lengths := hi.lengths
  conserve := (reap_conserve _ _).trans hi.conserve

/-- The wheel after an insert's reap: its invariant, with the current slot in the future by at most
a slot width. -/
theorem Inv.reap_wheel (hw : 0 < w) (hi : Inv w H s) {refTsc : ℕ} (hc : s.clock ≤ refTsc) :
    WInv w (fun e => s.desired.getD e 0) (fun e => s.slotTsc.getD e 0) (s.wheel.reap refTsc) ∧
      refTsc < (s.wheel.reap refTsc).curTsc ∧ (s.wheel.reap refTsc).curTsc ≤ refTsc + w :=
  ⟨(hi.reap hw hc).wheel, (hi.reap hw hc).ahead, (hi.reap hw hc).near⟩

theorem Inv.insert (hw : 0 < w) (hi : Inv w H s) {refTsc d : ℕ} {t : TimingWheel ℕ N}
    (hc : s.clock ≤ refTsc) (h : s.wheel.insert s.desired.length refTsc d = some t) :
    Inv w H ⟨t, refTsc, s.desired ++ [d], s.slotTsc ++ [insertSlotTsc s.wheel refTsc d]⟩ := by
  obtain ⟨h1, -, -, dst, c, hdst, hc', rfl⟩ := insert_eq_some h
  set t1 := s.wheel.reap refTsc with ht1
  set n := s.desired.length with hn
  have hr := hi.reap hw hc
  obtain ⟨hw1, hahead, hnear⟩ := hi.reap_wheel hw hc
  have hcons : (t1.readyQueue : Multiset ℕ) + t1.entries = Multiset.range n := hr.conserve
  have hlt : ∀ e, e ∈ t1.readyQueue ∨ e ∈ t1.entries → e < n := fun e he => hr.lt_of_mem he
  have hlen : s.slotTsc.length = n := hi.lengths
  obtain ⟨c', hc'', hwf, hflat⟩ := (hw1.chains dst).chainInsert n
  obtain rfl : c' = c := Option.some.inj (hc''.symm.trans hc')
  have hS : insertSlotTsc s.wheel refTsc d = (t1.wheel dst).txTsc := by
    rw [insertSlotTsc, ← ht1, hdst]
  obtain ⟨hS1, hS2⟩ := hw1.ring.dstWslot_bounds (hw1.width ▸ hw) hdst
  rw [hw1.width, max_eq_left (by omega)] at hS2
  have hnd : (s.desired ++ [d]).getD n 0 = d := by simp [hn]
  have hns : (s.slotTsc ++ [insertSlotTsc s.wheel refTsc d]).getD n 0 = (t1.wheel dst).txTsc := by
    simp [← hlen, hS]
  have hold : WInv w (fun e => (s.desired ++ [d]).getD e 0)
      (fun e => (s.slotTsc ++ [insertSlotTsc s.wheel refTsc d]).getD e 0) t1 :=
    hw1.congr fun e he =>
      ⟨List.getD_append _ _ 0 e (hlt e he), List.getD_append _ _ 0 e (hlen ▸ hlt e he)⟩
  refine ⟨hold.setChain hwf hflat (fun e he => hlt e (.inr he)) hns ⟨?_, ?_⟩, hr.horizon,
    ?_, ?_, by simp [hlen, hn], ?_⟩
  · rw [hnd, hns]
    exact hS1
  · rw [hnd, hns]
    exact hS2
  · rw [curTsc_setChain]
    exact hahead
  · rw [curTsc_setChain]
    exact hnear
  · rw [setWslot_readyQueue, entries_setChain_append hflat, Multiset.add_cons, hcons,
      List.length_append, List.length_singleton, Multiset.range_succ]

theorem Inv.step (hw : 0 < w) (hi : Inv w H s) {c : TwCall} (h : s.step c = some s') :
    Inv w H s' := by
  obtain ⟨hc, ⟨r, rfl, rfl⟩ | ⟨refTsc, d, t, rfl, ht, rfl⟩⟩ := step_eq_some h
  · exact hi.reap hw hc
  · exact hi.insert hw hc ht

theorem inv_of_reachable (hw : 0 < w) {baseTsc : ℕ} (hr : Reachable step (init w H baseTsc) s) :
    Inv w H s :=
  Reachable.induct (Inv w H) (Inv.init hw baseTsc) (fun _ _ _ _ hi hs => hi.step hw hs) hr

omit [NeZero N] in
theorem width_pos (hH : H < (N - 1) * w) : 0 < w := by
  rcases Nat.eq_zero_or_pos w with rfl | hw
  · rw [Nat.mul_zero] at hH
    exact absurd hH (Nat.not_lt_zero H)
  · exact hw

/-- A call appends to the ready queue, and only entries whose desired time has come. -/
theorem Inv.step_readyQueue (hw : 0 < w) (hi : Inv w H s) {c : TwCall}
    (h : s.step c = some s') :
    ∃ moved, s'.wheel.readyQueue = s.wheel.readyQueue ++ moved ∧
      ∀ e ∈ moved, s.desired.getD e 0 ≤ c.tsc := by
  obtain ⟨-, ⟨r, rfl, rfl⟩ | ⟨refTsc, d, t, rfl, ht, rfl⟩⟩ := step_eq_some h
  · obtain ⟨moved, hq, hm⟩ := hi.wheel.reap_readyQueue hw r
    exact ⟨moved, hq, fun e he => (hm e he).1.trans (hm e he).2⟩
  · obtain ⟨-, -, -, dst, cs, -, -, rfl⟩ := insert_eq_some ht
    obtain ⟨moved, hq, hm⟩ := hi.wheel.reap_readyQueue hw refTsc
    exact ⟨moved, by rw [setWslot_readyQueue, hq], fun e he => (hm e he).1.trans (hm e he).2⟩

omit [NeZero N] in
/-- An inserted entry whose desired time is a slot width or more in the past is in the ready
queue: its slot's time, not before the current slot's, is at most a slot width after it. -/
theorem Inv.mem_readyQueue (hi : Inv w H s) {e : ℕ} (he : e < s.desired.length)
    (hlate : s.desired.getD e 0 + w ≤ s.clock) : e ∈ s.wheel.readyQueue := by
  have hmem : e ∈ (s.wheel.readyQueue : Multiset ℕ) + s.wheel.entries := by
    rw [hi.conserve]
    exact Multiset.mem_range.2 he
  rcases Multiset.mem_add.1 hmem with hq | hq
  · exact Multiset.mem_coe.1 hq
  · obtain ⟨i, hi'⟩ := mem_entries.1 hq
    obtain ⟨h1, -, h3⟩ := hi.wheel.slotted i e hi'
    have h4 := hi.wheel.ring.curTsc_le i
    have h5 := hi.ahead
    omega

/-- Every insert within the horizon passes `insert`'s assertions. -/
theorem Inv.insert_isSome (hH : H < (N - 1) * w) (hi : Inv w H s) {refTsc d : ℕ}
    (hc : s.clock ≤ refTsc) (h1 : refTsc ≤ d) (h2 : d ≤ refTsc + H) :
    ∃ s', s.step (.insert refTsc d) = some s' := by
  have hw := width_pos hH
  obtain ⟨hw1, hahead, -⟩ := hi.reap_wheel hw hc
  obtain ⟨dst, hdst⟩ := dstWslot_isSome (hw1.width ▸ hw)
    (by rw [hw1.width]; omega : d - (s.wheel.reap refTsc).curTsc < (N - 1) *
      (s.wheel.reap refTsc).wslotWidthTsc)
  obtain ⟨t, ht⟩ := TimingWheel.insert_isSome s.desired.length h1 (by rw [hi.horizon]; omega)
    hahead hdst (hw1.chains dst)
  refine ⟨⟨t, refTsc, s.desired ++ [d], s.slotTsc ++ [insertSlotTsc s.wheel refTsc d]⟩, ?_⟩
  simp only [TwSys.step, if_pos hc, ht, Option.map_some]

theorem Inv.insertSlotTsc_eq (hw : 0 < w) (hi : Inv w H s) {refTsc d : ℕ} {t : TimingWheel ℕ N}
    (hc : s.clock ≤ refTsc) (h : s.wheel.insert s.desired.length refTsc d = some t) :
    insertSlotTsc s.wheel refTsc d = if d ≤ (s.wheel.reap refTsc).curTsc then
      (s.wheel.reap refTsc).curTsc
      else (s.wheel.reap refTsc).curTsc + (1 + (d - (s.wheel.reap refTsc).curTsc) / w) * w := by
  obtain ⟨-, -, -, dst, cs, hdst, -, -⟩ := insert_eq_some h
  obtain ⟨hw1, -, -⟩ := hi.reap_wheel hw hc
  rw [insertSlotTsc, hdst]
  dsimp only
  rw [hw1.ring.dstWslot_txTsc hdst, hw1.width]

/-- Timing and conservation over every run: each inserted entry is in the ready queue or in the
wheel, once; a call moves to the ready queue only entries whose desired time has come, and keeps
those already there; an entry a slot width or more past its desired time is in the ready queue;
and every insert within the horizon passes `insert`'s assertions. -/
theorem timing_wheel_reaps_each_entry_once {baseTsc : ℕ} (hH : H < (N - 1) * w)
    (hr : Reachable step (init w H baseTsc) s) :
    (s.wheel.readyQueue : Multiset ℕ) + s.wheel.entries = Multiset.range s.desired.length ∧
    (∀ c s', s.step c = some s' → ∃ moved, s'.wheel.readyQueue = s.wheel.readyQueue ++ moved ∧
      ∀ e ∈ moved, s.desired.getD e 0 ≤ c.tsc) ∧
    (∀ e < s.desired.length, s.desired.getD e 0 + w ≤ s.clock → e ∈ s.wheel.readyQueue) ∧
    ∀ refTsc d, s.clock ≤ refTsc → refTsc ≤ d → d ≤ refTsc + H →
      ∃ s', s.step (.insert refTsc d) = some s' := by
  have hw := width_pos hH
  have hi := inv_of_reachable hw hr
  exact ⟨hi.conserve, fun c s' h => hi.step_readyQueue hw h,
    fun e he hlate => hi.mem_readyQueue he hlate,
    fun refTsc d hc h1 h2 => hi.insert_isSome hH hc h1 h2⟩

/-- Six entries due at once, more than a bucket holds, then a reap. -/
def sixInsertsRun : List TwCall := List.replicate 6 (.insert 0 5) ++ [.reap 20]

theorem timing_wheel_reaps_each_entry_once_six :
    ∃ s : TwSys 4, Reachable step (init 10 25 0) s ∧ s.desired = [5, 5, 5, 5, 5, 5] ∧
      s.clock = 20 ∧ ∀ e < 6, e ∈ s.wheel.readyQueue := by
  have hrun : ∃ s : TwSys 4, Reachable step (init 10 25 0) s ∧
      (s.desired = [5, 5, 5, 5, 5, 5] ∧ s.clock = 20) :=
    Reachable.exists_of_run sixInsertsRun (by decide +kernel)
  obtain ⟨s, hr, hd, hc⟩ := hrun
  obtain ⟨-, -, hlate, -⟩ := timing_wheel_reaps_each_entry_once (by decide) hr
  refine ⟨s, hr, hd, hc, fun e he => hlate e (by rw [hd]; exact he) ?_⟩
  have h5 : ∀ e < 6, ([5, 5, 5, 5, 5, 5] : List ℕ).getD e 0 + 10 ≤ 20 := by decide
  rw [hd, hc]
  exact h5 e he

/-- The ready queue is ordered by the time of each entry's slot, and by insertion within a slot;
each entry's slot time lies between its desired time and a slot width after it; and an insert's
slot time is the current slot's time after its reap, for a desired time not after it, and else
the first slot time after the desired time. -/
theorem timing_wheel_orders_by_slot_time {baseTsc : ℕ} (hH : H < (N - 1) * w)
    (hr : Reachable step (init w H baseTsc) s) :
    s.wheel.readyQueue.Pairwise (SlotOrder fun e => s.slotTsc.getD e 0) ∧
    (∀ e ∈ s.wheel.readyQueue, s.desired.getD e 0 ≤ s.slotTsc.getD e 0 ∧
      s.slotTsc.getD e 0 ≤ s.desired.getD e 0 + w) ∧
    ∀ refTsc d s', s.step (.insert refTsc d) = some s' →
      s'.slotTsc.getD s.desired.length 0 = if d ≤ (s.wheel.reap refTsc).curTsc then
        (s.wheel.reap refTsc).curTsc
        else (s.wheel.reap refTsc).curTsc + (1 + (d - (s.wheel.reap refTsc).curTsc) / w) * w := by
  have hw := width_pos hH
  have hi := inv_of_reachable hw hr
  refine ⟨hi.wheel.readySorted, fun e he => (hi.wheel.readyBefore e he).2, fun refTsc d s' h => ?_⟩
  obtain ⟨hc, ⟨r, hrc, -⟩ | ⟨refTsc', d', t, hrc, ht, rfl⟩⟩ := step_eq_some h
  · cases hrc
  · obtain ⟨rfl, rfl⟩ : refTsc = refTsc' ∧ d = d' := by
      rw [TwCall.insert.injEq] at hrc
      exact hrc
    have hc' : s.clock ≤ refTsc := hc
    show (s.slotTsc ++ [insertSlotTsc s.wheel refTsc d]).getD s.desired.length 0 = _
    rw [← hi.insertSlotTsc_eq hw hc' ht, ← hi.lengths]
    simp

/-- Two entries with one desired time, inserted before and after a reap that moves the current
slot on, then a reap. -/
def reorderRun : List TwCall := [.insert 0 20, .insert 10 20, .reap 30]

theorem timing_wheel_orders_by_slot_time_run :
    ∃ s : TwSys 4, Reachable step (init 10 25 0) s ∧ s.desired = [20, 20] ∧
      s.wheel.readyQueue = [1, 0] ∧ s.slotTsc.getD 1 0 < s.slotTsc.getD 0 0 := by
  have hrun : ∃ s : TwSys 4, Reachable step (init 10 25 0) s ∧
      (s.desired = [20, 20] ∧ s.wheel.readyQueue = [1, 0]) :=
    Reachable.exists_of_run reorderRun (by decide +kernel)
  obtain ⟨s, hr, hd, hq⟩ := hrun
  have ho := (timing_wheel_orders_by_slot_time (by decide) hr).1
  rw [hq, List.pairwise_pair] at ho
  refine ⟨s, hr, hd, hq, ?_⟩
  rcases ho with h | ⟨-, h⟩
  · exact h
  · exact absurd h (by decide)

end TwSys

end ERpc
