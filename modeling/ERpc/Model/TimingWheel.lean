import Mathlib

/-!
# The timing wheel

`TimingWheel` (`cc/timing_wheel.h`, from Carousel) paces packets. `insert` puts an entry into the
slot of its desired transmission time, and `reap` moves the entries of every slot whose time has
come to `ready_queue_`, slot after slot. A slot has `tx_tsc_`, the time from which its entries may
go, and a chain of buckets of `kWheelBucketCap` entries, the first of which is the slot itself.
Reaping a slot moves its time on by a whole turn of the wheel, so the slots' times stay
consecutive slot widths apart, counted around the wheel from the current slot (`Ring`).

The wheel has `N` = `kWheelNumWslots` slots. Its slot width and horizon in TSC cycles are fields,
since the constructor computes them from the TSC frequency, and `create` takes the `rdtsc()` it
samples. A chain is a list of buckets, each a list of entries: the buckets' `last_` and `next_`
pointers and the pool they come from are left out, and so are `record_vec_` and `catchup`, which
reads the TSC in a loop. An assertion that fails makes `insert` return `none`. Times are natural
numbers: the code keeps `tx_tsc_`, of 61 bits, from wrapping for the server's lifetime.
-/

namespace ERpc

def kWheelBucketCap : ℕ := 5

/-- A wheel slot: the `tx_tsc_` of its first bucket, and its chain of buckets. -/
structure Wslot (α : Type*) where
  txTsc : ℕ
  chain : List (List α)
  deriving DecidableEq

/-- `TimingWheel`, with `N` slots. -/
structure TimingWheel (α : Type*) (N : ℕ) where
  wslotWidthTsc : ℕ
  horizonTsc : ℕ
  wheel : Fin N → Wslot α
  curWslot : Fin N
  readyQueue : List α

namespace TimingWheel

variable {α : Type*} {N : ℕ}

section Chain

/-- `insert_into_wslot` on a chain: the entry goes into the last bucket, and a bucket that fills
up gets a new empty bucket after it. `none` where the last bucket is already full. -/
def chainInsert (ent : α) : List (List α) → Option (List (List α))
  | [] => none
  | [last] =>
    if last.length < kWheelBucketCap then
      some (if last.length + 1 = kWheelBucketCap then [last ++ [ent], []] else [last ++ [ent]])
    else none
  | bkt :: bkts => (chainInsert ent bkts).map (bkt :: ·)

/-- A chain as `insert_into_wslot` keeps it: full buckets, then a last bucket with room. -/
def ChainWf (c : List (List α)) : Prop :=
  ∃ full last, c = full ++ [last] ∧ (∀ b ∈ full, b.length = kWheelBucketCap) ∧
    last.length < kWheelBucketCap

theorem chainWf_reset : ChainWf ([[]] : List (List α)) :=
  ⟨[], [], rfl, by simp, by simp [kWheelBucketCap]⟩

theorem chainInsert_cons (ent : α) {bkt : List α} {bkts : List (List α)} (h : bkts ≠ []) :
    chainInsert ent (bkt :: bkts) = (chainInsert ent bkts).map (bkt :: ·) := by
  cases bkts with
  | nil => exact absurd rfl h
  | cons b bs => rfl

theorem chainInsert_append (ent : α) (last : List α) :
    ∀ full : List (List α), chainInsert ent (full ++ [last]) = (chainInsert ent [last]).map (full ++ ·)
  | [] => by simp
  | bkt :: full => by
    rw [List.cons_append, chainInsert_cons ent (by simp), chainInsert_append ent last full,
      Option.map_map]
    rfl

/-- On a well-formed chain, `insert_into_wslot` passes its assertion, keeps the chain well formed,
and puts the entry after all the others. -/
theorem ChainWf.chainInsert {c : List (List α)} (hc : ChainWf c) (ent : α) :
    ∃ c', chainInsert ent c = some c' ∧ ChainWf c' ∧ c'.flatten = c.flatten ++ [ent] := by
  obtain ⟨full, last, rfl, hfull, hlast⟩ := hc
  rw [chainInsert_append]
  by_cases hfill : last.length + 1 = kWheelBucketCap
  · refine ⟨full ++ [last ++ [ent], []], by simp [TimingWheel.chainInsert, hlast, hfill],
      ⟨full ++ [last ++ [ent]], [], by simp, fun b hb => ?_, by simp [kWheelBucketCap]⟩, by simp⟩
    rcases List.mem_append.1 hb with hb | hb
    · exact hfull b hb
    · rw [List.mem_singleton.1 hb, List.length_append, List.length_singleton, hfill]
  · refine ⟨full ++ [last ++ [ent]], by simp [TimingWheel.chainInsert, hlast, hfill],
      ⟨full, last ++ [ent], rfl, hfull, ?_⟩, by simp⟩
    rw [List.length_append, List.length_singleton]
    omega

end Chain

section Slots

/-- Replace slot `wsI`. -/
def setWslot (t : TimingWheel α N) (wsI : Fin N) (ws : Wslot α) : TimingWheel α N :=
  { t with wheel := Function.update t.wheel wsI ws }

@[simp] theorem setWslot_wheel (t : TimingWheel α N) (i : Fin N) (ws : Wslot α) :
    (t.setWslot i ws).wheel = Function.update t.wheel i ws := rfl

@[simp] theorem setWslot_curWslot (t : TimingWheel α N) (i : Fin N) (ws : Wslot α) :
    (t.setWslot i ws).curWslot = t.curWslot := rfl

@[simp] theorem setWslot_readyQueue (t : TimingWheel α N) (i : Fin N) (ws : Wslot α) :
    (t.setWslot i ws).readyQueue = t.readyQueue := rfl

@[simp] theorem setWslot_wslotWidthTsc (t : TimingWheel α N) (i : Fin N) (ws : Wslot α) :
    (t.setWslot i ws).wslotWidthTsc = t.wslotWidthTsc := rfl

@[simp] theorem setWslot_horizonTsc (t : TimingWheel α N) (i : Fin N) (ws : Wslot α) :
    (t.setWslot i ws).horizonTsc = t.horizonTsc := rfl

def insertIntoWslot (t : TimingWheel α N) (wsI : Fin N) (ent : α) : Option (TimingWheel α N) :=
  (chainInsert ent (t.wheel wsI).chain).map fun chain =>
    t.setWslot wsI { t.wheel wsI with chain := chain }

/-- `reap_wslot (ws_i)`: the chain's entries go to the ready queue in order, and the slot keeps
only its own bucket, empty. -/
def reapWslot (t : TimingWheel α N) (wsI : Fin N) : TimingWheel α N :=
  { t.setWslot wsI { t.wheel wsI with chain := [[]] } with
    readyQueue := t.readyQueue ++ (t.wheel wsI).chain.flatten }

/-- The entries in the wheel's slots. -/
def entries (t : TimingWheel α N) : Multiset α :=
  ∑ i, ((t.wheel i).chain.flatten : Multiset α)

theorem mem_entries {t : TimingWheel α N} {e : α} :
    e ∈ t.entries ↔ ∃ i, e ∈ (t.wheel i).chain.flatten := by
  simp [entries, Multiset.mem_sum]

theorem entries_setWslot (t : TimingWheel α N) (i : Fin N) (ws : Wslot α) :
    (t.setWslot i ws).entries + (t.wheel i).chain.flatten = t.entries + ws.chain.flatten := by
  unfold entries
  rw [setWslot_wheel]
  have hrest : ∑ j ∈ Finset.univ.erase i, ((Function.update t.wheel i ws j).chain.flatten :
      Multiset α) = ∑ j ∈ Finset.univ.erase i, ((t.wheel j).chain.flatten : Multiset α) :=
    Finset.sum_congr rfl fun j hj => by rw [Function.update_of_ne (Finset.ne_of_mem_erase hj)]
  have hnew := Finset.add_sum_erase Finset.univ
    (fun j => ((Function.update t.wheel i ws j).chain.flatten : Multiset α)) (Finset.mem_univ i)
  have hold := Finset.add_sum_erase Finset.univ
    (fun j => ((t.wheel j).chain.flatten : Multiset α)) (Finset.mem_univ i)
  rw [hrest, Function.update_self] at hnew
  rw [← hnew, ← hold]
  abel

theorem entries_setChain_append {t : TimingWheel α N} {i : Fin N} {c : List (List α)} {x : α}
    (h : c.flatten = (t.wheel i).chain.flatten ++ [x]) :
    (t.setWslot i { t.wheel i with chain := c }).entries = x ::ₘ t.entries := by
  have he := entries_setWslot t i { t.wheel i with chain := c }
  dsimp only at he
  rw [h, ← Multiset.coe_add, Multiset.coe_singleton] at he
  refine add_right_cancel (he.trans ?_)
  rw [← Multiset.singleton_add]
  abel

end Slots

section Ring

/-- `wheel_[cur_wslot_].tx_tsc_` -/
def curTsc (t : TimingWheel α N) : ℕ := (t.wheel t.curWslot).txTsc

/-- How many slots `j` lies after `i`, going around the wheel. -/
def dist (i j : Fin N) : ℕ := if i.val ≤ j.val then j.val - i.val else j.val + N - i.val

/-- `cur_wslot_++`, back to 0 at `kWheelNumWslots`. -/
def nextWslot [NeZero N] (i : Fin N) : Fin N :=
  if h : i.val + 1 < N then ⟨i.val + 1, h⟩ else ⟨0, Nat.pos_of_neZero N⟩

theorem nextWslot_val [NeZero N] (i : Fin N) :
    (nextWslot i).val = if i.val + 1 < N then i.val + 1 else 0 := by
  unfold nextWslot
  split_ifs <;> rfl

theorem dist_self (i : Fin N) : dist i i = 0 := by
  simp [dist]

theorem dist_lt (i j : Fin N) : dist i j < N := by
  have := i.isLt
  have := j.isLt
  unfold dist
  split_ifs <;> omega

theorem dist_nextWslot [NeZero N] {i j : Fin N} (h : i ≠ j) :
    dist (nextWslot i) j + 1 = dist i j := by
  have hv := Fin.val_ne_of_ne h
  have := i.isLt
  have := j.isLt
  unfold dist
  rw [nextWslot_val]
  split_ifs <;> omega

theorem dist_nextWslot_self [NeZero N] (i : Fin N) : dist (nextWslot i) i = N - 1 := by
  have := i.isLt
  unfold dist
  rw [nextWslot_val]
  split_ifs <;> omega

theorem dist_self_nextWslot [NeZero N] {i : Fin N} (h : nextWslot i ≠ i) :
    dist i (nextWslot i) = 1 := by
  have hv := Fin.val_ne_of_ne h
  unfold dist
  rw [nextWslot_val] at hv ⊢
  split_ifs at hv ⊢ <;> omega

theorem nextWslot_eq_self [NeZero N] {i : Fin N} (h : nextWslot i = i) : N = 1 := by
  have hv := congrArg Fin.val h
  have := i.isLt
  rw [nextWslot_val] at hv
  split_ifs at hv <;> omega

/-- The slots' times are whole slot widths apart, counted around the wheel from the current
slot. -/
def Ring (t : TimingWheel α N) : Prop :=
  ∀ j, (t.wheel j).txTsc = t.curTsc + dist t.curWslot j * t.wslotWidthTsc

theorem Ring.curTsc_le {t : TimingWheel α N} (hr : t.Ring) (j : Fin N) :
    t.curTsc ≤ (t.wheel j).txTsc := by
  rw [hr j]
  exact Nat.le_add_right _ _

theorem setWslot_txTsc {t : TimingWheel α N} {i : Fin N} {ws : Wslot α}
    (hws : ws.txTsc = (t.wheel i).txTsc) (j : Fin N) :
    ((t.setWslot i ws).wheel j).txTsc = (t.wheel j).txTsc := by
  by_cases hj : j = i
  · rw [hj, setWslot_wheel, Function.update_self, hws]
  · rw [setWslot_wheel, Function.update_of_ne hj]

theorem curTsc_setWslot {t : TimingWheel α N} {i : Fin N} {ws : Wslot α}
    (hws : ws.txTsc = (t.wheel i).txTsc) : (t.setWslot i ws).curTsc = t.curTsc :=
  setWslot_txTsc hws t.curWslot

theorem setChain_txTsc (t : TimingWheel α N) (i : Fin N) (c : List (List α)) (j : Fin N) :
    ((t.setWslot i { t.wheel i with chain := c }).wheel j).txTsc = (t.wheel j).txTsc :=
  @setWslot_txTsc α N t i { t.wheel i with chain := c } rfl j

theorem curTsc_setChain (t : TimingWheel α N) (i : Fin N) (c : List (List α)) :
    (t.setWslot i { t.wheel i with chain := c }).curTsc = t.curTsc :=
  setChain_txTsc t i c t.curWslot

theorem Ring.setWslot {t : TimingWheel α N} (hr : t.Ring) {i : Fin N} {ws : Wslot α}
    (hws : ws.txTsc = (t.wheel i).txTsc) : (t.setWslot i ws).Ring := by
  intro j
  rw [setWslot_txTsc hws, curTsc_setWslot hws, setWslot_curWslot, setWslot_wslotWidthTsc]
  exact hr j

end Ring

section Create

variable [NeZero N]

/-- The constructor, with the slot width, the horizon and the `rdtsc()` it samples. -/
def create (wslotWidthTsc horizonTsc baseTsc : ℕ) : TimingWheel α N where
  wslotWidthTsc := wslotWidthTsc
  horizonTsc := horizonTsc
  wheel wsI := ⟨baseTsc + (wsI.val + 1) * wslotWidthTsc, [[]]⟩
  curWslot := 0
  readyQueue := []

theorem create_curTsc (w H baseTsc : ℕ) :
    (create w H baseTsc : TimingWheel α N).curTsc = baseTsc + w := by
  simp [create, curTsc]

theorem create_ring (w H baseTsc : ℕ) : (create w H baseTsc : TimingWheel α N).Ring := by
  intro j
  rw [create_curTsc]
  simp only [create, dist, Fin.val_zero, Nat.zero_le, if_true, Nat.sub_zero]
  rw [Nat.add_one_mul]
  omega

theorem create_entries (w H baseTsc : ℕ) : (create w H baseTsc : TimingWheel α N).entries = 0 := by
  simp [entries, create]

end Create

section Reap

variable [NeZero N]

/-- One pass of `reap`'s loop: reap the current slot, move its time on by a turn of the wheel, and
go to the next slot. -/
def reapPass (t : TimingWheel α N) : TimingWheel α N :=
  let t := t.reapWslot t.curWslot
  let t := t.setWslot t.curWslot
    { t.wheel t.curWslot with txTsc := (t.wheel t.curWslot).txTsc + t.wslotWidthTsc * N }
  { t with curWslot := nextWslot t.curWslot }

/-- The loop of `reap (reap_tsc)`, with at most `fuel` passes. -/
def reapLoop (reapTsc : ℕ) : ℕ → TimingWheel α N → TimingWheel α N
  | 0, t => t
  | fuel + 1, t =>
    if (t.wheel t.curWslot).txTsc ≤ reapTsc then reapLoop reapTsc fuel t.reapPass else t

/-- `reap (reap_tsc)`. Each pass moves the current slot's time on by a slot width, so that
`reap_tsc + 1` passes reach a slot in the future (`Ring.lt_reap_curTsc`). -/
def reap (t : TimingWheel α N) (reapTsc : ℕ) : TimingWheel α N :=
  reapLoop reapTsc (reapTsc + 1) t

@[simp] theorem reapPass_curWslot (t : TimingWheel α N) :
    t.reapPass.curWslot = nextWslot t.curWslot := rfl

@[simp] theorem reapPass_readyQueue (t : TimingWheel α N) :
    t.reapPass.readyQueue = t.readyQueue ++ (t.wheel t.curWslot).chain.flatten := rfl

@[simp] theorem reapPass_wslotWidthTsc (t : TimingWheel α N) :
    t.reapPass.wslotWidthTsc = t.wslotWidthTsc := rfl

@[simp] theorem reapPass_horizonTsc (t : TimingWheel α N) :
    t.reapPass.horizonTsc = t.horizonTsc := rfl

theorem reapPass_wheel (t : TimingWheel α N) :
    t.reapPass.wheel =
      Function.update t.wheel t.curWslot ⟨t.curTsc + t.wslotWidthTsc * N, [[]]⟩ := by
  funext j
  by_cases hj : j = t.curWslot
  · subst hj
    simp [reapPass, reapWslot, setWslot, curTsc]
  · simp [reapPass, reapWslot, setWslot, Function.update_of_ne hj]

theorem reapPass_conserve (t : TimingWheel α N) :
    (t.reapPass.readyQueue : Multiset α) + t.reapPass.entries =
      (t.readyQueue : Multiset α) + t.entries := by
  have hw : t.reapPass.entries =
      (t.setWslot t.curWslot ⟨t.curTsc + t.wslotWidthTsc * N, [[]]⟩).entries := by
    unfold entries
    rw [reapPass_wheel, setWslot_wheel]
  have hs := entries_setWslot t t.curWslot ⟨t.curTsc + t.wslotWidthTsc * N, [[]]⟩
  rw [List.flatten_singleton, Multiset.coe_nil, add_zero] at hs
  rw [reapPass_readyQueue, hw, ← Multiset.coe_add, ← hs]
  abel

theorem Ring.reapPass_curTsc {t : TimingWheel α N} (hr : t.Ring) :
    t.reapPass.curTsc = t.curTsc + t.wslotWidthTsc := by
  rw [curTsc, reapPass_wheel, reapPass_curWslot]
  by_cases hc : nextWslot t.curWslot = t.curWslot
  · have hN : t.wslotWidthTsc * N = t.wslotWidthTsc * 1 :=
      congrArg (t.wslotWidthTsc * ·) (nextWslot_eq_self hc)
    rw [hc, Function.update_self, hN, mul_one]
  · rw [Function.update_of_ne hc, hr, dist_self_nextWslot hc, one_mul]

/-- A pass keeps the ring: the reaped slot's time moves a turn on and becomes the last. -/
theorem Ring.reapPass {t : TimingWheel α N} (hr : t.Ring) : t.reapPass.Ring := by
  intro j
  rw [hr.reapPass_curTsc, reapPass_wheel, reapPass_curWslot, reapPass_wslotWidthTsc]
  by_cases hj : j = t.curWslot
  · rw [hj, Function.update_self, dist_nextWslot_self, Nat.sub_one_mul,
      Nat.mul_comm t.wslotWidthTsc N]
    have := Nat.le_mul_of_pos_left t.wslotWidthTsc (Nat.pos_of_neZero N)
    dsimp only
    omega
  · rw [Function.update_of_ne hj, hr j, ← dist_nextWslot (Ne.symm hj), Nat.add_one_mul]
    omega

theorem reapLoop_induct (P : TimingWheel α N → Prop) {reapTsc : ℕ}
    (hpass : ∀ t, P t → t.curTsc ≤ reapTsc → P t.reapPass) :
    ∀ fuel t, P t → P (reapLoop reapTsc fuel t)
  | 0, _, h => h
  | fuel + 1, t, h => by
    rw [reapLoop]
    split_ifs with hc
    · exact reapLoop_induct P hpass fuel _ (hpass t h hc)
    · exact h

theorem reap_wslotWidthTsc (t : TimingWheel α N) (reapTsc : ℕ) :
    (t.reap reapTsc).wslotWidthTsc = t.wslotWidthTsc :=
  reapLoop_induct (fun t' => t'.wslotWidthTsc = t.wslotWidthTsc) (fun _ h _ => h) _ t rfl

theorem reap_horizonTsc (t : TimingWheel α N) (reapTsc : ℕ) :
    (t.reap reapTsc).horizonTsc = t.horizonTsc :=
  reapLoop_induct (fun t' => t'.horizonTsc = t.horizonTsc) (fun _ h _ => h) _ t rfl

theorem reap_conserve (t : TimingWheel α N) (reapTsc : ℕ) :
    ((t.reap reapTsc).readyQueue : Multiset α) + (t.reap reapTsc).entries =
      (t.readyQueue : Multiset α) + t.entries :=
  reapLoop_induct
    (fun t' => (t'.readyQueue : Multiset α) + t'.entries = (t.readyQueue : Multiset α) + t.entries)
    (fun t' h _ => (reapPass_conserve t').trans h) _ t rfl

theorem Ring.reap {t : TimingWheel α N} (hr : t.Ring) (reapTsc : ℕ) : (t.reap reapTsc).Ring :=
  reapLoop_induct Ring (fun _ h _ => h.reapPass) _ t hr

theorem Ring.lt_reapLoop_curTsc {reapTsc : ℕ} :
    ∀ fuel (t : TimingWheel α N), t.Ring → reapTsc < t.curTsc + fuel * t.wslotWidthTsc →
      reapTsc < (reapLoop reapTsc fuel t).curTsc
  | 0, _, _, h => by
    rw [reapLoop]
    simpa using h
  | fuel + 1, t, hr, h => by
    rw [reapLoop]
    split_ifs with hc
    · refine Ring.lt_reapLoop_curTsc fuel _ hr.reapPass ?_
      rw [hr.reapPass_curTsc, reapPass_wslotWidthTsc]
      rw [Nat.add_one_mul] at h
      omega
    · exact Nat.lt_of_not_le hc

/-- After `reap (reap_tsc)` the current slot lies in the future, as `insert` asserts. -/
theorem Ring.lt_reap_curTsc {t : TimingWheel α N} (hr : t.Ring) (hw : 0 < t.wslotWidthTsc)
    (reapTsc : ℕ) : reapTsc < (t.reap reapTsc).curTsc := by
  refine hr.lt_reapLoop_curTsc _ _ ?_
  have := Nat.le_mul_of_pos_right (reapTsc + 1) hw
  omega

theorem Ring.reap_curTsc_le {t : TimingWheel α N} (hr : t.Ring) {reapTsc : ℕ}
    (h : t.curTsc ≤ reapTsc + t.wslotWidthTsc) :
    (t.reap reapTsc).curTsc ≤ reapTsc + t.wslotWidthTsc := by
  refine (reapLoop_induct
    (fun t' => t'.Ring ∧ t'.wslotWidthTsc = t.wslotWidthTsc ∧
      t'.curTsc ≤ reapTsc + t.wslotWidthTsc)
    (fun t' ⟨hr', hw', _⟩ hc => ⟨hr'.reapPass, hw', ?_⟩) _ t ⟨hr, rfl, h⟩).2.2
  rw [hr'.reapPass_curTsc, hw']
  omega

end Reap

section Insert

/-- The slot `insert` picks for `desired_tx_tsc`, after its reap; `none` where its assertion on
`wslot_delta` fails. -/
def dstWslot (t : TimingWheel α N) (desiredTxTsc : ℕ) : Option (Fin N) :=
  if desiredTxTsc ≤ (t.wheel t.curWslot).txTsc then some t.curWslot
  else
    if hd : 1 + (desiredTxTsc - (t.wheel t.curWslot).txTsc) / t.wslotWidthTsc < N then
      some (if hw : t.curWslot.val + (1 + (desiredTxTsc - (t.wheel t.curWslot).txTsc) /
          t.wslotWidthTsc) ≥ N then
        ⟨t.curWslot.val + (1 + (desiredTxTsc - (t.wheel t.curWslot).txTsc) /
          t.wslotWidthTsc) - N, by have := t.curWslot.isLt; omega⟩
      else ⟨t.curWslot.val + (1 + (desiredTxTsc - (t.wheel t.curWslot).txTsc) /
          t.wslotWidthTsc), by omega⟩)
    else none

theorem dist_dstWslot {t : TimingWheel α N} {d : ℕ} {dst : Fin N} (h : t.dstWslot d = some dst) :
    dist t.curWslot dst = if d ≤ t.curTsc then 0 else 1 + (d - t.curTsc) / t.wslotWidthTsc := by
  have := t.curWslot.isLt
  unfold dstWslot at h
  rw [curTsc]
  have hq := Nat.zero_le ((d - (t.wheel t.curWslot).txTsc) / t.wslotWidthTsc)
  split_ifs at h with h1 h2 h3 <;> rw [Option.some.injEq] at h <;> subst h
  · rw [if_pos h1]
    exact dist_self _
  all_goals
    rw [if_neg h1]
    unfold dist
    split_ifs <;> simp only at * <;> omega

/-- Within the horizon of the wheel, `insert`'s assertion on `wslot_delta` holds. -/
theorem dstWslot_isSome {t : TimingWheel α N} {d : ℕ} (hw : 0 < t.wslotWidthTsc)
    (h : d - t.curTsc < (N - 1) * t.wslotWidthTsc) : ∃ dst, t.dstWslot d = some dst := by
  have hq : (d - t.curTsc) / t.wslotWidthTsc < N - 1 := (Nat.div_lt_iff_lt_mul hw).2 h
  rw [curTsc] at hq
  unfold dstWslot
  by_cases h1 : d ≤ (t.wheel t.curWslot).txTsc
  · exact ⟨_, if_pos h1⟩
  · have hd : 1 + (d - (t.wheel t.curWslot).txTsc) / t.wslotWidthTsc < N := by
      generalize (d - (t.wheel t.curWslot).txTsc) / t.wslotWidthTsc = q at hq ⊢
      omega
    rw [if_neg h1, dif_pos hd]
    exact ⟨_, rfl⟩

/-- The time of `insert`'s slot: the current slot's for a desired time not after it, and else the
first slot time after the desired time. -/
theorem Ring.dstWslot_txTsc {t : TimingWheel α N} (hr : t.Ring) {d : ℕ} {dst : Fin N}
    (h : t.dstWslot d = some dst) :
    (t.wheel dst).txTsc = if d ≤ t.curTsc then t.curTsc
      else t.curTsc + (1 + (d - t.curTsc) / t.wslotWidthTsc) * t.wslotWidthTsc := by
  rw [hr dst, dist_dstWslot h]
  split_ifs <;> simp

/-- `insert`'s slot is not before the desired time, and less than a slot width after it unless it
is the current slot. -/
theorem Ring.dstWslot_bounds {t : TimingWheel α N} (hr : t.Ring) (hw : 0 < t.wslotWidthTsc)
    {d : ℕ} {dst : Fin N} (h : t.dstWslot d = some dst) :
    d ≤ (t.wheel dst).txTsc ∧ (t.wheel dst).txTsc ≤ max (d + t.wslotWidthTsc) t.curTsc := by
  rw [hr.dstWslot_txTsc h]
  split_ifs with hd
  · omega
  · have h1 := Nat.div_mul_le_self (d - t.curTsc) t.wslotWidthTsc
    have h2 := Nat.lt_div_mul_add (a := d - t.curTsc) hw
    rw [Nat.add_mul, one_mul]
    omega

variable [NeZero N]

/-- `insert (ent, ref_tsc, desired_tx_tsc)`; `none` where one of its assertions fails. -/
def insert (t : TimingWheel α N) (ent : α) (refTsc desiredTxTsc : ℕ) :
    Option (TimingWheel α N) :=
  if desiredTxTsc < refTsc ∨ t.horizonTsc < desiredTxTsc - refTsc then none
  else
    let t := t.reap refTsc
    if (t.wheel t.curWslot).txTsc ≤ refTsc then none
    else (t.dstWslot desiredTxTsc).bind fun dstWslot => t.insertIntoWslot dstWslot ent

/-- Everything `insert` can do: check its arguments, reap, check the current slot, pick a slot
and chain the entry into it. -/
theorem insert_eq_some {t t' : TimingWheel α N} {ent : α} {refTsc d : ℕ}
    (h : t.insert ent refTsc d = some t') :
    refTsc ≤ d ∧ d - refTsc ≤ t.horizonTsc ∧ refTsc < (t.reap refTsc).curTsc ∧
      ∃ dst c, (t.reap refTsc).dstWslot d = some dst ∧
        chainInsert ent ((t.reap refTsc).wheel dst).chain = some c ∧
        t' = (t.reap refTsc).setWslot dst { (t.reap refTsc).wheel dst with chain := c } := by
  unfold insert at h
  dsimp only at h
  split_ifs at h with h1 h2
  obtain ⟨dst, hdst, hins⟩ := Option.bind_eq_some_iff.1 h
  obtain ⟨c, hc, rfl⟩ := Option.map_eq_some_iff.1 hins
  exact ⟨by omega, by omega, Nat.lt_of_not_le h2, dst, c, hdst, hc, rfl⟩

/-- `insert` gets past its assertions when its arguments are in order, its reap leaves the current
slot in the future, its slot is found and that slot's chain is well formed. -/
theorem insert_isSome {t : TimingWheel α N} (ent : α) {refTsc d : ℕ} (h1 : refTsc ≤ d)
    (h2 : d - refTsc ≤ t.horizonTsc) (h3 : refTsc < (t.reap refTsc).curTsc) {dst : Fin N}
    (hdst : (t.reap refTsc).dstWslot d = some dst) (hc : ChainWf ((t.reap refTsc).wheel dst).chain) :
    ∃ t', t.insert ent refTsc d = some t' := by
  obtain ⟨c, hc', -⟩ := hc.chainInsert ent
  refine ⟨(t.reap refTsc).setWslot dst { (t.reap refTsc).wheel dst with chain := c }, ?_⟩
  have h3' : ¬((t.reap refTsc).wheel (t.reap refTsc).curWslot).txTsc ≤ refTsc :=
    Nat.not_le_of_lt h3
  unfold insert
  dsimp only
  rw [if_neg (by omega), if_neg h3', hdst, Option.bind_some, insertIntoWslot, hc', Option.map_some]

end Insert

end TimingWheel

end ERpc
