import Mathlib
import ERpc.Lib.Reach
import ERpc.Model.MtQueue

/-!
# The background queues over every interleaving

Any number of producer threads call `unlocked_push` on one `MtQueue`, each one call at a time,
while its one consumer runs its loop. Their statements interleave in any order, and a thread that
waits for the lock takes no step. The producers of the Rpc's two queues are the background threads
and any other thread that calls `enqueue_request` or `enqueue_response`, and their consumer is the
event loop. The producers of a background thread's queue are the dispatch threads that submit work
to it (`submit_bg_req_st`, `submit_bg_resp_st`), and its consumer is the background thread. The
consumer hands each item it pops to `h`: to `enqueue_request` or `enqueue_response` on the Rpc for
the event loop, to the request handler or the continuation for a background thread. A background
thread that sees its kill switch stops taking steps, which is one of the interleavings.

The model runs one statement at a time, in one global order. On the x86 hosts the code targets,
stores are seen in program order, the compiler barriers keep `size_++` after the push and `size_--`
after the pop, and the mutex orders the rest.

In every reachable state (`bg_queue_never_faults`) at most one thread holds the lock, and while it
is free `size_` is the length of the queue, so a read of `size_` without the lock is within one of
it; no `front ()` finds the queue empty and no `size_--` wraps. Every item a producer passes to
`unlocked_push` is handed on by the consumer at most once, in the order the pushes took the lock,
each producer's items in the order of its calls, and none is lost: the items not yet handed on are
in the consumer's hands, in the queue, or in a call not yet past `queue_.push`
(`bg_queue_hands_on_each_push_once_in_order`). At its read of `size_` the consumer finds exactly
the items whose `size_++` has run and that it has not handed on, so a pass of the event loop hands
on exactly those, and a background thread that reads 0 has handed on all of them
(`bg_queue_drains_counted_pushes`).
-/

namespace ERpc

open Transition MtQueue

/-- A thread that uses the queue: its consumer, or producer `i`. -/
inductive Thread (ι : Type)
  | consumer
  | producer (i : ι)
  deriving DecidableEq

/-- What happens next: producer `i` calls `unlocked_push (x)`, producer `i` runs its next
statement, or the consumer runs its next statement. -/
inductive BgAct (ι α : Type)
  | call (i : ι) (x : α)
  | producer (i : ι)
  | consumer

/-- One queue, its producers and its consumer. -/
structure BgSys (ι α σ : Type) where
  q : MtQueue α
  prod : ι → Option (PushPc α)
  cons : ConsPc α
  app : σ
  fault : Bool
  -- The history, which the code does not keep: who holds the lock, each producer's calls, the
  -- items pushed (with their producer) and popped, in order, the items handed on, the number of
  -- pushes past `size_++`, and that number at the consumer's last read of `size_`.
  owner : Option (Thread ι)
  calls : ι → List α
  pushed : List (ι × α)
  popped : List α
  handled : List α
  completed : ℕ
  mark : ℕ

namespace ConsPc

variable {α : Type}

/-- Whether the consumer is at a statement of `unlocked_pop` it runs with the lock held. -/
def holdsLock : ConsPc α → Bool
  | .pop _ pc => pc.holdsLock
  | _ => false

/-- `size_` is one ahead of the queue while the consumer is between `queue_.pop` and `size_--`. -/
def lead : ConsPc α → ℕ
  | .pop _ (.size _) => 1
  | _ => 0

/-- The pops the consumer has still to make in this pass, with one it has started and not yet
taken from the queue. -/
def pending : ConsPc α → ℕ
  | .top => 0
  | .loop n => n
  | .pop n .lock => n + 1
  | .pop n .front => n + 1
  | .pop n _ => n
  | .handle n _ => n

/-- The item the consumer has popped and not yet handed on. -/
def inHand : ConsPc α → List α
  | .pop _ (.size x) => [x]
  | .pop _ (.unlock x) => [x]
  | .handle _ x => [x]
  | _ => []

/-- What the consumer goes on to after its read of `size_`: no call of `unlocked_pop`, no
item in hand, and no more pops than it read (exactly as many for the event loop). -/
theorem read_cases (k : Consumer) (n : ℕ) :
    ∃ m, ((k.read n : ConsPc α) = .top ∨ (k.read n : ConsPc α) = .loop m) ∧
      (k.read n : ConsPc α).pending = m ∧ m ≤ n ∧ (k = .eventLoop → m = n) := by
  cases k with
  | eventLoop => exact ⟨n, .inr rfl, rfl, le_rfl, fun _ => rfl⟩
  | bgThread =>
    by_cases hn : n = 0
    · exact ⟨0, .inl (by simp [Consumer.read, hn]), by simp [Consumer.read, hn, pending],
        Nat.zero_le _, nofun⟩
    · exact ⟨1, .inr (by simp [Consumer.read, hn]), by simp [Consumer.read, hn, pending],
        by omega, nofun⟩

theorem lead_le_one (c : ConsPc α) : c.lead ≤ 1 := by
  unfold lead
  split <;> omega

theorem lead_eq_zero (c : ConsPc α) (hc : c.holdsLock = false) : c.lead = 0 := by
  rcases c with _ | _ | ⟨n, _ | _ | x | x⟩ | _ <;> simp_all [holdsLock, lead, PopPc.holdsLock]

end ConsPc

namespace BgSys

variable {ι α σ : Type} [DecidableEq ι]

/-- No thread in a call, a new queue, and the consumer's state `app`. -/
def init (app : σ) : BgSys ι α σ :=
  ⟨MtQueue.init, fun _ => none, .top, app, false, none, fun _ => [], [], [], [], 0, 0⟩

/-- What a statement of producer `i` adds to the history. -/
def notePush (i : ι) (s : BgSys ι α σ) : PushPc α → BgSys ι α σ
  | .lock _ => { s with owner := some (.producer i) }
  | .push x => { s with pushed := s.pushed ++ [(i, x)] }
  | .size => { s with completed := s.completed + 1 }
  | .unlock => { s with owner := none }

/-- Producer `i` runs its next statement. -/
def producerStep (s : BgSys ι α σ) (i : ι) : Option (BgSys ι α σ) :=
  match s.prod i with
  | none => none
  | some pc => (s.q.pushStep pc).map fun r =>
    { s.notePush i pc with q := r.1, prod := Function.update s.prod i r.2 }

/-- What a statement of `unlocked_pop` adds to the history. -/
def notePop (s : BgSys ι α σ) : PopPc α → PopNext α → BgSys ι α σ
  | .lock, _ => { s with owner := some .consumer }
  | .front, .cont (.size x) => { s with popped := s.popped ++ [x] }
  | .unlock _, _ => { s with owner := none }
  | _, _ => s

/-- The consumer runs its next statement: it reads `size_`, tests the pops left, runs a
statement of `unlocked_pop`, or hands the popped item on. -/
def consumerStep (k : Consumer) (h : σ → α → σ) (s : BgSys ι α σ) :
    Option (BgSys ι α σ) :=
  match s.cons with
  | .top => some { s with cons := k.read s.q.size, mark := s.completed }
  | .loop 0 => some { s with cons := .top }
  | .loop (n + 1) => some { s with cons := .pop n unlockedPop }
  | .pop n pc => (s.q.popStep pc).map fun r =>
    match r.2 with
    | .cont pc' => { s.notePop pc r.2 with q := r.1, cons := .pop n pc' }
    | .ret x => { s.notePop pc r.2 with q := r.1, cons := .handle n x }
    | .fault => { s with fault := true }
  | .handle n x =>
    some { s with cons := .loop n, app := h s.app x, handled := s.handled ++ [x] }

/-- One step of the system; a step that a thread cannot take now is `none`. -/
def step (k : Consumer) (h : σ → α → σ) (s : BgSys ι α σ) :
    BgAct ι α → Option (BgSys ι α σ)
  | .call i x =>
    if (s.prod i).isNone then
      some { s with
        prod := Function.update s.prod i (some (unlockedPush x))
        calls := Function.update s.calls i (s.calls i ++ [x]) }
    else none
  | .producer i => s.producerStep i
  | .consumer => s.consumerStep k h

/-- Whether thread `t` is at a statement it runs with the lock held. -/
def holds (s : BgSys ι α σ) : Thread ι → Bool
  | .producer i => (s.prod i).any PushPc.holdsLock
  | .consumer => s.cons.holdsLock

/-- `size_` is one behind the queue while the holder of the lock is between `queue_.push` and
`size_++`. -/
def lag (s : BgSys ι α σ) : ℕ :=
  match s.owner with
  | some (.producer i) =>
    match s.prod i with
    | some .size => 1
    | _ => 0
  | _ => 0

/-- The item of a call of `unlocked_push` that is not yet in the queue. -/
def unpushed : Option (PushPc α) → List α
  | some (.lock x) => [x]
  | some (.push x) => [x]
  | _ => []

/-- The items producer `i` has pushed, in order. -/
def pushedBy (s : BgSys ι α σ) (i : ι) : List α :=
  (s.pushed.filter fun p => p.1 = i).map Prod.snd

section Inv

variable (k : Consumer) (h : σ → α → σ) (app0 : σ)

/-- What holds in every reachable state: no fault; the lock is held by the thread at a statement
that holds it; `size_` counts the pushes past `size_++` less the pops past `queue_.pop`, and the
consumer has no more pops to make than `size_`; the history of pushes and pops is the queue's;
and the consumer has handed on the items it popped, to `h`, one after another. -/
structure Inv (s : BgSys ι α σ) : Prop where
  fault : s.fault = false
  locked : s.q.locked = s.owner.isSome
  owner : ∀ t, s.holds t = true ↔ s.owner = some t
  count : s.q.size + s.popped.length = s.completed + s.cons.lead
  pushedCount : s.pushed.length = s.completed + s.lag
  budget : s.cons.pending + s.cons.lead ≤ s.q.size
  fifo : s.popped ++ s.q.queue = s.pushed.map Prod.snd
  calls : ∀ i, s.pushedBy i ++ unpushed (s.prod i) = s.calls i
  handled : s.handled ++ s.cons.inHand = s.popped
  app : s.app = s.handled.foldl h app0
  mark : k = .eventLoop → s.popped.length + s.cons.pending = s.mark

variable {k h app0} {s : BgSys ι α σ}

/-- `size_` is the length of the queue, less a push not yet counted, plus a pop not yet counted. -/
theorem Inv.size_eq (hi : Inv k h app0 s) : s.q.size + s.lag = s.q.queue.length + s.cons.lead := by
  have hc := hi.count
  have hp := hi.pushedCount
  have hf := congrArg List.length hi.fifo
  simp only [List.length_append, List.length_map] at hf
  omega

theorem Inv.owner_eq_none (hi : Inv k h app0 s) (hl : s.q.locked = false) : s.owner = none := by
  have := hi.locked
  rw [hl] at this
  exact Option.not_isSome_iff_eq_none.1 (by simp [← this])

theorem Inv.holds_eq_false (hi : Inv k h app0 s) (hl : s.q.locked = false) (t : Thread ι) :
    s.holds t = false := by
  have := (hi.owner t).not
  rw [hi.owner_eq_none hl] at this
  simpa using this

omit [DecidableEq ι] in
theorem lag_congr {s s' : BgSys ι α σ} (ho : s'.owner = s.owner)
    (hp : ∀ j, s.owner = some (.producer j) → s'.prod j = s.prod j) : s'.lag = s.lag := by
  unfold lag
  rw [ho]
  split
  · rename_i j hj
    rw [hp j hj]
  · rfl

omit [DecidableEq ι] in
theorem lag_of_owner_ne {s : BgSys ι α σ} (ho : ∀ i, s.owner ≠ some (.producer i)) :
    s.lag = 0 := by
  unfold lag
  split
  · exact absurd ‹_› (ho _)
  · rfl

omit [DecidableEq ι] in
theorem lag_le_one (s : BgSys ι α σ) : s.lag ≤ 1 := by
  unfold lag
  repeat' split
  all_goals omega

omit [DecidableEq ι] in
theorem lag_of_owner_none {s : BgSys ι α σ} (ho : s.owner = none) : s.lag = 0 := by
  simp [lag, ho]

theorem Inv.owner_ne (hi : Inv k h app0 s) {i : ι} (hp : s.prod i = none) :
    s.owner ≠ some (.producer i) := by
  rw [ne_eq, ← hi.owner]
  simp [holds, hp]

section Producer

variable {i : ι} {x : α}

theorem Inv.call (hi : Inv k h app0 s) (hp : s.prod i = none) :
    Inv k h app0 { s with
      prod := Function.update s.prod i (some (unlockedPush x))
      calls := Function.update s.calls i (s.calls i ++ [x]) } where
  fault := hi.fault
  locked := hi.locked
  owner t := by
    rw [← hi.owner t]
    cases t with
    | consumer => rfl
    | producer j =>
      by_cases hj : j = i
      · subst hj
        simp [holds, hp, unlockedPush, PushPc.holdsLock]
      · simp [holds, hj]
  count := hi.count
  pushedCount := by
    refine hi.pushedCount.trans (congrArg (s.completed + ·) (lag_congr (by rfl) fun j hj => ?_).symm)
    refine Function.update_of_ne ?_ _ _
    rintro rfl
    exact hi.owner_ne hp hj
  budget := hi.budget
  fifo := hi.fifo
  calls j := by
    by_cases hj : j = i
    · subst hj
      have := hi.calls j
      simp only [hp, unpushed, List.append_nil] at this
      simp [pushedBy, unpushed, unlockedPush, ← this]
    · simpa [hj, pushedBy] using hi.calls j
  handled := hi.handled
  app := hi.app
  mark := hi.mark

theorem Inv.owner_of_prod (hi : Inv k h app0 s) {pc : PushPc α} (hp : s.prod i = some pc)
    (hpc : pc.holdsLock = true) : s.owner = some (.producer i) :=
  (hi.owner _).1 (by simp [holds, hp, hpc])

theorem Inv.pushLock (hi : Inv k h app0 s) (hp : s.prod i = some (.lock x))
    (hl : s.q.locked = false) :
    Inv k h app0 { s with
      q := { s.q with locked := true }
      prod := Function.update s.prod i (some (.push x))
      owner := some (.producer i) } where
  fault := hi.fault
  locked := rfl
  owner t := by
    have hno := hi.holds_eq_false hl
    cases t with
    | consumer =>
      show s.holds .consumer = true ↔ _
      simp [hno .consumer]
    | producer j =>
      by_cases hj : j = i
      · subst hj
        simp [holds, PushPc.holdsLock]
      · simpa [holds, hj, Ne.symm hj] using hno (.producer j)
  count := hi.count
  pushedCount := by
    show s.pushed.length = s.completed + _
    rw [hi.pushedCount, lag_of_owner_none (hi.owner_eq_none hl)]
    simp [lag]
  budget := hi.budget
  fifo := hi.fifo
  calls j := by
    by_cases hj : j = i
    · subst hj
      simpa [unpushed, hp, pushedBy] using hi.calls j
    · simpa [hj, pushedBy] using hi.calls j
  handled := hi.handled
  app := hi.app
  mark := hi.mark

theorem Inv.pushPush (hi : Inv k h app0 s) (hp : s.prod i = some (.push x)) :
    Inv k h app0 { s with
      q := { s.q with queue := s.q.queue ++ [x] }
      prod := Function.update s.prod i (some .size)
      pushed := s.pushed ++ [(i, x)] } where
  fault := hi.fault
  locked := hi.locked
  owner t := by
    rw [← hi.owner t]
    cases t with
    | consumer => rfl
    | producer j =>
      by_cases hj : j = i
      · subst hj
        simp [holds, hp, PushPc.holdsLock]
      · simp [holds, hj]
  count := hi.count
  pushedCount := by
    have ho := hi.owner_of_prod hp rfl
    have hlag : s.lag = 0 := by simp [lag, ho, hp]
    have := hi.pushedCount
    simp only [List.length_append, List.length_singleton]
    simp [lag, ho]
    omega
  budget := hi.budget
  fifo := by
    simp [← hi.fifo]
  calls j := by
    by_cases hj : j = i
    · subst hj
      simpa [unpushed, hp, pushedBy] using hi.calls j
    · simpa [Ne.symm hj, hj, pushedBy] using hi.calls j
  handled := hi.handled
  app := hi.app
  mark := hi.mark

theorem Inv.pushSize (hi : Inv k h app0 s) (hp : s.prod i = some .size) :
    Inv k h app0 { s with
      q := { s.q with size := s.q.size + 1 }
      prod := Function.update s.prod i (some .unlock)
      completed := s.completed + 1 } where
  fault := hi.fault
  locked := hi.locked
  owner t := by
    rw [← hi.owner t]
    cases t with
    | consumer => rfl
    | producer j =>
      by_cases hj : j = i
      · subst hj
        simp [holds, hp, PushPc.holdsLock]
      · simp [holds, hj]
  count := by
    have := hi.count
    show s.q.size + 1 + s.popped.length = s.completed + 1 + s.cons.lead
    omega
  pushedCount := by
    have ho := hi.owner_of_prod hp rfl
    have hlag : s.lag = 1 := by simp [lag, ho, hp]
    have := hi.pushedCount
    simp [lag, ho]
    omega
  budget := by
    have := hi.budget
    show s.cons.pending + s.cons.lead ≤ s.q.size + 1
    omega
  fifo := hi.fifo
  calls j := by
    by_cases hj : j = i
    · subst hj
      simpa [unpushed, hp, pushedBy] using hi.calls j
    · simpa [hj, pushedBy] using hi.calls j
  handled := hi.handled
  app := hi.app
  mark := hi.mark

theorem Inv.pushUnlock (hi : Inv k h app0 s) (hp : s.prod i = some .unlock) :
    Inv k h app0 { s with
      q := { s.q with locked := false }
      prod := Function.update s.prod i none
      owner := none } where
  fault := hi.fault
  locked := rfl
  owner t := by
    have ho := hi.owner_of_prod hp rfl
    cases t with
    | consumer =>
      show s.holds .consumer = true ↔ _
      simp [hi.owner, ho]
    | producer j =>
      by_cases hj : j = i
      · subst hj
        simp [holds]
      · have := hi.owner (.producer j)
        simp only [ho, Option.some.injEq, Thread.producer.injEq, Ne.symm hj, iff_false] at this
        simpa [holds, hj] using this
  count := hi.count
  pushedCount := by
    have ho := hi.owner_of_prod hp rfl
    have hlag : s.lag = 0 := by simp [lag, ho, hp]
    have := hi.pushedCount
    simp [lag]
    omega
  budget := hi.budget
  fifo := hi.fifo
  calls j := by
    by_cases hj : j = i
    · subst hj
      simpa [unpushed, hp, pushedBy] using hi.calls j
    · simpa [hj, pushedBy] using hi.calls j
  handled := hi.handled
  app := hi.app
  mark := hi.mark

end Producer

section Consumer

variable {n : ℕ} {x : α}

theorem Inv.read (hi : Inv k h app0 s) (hc : s.cons = .top) :
    Inv k h app0 { s with cons := k.read s.q.size, mark := s.completed } := by
  obtain ⟨m, hr, hm, hle, hev⟩ := ConsPc.read_cases (α := α) k s.q.size
  have hlead : (k.read s.q.size : ConsPc α).lead = 0 := by
    rcases hr with hr | hr <;> rw [hr] <;> rfl
  have hhold : (k.read s.q.size : ConsPc α).holdsLock = false := by
    rcases hr with hr | hr <;> rw [hr] <;> rfl
  have hhand : (k.read s.q.size : ConsPc α).inHand = [] := by
    rcases hr with hr | hr <;> rw [hr] <;> rfl
  have hcount := hi.count
  simp only [hc, ConsPc.lead] at hcount
  exact {
    fault := hi.fault
    locked := hi.locked
    owner := fun t => by
      rw [← hi.owner t]
      cases t with
      | consumer =>
        show (k.read s.q.size : ConsPc α).holdsLock = true ↔ s.cons.holdsLock = true
        rw [hhold, hc]
        rfl
      | producer j => rfl
    count := by simpa [hlead] using hcount
    pushedCount := hi.pushedCount
    budget := by simp only [hlead, hm]; omega
    fifo := hi.fifo
    calls := hi.calls
    handled := by
      have := hi.handled
      simp only [hc, ConsPc.inHand, List.append_nil] at this
      show s.handled ++ (k.read s.q.size : ConsPc α).inHand = s.popped
      rw [hhand, List.append_nil, this]
    app := hi.app
    mark := fun hk => by simp only [hm, hev hk]; omega }

/-- The loop test finds no pop left: the event loop's pass ends, and the background thread reads
`size_` again. -/
theorem Inv.loopEnd (hi : Inv k h app0 s) (hc : s.cons = .loop 0) :
    Inv k h app0 { s with cons := .top } where
  fault := hi.fault
  locked := hi.locked
  owner t := by
    rw [← hi.owner t]
    cases t with
    | consumer => simp [holds, hc, ConsPc.holdsLock]
    | producer j => rfl
  count := by simpa [ConsPc.lead, hc] using hi.count
  pushedCount := hi.pushedCount
  budget := by simp [ConsPc.pending, ConsPc.lead]
  fifo := hi.fifo
  calls := hi.calls
  handled := by simpa [ConsPc.inHand, hc] using hi.handled
  app := hi.app
  mark hk := by simpa [ConsPc.pending, hc] using hi.mark hk

theorem Inv.loopNext (hi : Inv k h app0 s) (hc : s.cons = .loop (n + 1)) :
    Inv k h app0 { s with cons := .pop n .lock } where
  fault := hi.fault
  locked := hi.locked
  owner t := by
    rw [← hi.owner t]
    cases t with
    | consumer => simp [holds, hc, ConsPc.holdsLock, PopPc.holdsLock]
    | producer j => rfl
  count := by simpa [ConsPc.lead, hc] using hi.count
  pushedCount := hi.pushedCount
  budget := by simpa [ConsPc.pending, ConsPc.lead, hc] using hi.budget
  fifo := hi.fifo
  calls := hi.calls
  handled := by simpa [ConsPc.inHand, hc] using hi.handled
  app := hi.app
  mark hk := by simpa [ConsPc.pending, hc] using hi.mark hk

theorem Inv.popLock (hi : Inv k h app0 s) (hc : s.cons = .pop n .lock)
    (hl : s.q.locked = false) :
    Inv k h app0 { s with
      q := { s.q with locked := true }
      cons := .pop n .front
      owner := some .consumer } where
  fault := hi.fault
  locked := rfl
  owner t := by
    have hno := hi.holds_eq_false hl
    cases t with
    | consumer => simp [holds, ConsPc.holdsLock, PopPc.holdsLock]
    | producer j => simpa [holds] using hno (.producer j)
  count := by simpa [ConsPc.lead, hc] using hi.count
  pushedCount := by
    show s.pushed.length = s.completed + _
    rw [hi.pushedCount, lag_of_owner_none (hi.owner_eq_none hl)]
    simp [lag]
  budget := by simpa [ConsPc.pending, ConsPc.lead, hc] using hi.budget
  fifo := hi.fifo
  calls := hi.calls
  handled := by simpa [ConsPc.inHand, hc] using hi.handled
  app := hi.app
  mark hk := by simpa [ConsPc.pending, hc] using hi.mark hk

theorem Inv.pending_le_length (hi : Inv k h app0 s) (hc : s.cons = .pop n .front) :
    n + 1 ≤ s.q.queue.length := by
  have hsize := hi.size_eq
  have hbudget := hi.budget
  have ho : s.owner = some .consumer := (hi.owner .consumer).1 (by simp [holds, hc, ConsPc.holdsLock, PopPc.holdsLock])
  rw [lag_of_owner_ne fun j => by rw [ho]; simp] at hsize
  simp only [ConsPc.lead, ConsPc.pending, hc] at hsize hbudget
  omega

theorem Inv.popFront (hi : Inv k h app0 s) (hc : s.cons = .pop n .front) {rest : List α}
    (hq : s.q.queue = x :: rest) :
    Inv k h app0 { s with
      q := { s.q with queue := rest }
      cons := .pop n (.size x)
      popped := s.popped ++ [x] } where
  fault := hi.fault
  locked := hi.locked
  owner t := by
    rw [← hi.owner t]
    cases t with
    | consumer => simp [holds, hc, ConsPc.holdsLock, PopPc.holdsLock]
    | producer j => rfl
  count := by
    have := hi.count
    simp only [ConsPc.lead, hc] at this
    simp only [ConsPc.lead, List.length_append, List.length_singleton]
    omega
  pushedCount := hi.pushedCount
  budget := by
    have := hi.budget
    simp only [ConsPc.pending, ConsPc.lead, hc] at this
    simp only [ConsPc.pending, ConsPc.lead]
    omega
  fifo := by simp [← hi.fifo, hq]
  calls := hi.calls
  handled := by
    have := hi.handled
    simp only [ConsPc.inHand, hc, List.append_nil] at this
    simp [ConsPc.inHand, this]
  app := hi.app
  mark hk := by
    have := hi.mark hk
    simp only [ConsPc.pending, hc] at this
    simp only [ConsPc.pending, List.length_append, List.length_singleton]
    omega

theorem Inv.size_pos (hi : Inv k h app0 s) (hc : s.cons = .pop n (.size x)) : 0 < s.q.size := by
  have := hi.budget
  simp only [ConsPc.pending, ConsPc.lead, hc] at this
  omega

theorem Inv.popSize (hi : Inv k h app0 s) (hc : s.cons = .pop n (.size x)) :
    Inv k h app0 { s with
      q := { s.q with size := s.q.size - 1 }
      cons := .pop n (.unlock x) } where
  fault := hi.fault
  locked := hi.locked
  owner t := by
    rw [← hi.owner t]
    cases t with
    | consumer => simp [holds, hc, ConsPc.holdsLock, PopPc.holdsLock]
    | producer j => rfl
  count := by
    have := hi.count
    have hpos := hi.size_pos hc
    simp only [ConsPc.lead, hc] at this
    simp only [ConsPc.lead]
    omega
  pushedCount := hi.pushedCount
  budget := by
    have := hi.budget
    simp only [ConsPc.pending, ConsPc.lead, hc] at this
    simp only [ConsPc.pending, ConsPc.lead]
    omega
  fifo := hi.fifo
  calls := hi.calls
  handled := by simpa [ConsPc.inHand, hc] using hi.handled
  app := hi.app
  mark hk := by simpa [ConsPc.pending, hc] using hi.mark hk

theorem Inv.popUnlock (hi : Inv k h app0 s) (hc : s.cons = .pop n (.unlock x)) :
    Inv k h app0 { s with
      q := { s.q with locked := false }
      cons := .handle n x
      owner := none } where
  fault := hi.fault
  locked := rfl
  owner t := by
    have ho : s.owner = some .consumer :=
      (hi.owner .consumer).1 (by simp [holds, hc, ConsPc.holdsLock, PopPc.holdsLock])
    cases t with
    | consumer => simp [holds, ConsPc.holdsLock]
    | producer j =>
      have := hi.owner (.producer j)
      simp only [ho, Option.some.injEq, reduceCtorEq, iff_false] at this
      simpa [holds] using this
  count := by simpa [ConsPc.lead, hc] using hi.count
  pushedCount := by
    have ho : s.owner = some .consumer :=
      (hi.owner .consumer).1 (by simp [holds, hc, ConsPc.holdsLock, PopPc.holdsLock])
    have hlag : s.lag = 0 := lag_of_owner_ne fun j => by rw [ho]; simp
    have := hi.pushedCount
    simp [lag]
    omega
  budget := by simpa [ConsPc.pending, ConsPc.lead, hc] using hi.budget
  fifo := hi.fifo
  calls := hi.calls
  handled := by simpa [ConsPc.inHand, hc] using hi.handled
  app := hi.app
  mark hk := by simpa [ConsPc.pending, hc] using hi.mark hk

theorem Inv.handle (hi : Inv k h app0 s) (hc : s.cons = .handle n x) :
    Inv k h app0 { s with
      cons := .loop n
      app := h s.app x
      handled := s.handled ++ [x] } where
  fault := hi.fault
  locked := hi.locked
  owner t := by
    rw [← hi.owner t]
    cases t with
    | consumer => simp [holds, hc, ConsPc.holdsLock]
    | producer j => rfl
  count := by simpa [ConsPc.lead, hc] using hi.count
  pushedCount := hi.pushedCount
  budget := by simpa [ConsPc.pending, ConsPc.lead, hc] using hi.budget
  fifo := hi.fifo
  calls := hi.calls
  handled := by simpa [ConsPc.inHand, hc] using hi.handled
  app := by simp [hi.app]
  mark hk := by simpa [ConsPc.pending, hc] using hi.mark hk

end Consumer

theorem Inv.init : Inv k h app0 (init app0 : BgSys ι α σ) where
  fault := rfl
  locked := rfl
  owner t := by cases t <;> simp [holds, BgSys.init, ConsPc.holdsLock]
  count := rfl
  pushedCount := rfl
  budget := le_rfl
  fifo := rfl
  calls _ := rfl
  handled := rfl
  app := rfl
  mark _ := rfl

variable {t : BgSys ι α σ}

/-- A statement of a producer keeps the invariant. -/
theorem Inv.producerStep (hi : Inv k h app0 s) {i : ι} (hs : s.producerStep i = some t) :
    Inv k h app0 t := by
  unfold BgSys.producerStep at hs
  rcases hp : s.prod i with _ | pc
  · simp [hp] at hs
  · simp only [hp] at hs
    cases pc with
    | lock x =>
      cases hl : s.q.locked
      · simp only [pushStep, hl, Bool.false_eq_true, if_false, Option.map_some,
          Option.some.injEq, notePush] at hs
        subst hs
        exact hi.pushLock hp hl
      · simp [pushStep, hl] at hs
    | push x =>
      simp only [pushStep, Option.map_some, Option.some.injEq, notePush] at hs
      subst hs
      exact hi.pushPush hp
    | size =>
      simp only [pushStep, Option.map_some, Option.some.injEq, notePush] at hs
      subst hs
      exact hi.pushSize hp
    | unlock =>
      simp only [pushStep, Option.map_some, Option.some.injEq, notePush] at hs
      subst hs
      exact hi.pushUnlock hp

/-- A statement of the consumer keeps the invariant; in particular `front ()` finds an item and
`size_--` finds `size_` above 0, so the fault branches are never taken. -/
theorem Inv.consumerStep (hi : Inv k h app0 s) (hs : s.consumerStep k h = some t) :
    Inv k h app0 t := by
  unfold BgSys.consumerStep at hs
  rcases hc : s.cons with _ | _ | ⟨n, pc⟩ | ⟨n, x⟩
  · simp only [hc, Option.some.injEq] at hs
    subst hs
    exact hi.read hc
  · rename_i m
    cases m with
    | zero =>
      simp only [hc, Option.some.injEq] at hs
      subst hs
      exact hi.loopEnd hc
    | succ n =>
      simp only [hc, Option.some.injEq] at hs
      subst hs
      exact hi.loopNext hc
  · simp only [hc] at hs
    cases pc with
    | lock =>
      cases hl : s.q.locked
      · simp only [popStep, hl, Bool.false_eq_true, if_false, Option.map_some,
          Option.some.injEq, notePop] at hs
        subst hs
        exact hi.popLock hc hl
      · simp [popStep, hl] at hs
    | front =>
      obtain ⟨x, rest, hq⟩ : ∃ x rest, s.q.queue = x :: rest :=
        List.exists_cons_of_length_pos (by have := hi.pending_le_length hc; omega)
      simp only [popStep, hq, Option.map_some, Option.some.injEq, notePop] at hs
      subst hs
      exact hi.popFront hc hq
    | size x =>
      simp only [popStep, Nat.pos_iff_ne_zero.1 (hi.size_pos hc), if_false, Option.map_some,
        Option.some.injEq, notePop] at hs
      subst hs
      exact hi.popSize hc
    | unlock x =>
      simp only [popStep, Option.map_some, Option.some.injEq, notePop] at hs
      subst hs
      exact hi.popUnlock hc
  · simp only [hc, Option.some.injEq] at hs
    subst hs
    exact hi.handle hc

theorem Inv.step (hi : Inv k h app0 s) {a : BgAct ι α} (hs : s.step k h a = some t) :
    Inv k h app0 t := by
  cases a with
  | call i x =>
    simp only [BgSys.step] at hs
    split_ifs at hs with hp
    simp only [Option.some.injEq] at hs
    subst hs
    exact hi.call (Option.isNone_iff_eq_none.1 hp)
  | producer i => exact hi.producerStep hs
  | consumer => exact hi.consumerStep hs

theorem inv_of_reachable (hr : Reachable (step k h) (init app0) s) : Inv k h app0 s :=
  Reachable.induct (Inv k h app0) Inv.init (fun _ _ _ _ hi hs => hi.step hs) hr

end Inv

/-- Two producers and the event loop. Producer 0 pushes 5; producer 1 pushes 7, and the event
loop reads `size_` between its `queue_.push` and its `size_++`, so that its pass hands on 5 only
and 7 waits for the next pass. -/
def lateCountRun : List (BgAct (Fin 2) ℕ) :=
  [.call 0 5, .producer 0, .producer 0, .producer 0, .producer 0, .call 1 7, .producer 1,
    .producer 1, .consumer, .producer 1, .producer 1, .consumer, .consumer, .consumer, .consumer,
    .consumer, .consumer]

theorem lateCountRun_reachable : ∃ s : BgSys (Fin 2) ℕ (List ℕ),
    Reachable (step .eventLoop fun l x => l ++ [x]) (init []) s ∧
      s.handled = [5] ∧ s.q.queue = [7] ∧ s.cons = .loop 0 ∧ s.mark = 1 :=
  Reachable.exists_of_run lateCountRun (by decide)

section Queue

variable {k : Consumer} {h : σ → α → σ} {app0 : σ} {s : BgSys ι α σ}

/-- Nothing undefined happens: no `front ()` of an empty queue and no `size_--` at 0. At most one
thread is at a statement it runs with the lock held; while the lock is free `size_` is the
length of the queue, and a read of `size_` without the lock is within one of it. -/
theorem bg_queue_never_faults (hr : Reachable (step k h) (init app0) s) :
    s.fault = false ∧ (∀ t t', s.holds t = true → s.holds t' = true → t = t') ∧
      (s.q.locked = false → s.q.size = s.q.queue.length) ∧
      s.q.size ≤ s.q.queue.length + 1 ∧ s.q.queue.length ≤ s.q.size + 1 := by
  have hi := inv_of_reachable hr
  have hsize := hi.size_eq
  have hlag := lag_le_one s
  have hlead := ConsPc.lead_le_one s.cons
  refine ⟨hi.fault, fun t t' ht ht' => ?_, fun hl => ?_, by omega, by omega⟩
  · have h1 := (hi.owner t).1 ht
    rw [(hi.owner t').1 ht', Option.some.injEq] at h1
    exact h1.symm
  · have hno := hi.holds_eq_false hl .consumer
    rw [lag_of_owner_none (hi.owner_eq_none hl), ConsPc.lead_eq_zero _ hno] at hsize
    omega

theorem bg_queue_never_faults_late : ∃ s : BgSys (Fin 2) ℕ (List ℕ),
    Reachable (step .eventLoop fun l x => l ++ [x]) (init []) s ∧ s.q.queue = [7] ∧
      s.fault = false ∧ s.q.size ≤ s.q.queue.length + 1 := by
  obtain ⟨s, hr, -, hq, -⟩ := lateCountRun_reachable
  obtain ⟨hf, -, -, hle, -⟩ := bg_queue_never_faults hr
  exact ⟨s, hr, hq, hf, hle⟩

/-- Each item passed to `unlocked_push` is handed on at most once, in push order, and none is
lost: the items handed on, then the one in the consumer's hands, then the queue, are the items
pushed, in the order the pushes took the lock; each producer pushed the items of its calls in
order, all but the one of a call not yet past `queue_.push`; and what the consumer's handing on
has done is `h` applied to the items handed on, one after another. -/
theorem bg_queue_hands_on_each_push_once_in_order (hr : Reachable (step k h) (init app0) s) :
    s.handled ++ s.cons.inHand ++ s.q.queue = s.pushed.map Prod.snd ∧
      (∀ i, s.pushedBy i ++ unpushed (s.prod i) = s.calls i) ∧
      s.app = s.handled.foldl h app0 := by
  have hi := inv_of_reachable hr
  exact ⟨by rw [hi.handled, hi.fifo], hi.calls, hi.app⟩

theorem bg_queue_hands_on_each_push_once_in_order_late : ∃ s : BgSys (Fin 2) ℕ (List ℕ),
    Reachable (step .eventLoop fun l x => l ++ [x]) (init []) s ∧ s.handled = [5] ∧
      s.app = s.handled.foldl (fun l x => l ++ [x]) [] := by
  obtain ⟨s, hr, hh, -⟩ := lateCountRun_reachable
  exact ⟨s, hr, hh, (bg_queue_hands_on_each_push_once_in_order hr).2.2⟩

/-- At its read of `size_` the consumer finds the pushes past `size_++` that it has not handed
on. So the event loop, whose pass pops as many items as it read, has at the end of the pass
handed on every push counted at its read (`mark`); and a background thread that reads 0 has
handed on every push past `size_++`. -/
theorem bg_queue_drains_counted_pushes (hr : Reachable (step k h) (init app0) s) :
    (s.cons = .top → s.q.size + s.handled.length = s.completed) ∧
      (k = .eventLoop → s.cons = .loop 0 → s.handled.length = s.mark) := by
  have hi := inv_of_reachable hr
  have hcount := hi.count
  have hhand := hi.handled
  refine ⟨fun hc => ?_, fun hk hc => ?_⟩
  · simp only [hc, ConsPc.lead, ConsPc.inHand, List.append_nil] at hcount hhand
    rw [hhand]
    exact hcount
  · have hmark := hi.mark hk
    simp only [hc, ConsPc.pending, ConsPc.inHand, List.append_nil] at hmark hhand
    rw [hhand]
    exact hmark

theorem bg_queue_drains_counted_pushes_late : ∃ s : BgSys (Fin 2) ℕ (List ℕ),
    Reachable (step .eventLoop fun l x => l ++ [x]) (init []) s ∧ s.cons = .loop 0 ∧
      s.mark = 1 ∧ s.handled.length = s.mark := by
  obtain ⟨s, hr, -, -, hc, hm⟩ := lateCountRun_reachable
  exact ⟨s, hr, hc, hm, (bg_queue_drains_counted_pushes hr).2 rfl hc⟩

end Queue

end BgSys

end ERpc
