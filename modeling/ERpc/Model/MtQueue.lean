import Mathlib

/-!
# The multi-threaded queue and its consumers

`MtQueue` (`util/mt_queue.h`) is a `std::queue` behind a `std::mutex`, with a counter
`volatile size_t size_` that threads read without the lock. `unlocked_push` takes the lock, pushes,
raises `size_` after a compiler barrier and releases the lock; `unlocked_pop` takes the lock,
reads and pops the front, lowers `size_` and releases the lock.

The dispatch thread of an Rpc and the background threads of its Nexus pass work to each other
through such queues, and each queue has one consumer. The event loop empties the Rpc's queues of
`enqueue_request` and `enqueue_response` calls made from other threads
(`process_bg_queues_enqueue_request_st`, `process_bg_queues_enqueue_response_st`, `rpc_queues.cc`):
it reads `size_` once and pops that many items. A background thread empties its queue of work
items (`Nexus::bg_thread_func`, `nexus_bg_thread.cc`): while `size_` is not 0 it pops an item.

A call is a sequence of statements, each a step of the thread that runs it (`pushStep`,
`popStep`), and the steps of different threads interleave (`ERpc.System.BgQueues`). The queue
itself is only touched under the lock, so `front ()` and `pop ()` are one step; `size_` is read
outside it, so `size_++` and `size_--` are steps of their own. `lock ()` of a held lock waits,
which is a step that is not enabled. `front ()` of an empty queue is undefined, and `size_--` at 0
would wrap around: both are a fault here. `size_++` would wrap only with `2 ^ 64` items queued,
so `size_` is a number.
-/

namespace ERpc

/-- `MtQueue<T>`: `queue_`, `size_`, and whether `lock_` is held. -/
structure MtQueue (α : Type) where
  queue : List α
  size : ℕ
  locked : Bool
  deriving DecidableEq, Repr

namespace MtQueue

variable {α : Type}

/-- `MtQueue ()`: an empty queue, `size_` 0, the lock free. -/
def init : MtQueue α := ⟨[], 0, false⟩

/-- The statement a thread runs next in a call of `unlocked_push (t)`. -/
inductive PushPc (α : Type)
  | lock (x : α)
  | push (x : α)
  | size
  | unlock
  deriving DecidableEq, Repr

/-- The statement a thread runs next in a call of `unlocked_pop ()`; `x` is the popped item. -/
inductive PopPc (α : Type)
  | lock
  | front
  | size (x : α)
  | unlock (x : α)
  deriving DecidableEq, Repr

/-- Where a statement of `unlocked_pop` leads: the next one, the return of the popped item, or
undefined behaviour. -/
inductive PopNext (α : Type)
  | cont (pc : PopPc α)
  | ret (x : α)
  | fault
  deriving DecidableEq, Repr

/-- `unlocked_push (t)` starts at `lock ()`. -/
def unlockedPush (x : α) : PushPc α := .lock x

/-- `unlocked_pop ()` starts at `lock ()`. -/
def unlockedPop : PopPc α := .lock

/-- One statement of `unlocked_push`: the queue after it, and the next statement, `none` when
the call returns. -/
def pushStep (q : MtQueue α) : PushPc α → Option (MtQueue α × Option (PushPc α))
  | .lock x => if q.locked then none else some ({ q with locked := true }, some (.push x))
  | .push x => some ({ q with queue := q.queue ++ [x] }, some .size)
  | .size => some ({ q with size := q.size + 1 }, some .unlock)
  | .unlock => some ({ q with locked := false }, none)

/-- One statement of `unlocked_pop`. -/
def popStep (q : MtQueue α) : PopPc α → Option (MtQueue α × PopNext α)
  | .lock => if q.locked then none else some ({ q with locked := true }, .cont .front)
  | .front =>
    match q.queue with
    | [] => some (q, .fault)
    | x :: rest => some ({ q with queue := rest }, .cont (.size x))
  | .size x =>
    if q.size = 0 then some (q, .fault)
    else some ({ q with size := q.size - 1 }, .cont (.unlock x))
  | .unlock x => some ({ q with locked := false }, .ret x)

/-- The statements run with the lock held. -/
def PushPc.holdsLock : PushPc α → Bool
  | .lock _ => false
  | _ => true

def PopPc.holdsLock : PopPc α → Bool
  | .lock => false
  | _ => true

end MtQueue

/-- The consumer of a queue: the event loop, in `process_bg_queues_enqueue_request_st` or
`process_bg_queues_enqueue_response_st`, or the loop of `Nexus::bg_thread_func`. -/
inductive Consumer
  | eventLoop
  | bgThread
  deriving DecidableEq, Repr

/-- Where the consumer is: at its read of `size_`, at its loop test with `n` pops left, in the
call of `unlocked_pop` with `n` pops left after it, or about to hand on the popped item `x`: to
`enqueue_request` or `enqueue_response`, or to the request handler or continuation of a work
item. -/
inductive ConsPc (α : Type)
  | top
  | loop (n : ℕ)
  | pop (n : ℕ) (pc : MtQueue.PopPc α)
  | handle (n : ℕ) (x : α)
  deriving DecidableEq, Repr

namespace Consumer

/-- What the consumer does with the value `size` it reads from `size_`. The event loop pops
`cmds_to_process = size_` items. The background thread goes on reading while `size_` is 0, and
otherwise pops one item and reads again; the `if` of its outer loop and the `while` of its inner
loop read `size_` alike, and the model has one read for both. -/
def read {α : Type} : Consumer → ℕ → ConsPc α
  | .eventLoop, size => .loop size
  | .bgThread, size => if size = 0 then .top else .loop 1

end Consumer

end ERpc
