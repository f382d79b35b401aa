import Mathlib.Algebra.Group.Nat.Defs
import Mathlib.Data.List.Basic

/-!
# The queue of the execution worker

`Dispatch` and `ExecutionWorker` of `src/adapters/supervisor.rs`: a channel of bounded size, and a
counter beside it that a call reserves before it sends and that the worker gives back after it
received. One event is one atomic step of one call or of the worker.
-/

set_option autoImplicit false

namespace VaultAccess.Model.ExecutionQueue

/-- SRCLINE: supervisor.rs:343 -/
def EXECUTION_QUEUE_CAPACITY : ℕ := 8

/-- Where a call of `dispatch` is. -/
inductive Stage where
  | loading
  /-- In the loop, with the value that was read. -/
  | trying (queued : ℕ)
  | sending
  /-- Not sent, and not given back yet. -/
  | releasing
  | returned (ok : Bool)
  deriving DecidableEq, Repr

/-- A call of `dispatch`. -/
structure Call where
  id : String
  stage : Stage
  deriving DecidableEq, Repr

/-- Where the worker is. -/
inductive Worker where
  | receiving
  /-- Received, and not counted yet. -/
  | received (id : String)
  | executing (id : String)
  | finished
  deriving DecidableEq, Repr

/-- The counter, the channel, the worker and the calls. `sent`, `received`, `full` and
`underflowed` are histories. -/
structure Queue where
  queued : ℕ
  channel : List String
  worker : Worker
  calls : List Call
  /-- The calls whose id the channel took, in order. -/
  sent : List (ℕ × String)
  received : List String
  /-- An id was refused because the channel was full. -/
  full : Bool
  /-- The counter was taken below zero. -/
  underflowed : Bool
  deriving DecidableEq, Repr

/-- SRCLINE: supervisor.rs:395-417 -/
def Queue.start : Queue := ⟨0, [], .receiving, [], [], [], false, false⟩

/-- `fetch_sub(1)` of a counter of 64 bits. -/
def Queue.fetchSub (q : Queue) : Queue :=
  if q.queued = 0 then { q with queued := 2 ^ 64 - 1, underflowed := true }
  else { q with queued := q.queued - 1 }

/-- A call goes on to another stage. -/
def Queue.setStage (q : Queue) (n : ℕ) (call : Call) (stage : Stage) : Queue :=
  { q with calls := q.calls.set n { call with stage } }

/-- `try_send`: refused if the receiver is gone or the channel is full.
SRCLINE: supervisor.rs:387-390 -/
def Queue.trySend (q : Queue) (n : ℕ) (call : Call) : Queue :=
  if q.worker = .finished then q.setStage n call .releasing
  else if q.channel.length < EXECUTION_QUEUE_CAPACITY then
    { q.setStage n call (.returned true) with
      channel := q.channel ++ [call.id], sent := q.sent ++ [(n, call.id)] }
  else { q.setStage n call .releasing with full := true }

/-- One step of a call. A weak exchange may fail although the value is the expected one.
SRCLINE: supervisor.rs:371-393 -/
def Queue.advance (q : Queue) (n : ℕ) (call : Call) (spurious : Bool) : Queue :=
  match call.stage with
  | .loading => q.setStage n call (.trying q.queued)
  | .trying queued =>
    if EXECUTION_QUEUE_CAPACITY ≤ queued then q.setStage n call (.returned false)
    else if q.queued = queued && !spurious then
      { q.setStage n call .sending with queued := queued + 1 }
    else q.setStage n call (.trying q.queued)
  | .sending => q.trySend n call
  | .releasing => (q.setStage n call (.returned false)).fetchSub
  | .returned _ => q

/-- One step of the worker. It waits while the channel is empty.
SRCLINE: supervisor.rs:408-416 -/
def Queue.work (q : Queue) : Queue :=
  match q.worker with
  | .receiving => match q.channel with
    | [] => q
    | id :: rest => { q with channel := rest, worker := .received id, received := q.received ++ [id] }
  | .received id => { q.fetchSub with worker := .executing id }
  | .executing _ => { q with worker := .receiving }
  | .finished => q

/-- The worker ends: `recv` finds no sender left, or an execution panicked. What is in the channel
is lost with the receiver. -/
def Queue.finish (q : Queue) : Queue :=
  match q.worker with
  | .receiving => if q.channel.isEmpty then { q with worker := .finished } else q
  | .executing _ => { q with worker := .finished, channel := [] }
  | _ => q

/-- One event. -/
inductive Event where
  | dispatch (id : String)
  | advance (call : ℕ) (spurious : Bool)
  | work
  | finish

def Queue.step (q : Queue) : Event → Queue
  | .dispatch id => { q with calls := q.calls ++ [⟨id, .loading⟩] }
  | .advance n spurious => match q.calls[n]? with
    | some call => q.advance n call spurious
    | none => q
  | .work => q.work
  | .finish => q.finish

/-- A run of the worker and any number of calls. -/
def run (events : List Event) : Queue := events.foldl Queue.step .start

end VaultAccess.Model.ExecutionQueue
