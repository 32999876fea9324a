import DumpLedger.Lib.Run
import DumpLedger.Lib.TableSize
import DumpLedger.Webhooks.Dispatcher

/-!
# The queue of the post-processing

Uploads that wait for their post-processing. A timer drains the queue: it goes over a snapshot
of the pending items and calls the processor for each; an item that failed `maxAttempts` times
is given up.

A drain is not one step: `Control` stands inside the call of `process`, where the processor may
call `enqueue` and `close` itself. A timer fires only when no drain is running.

An item is an object that the map and the snapshot of a drain share, so its attempts live beside
the map, under its ticket: the number of items made before it. `admissions` and `calls` are
history that the code does not read.
-/

namespace DumpLedger

open Lib

/-! ## Configuration -/

/-- The options of the constructor; a number that is not finite passes none of its checks. -/
structure PostProcessingQueueOptions where
  maxPending : Option ℚ
  maxAttempts : Option ℚ
  retryDelayMs : Option ℚ

/-- What the constructor accepts. -/
structure PostProcessingQueue where
  maxPending : ℕ+
  maxAttempts : ℕ+
  retryDelayMs : ℚ
  retryDelayMs_nonneg : 0 ≤ retryDelayMs

/-- The constructor. -/
def PostProcessingQueue.of (options : PostProcessingQueueOptions) :
    Except Thrown PostProcessingQueue := do
  let maxPending ← positiveInteger (options.maxPending.getD 128) "maxPending"
  let maxAttempts ← positiveInteger (options.maxAttempts.getD 5) "maxAttempts"
  let retryDelayMs := options.retryDelayMs.getD 5000
  if retryDelayMs_nonneg : 0 ≤ retryDelayMs then
    return { maxPending, maxAttempts, retryDelayMs, retryDelayMs_nonneg }
  else throw (.rangeError "retryDelayMs must not be negative")

/-! ## The state -/

/-- An entry of the map: the dump and which item object it has. -/
structure PendingEntry where
  dumpId : String
  ticket : Nat
  deriving DecidableEq

instance PendingEntry.keyed : Keyed PendingEntry String := ⟨PendingEntry.dumpId⟩

@[simp] theorem PendingEntry.key_eq (e : PendingEntry) : key e = e.dumpId := rfl

/-- A timer that was scheduled and neither fired nor was cancelled. -/
structure ArmedTimer where
  handle : Nat
  delayMs : ℚ
  deriving DecidableEq

/-- A call of `process` that is over. -/
structure ProcessCall where
  dumpId : String
  ticket : Nat
  succeeded : Bool
  deriving DecidableEq

namespace PostProcessingQueue

inductive Control
  | idle
  /-- `process` of this entry is running, the others of the snapshot come after it. -/
  | processing (entry : PendingEntry) (rest : List PendingEntry)
  deriving DecidableEq

structure State where
  pending : Table PendingEntry
  /-- `item.attempts` of every item. -/
  attempts : Nat → Nat
  timer : Option Nat
  closed : Bool
  exhausted : Nat
  totalRetries : Nat
  control : Control
  /-- The timers of the environment. -/
  armed : List ArmedTimer
  scheduled : Nat
  /-- The dumps of the items made so far, an item's ticket being its place. -/
  admissions : List String
  calls : List ProcessCall

def State.initial : State where
  pending := Table.empty
  attempts := fun _ => 0
  timer := none
  closed := false
  exhausted := 0
  totalRetries := 0
  control := .idle
  armed := []
  scheduled := 0
  admissions := []
  calls := []

inductive Event
  | enqueue (dumpId : String)
  | close
  | fire (handle : Nat)
  /-- The call of `process` returns. -/
  | succeed
  /-- The call of `process` throws. -/
  | fail

/-! ## The operations -/

/-- `{ attempts: 0 }` under a new dump id. -/
def State.admitted (s : State) (dumpId : String) (h : s.pending.find? dumpId = none) : State :=
  let entry : PendingEntry := ⟨dumpId, s.admissions.length⟩
  { s with
    pending := s.pending.insert entry h
    attempts := Function.update s.attempts entry.ticket 0
    admissions := s.admissions ++ [dumpId] }

def ensureTimer (queue : PostProcessingQueue) (s : State) : State :=
  if s.closed = true ∨ s.timer ≠ none ∨ s.pending.size = 0 then s
  else
    { s with
      timer := some s.scheduled
      armed := s.armed ++ [⟨s.scheduled, queue.retryDelayMs⟩]
      scheduled := s.scheduled + 1 }

def enqueue (queue : PostProcessingQueue) (dumpId : String) (s : State) : Bool × State :=
  if s.closed = true then (false, s)
  else if h : s.pending.find? dumpId = none then
    if queue.maxPending ≤ s.pending.size then (false, s)
    else (true, queue.ensureTimer (s.admitted dumpId h))
  else (true, s)

structure Snapshot where
  pending : Nat
  exhausted : Nat
  totalRetries : Nat

def State.snapshot (s : State) : Snapshot :=
  { pending := s.pending.size, exhausted := s.exhausted, totalRetries := s.totalRetries }

def State.close (s : State) : State :=
  if s.closed = true then s
  else
    { s with
      closed := true
      armed := s.armed.filter fun t => s.timer ≠ some t.handle
      timer := none
      pending := Table.empty }

/-- The loop of a drain, from a call of `process` to the next or to the end. -/
def advance (queue : PostProcessingQueue) (s : State) : List PendingEntry → State
  | [] => queue.ensureTimer { s with control := .idle }
  | entry :: rest => { s with control := .processing entry rest }

def drainOnce (queue : PostProcessingQueue) (s : State) : State :=
  if s.closed = true then s else queue.advance s s.pending.rows

/-- The callback of a timer. -/
def fire (queue : PostProcessingQueue) (handle : Nat) (s : State) : State :=
  queue.drainOnce
    { s with armed := s.armed.filter fun t => t.handle ≠ handle, timer := none }

def State.deletePending (s : State) (dumpId : String) : State :=
  { s with pending := s.pending.delete fun e => decide (e.dumpId = dumpId) }

/-- What follows a call of `process` that returned. -/
def State.succeeded (s : State) (entry : PendingEntry) : State :=
  { s.deletePending entry.dumpId with calls := s.calls ++ [⟨entry.dumpId, entry.ticket, true⟩] }

/-- `item.attempts += 1; this.#totalRetries += 1`. -/
def State.retried (s : State) (entry : PendingEntry) : State :=
  { s with
    attempts := Function.update s.attempts entry.ticket (s.attempts entry.ticket + 1)
    totalRetries := s.totalRetries + 1
    calls := s.calls ++ [⟨entry.dumpId, entry.ticket, false⟩] }

/-- The `catch` block of a drain. -/
def failed (queue : PostProcessingQueue) (s : State) (entry : PendingEntry) : State :=
  let s := s.retried entry
  if queue.maxAttempts ≤ s.attempts entry.ticket then
    { s.deletePending entry.dumpId with exhausted := s.exhausted + 1 }
  else s

/-- An event the environment cannot bring about here changes nothing. -/
def step (queue : PostProcessingQueue) (s : State) : Event → State
  | .enqueue dumpId => (queue.enqueue dumpId s).2
  | .close => s.close
  | .fire handle =>
    match s.control with
    | .idle => if handle ∈ s.armed.map ArmedTimer.handle then queue.fire handle s else s
    | .processing _ _ => s
  | .succeed =>
    match s.control with
    | .idle => s
    | .processing entry rest => queue.advance (s.succeeded entry) rest
  | .fail =>
    match s.control with
    | .idle => s
    | .processing entry rest => queue.advance (queue.failed s entry) rest

/-- The state after a run. -/
def after (queue : PostProcessingQueue) (events : List Event) : State :=
  run queue.step State.initial events

end PostProcessingQueue

end DumpLedger
