import TopicPublisher.Admission.Control
import TopicPublisher.Batch.Batcher
import TopicPublisher.Counters
import TopicPublisher.Log
import TopicPublisher.Retry.Policy
import TopicPublisher.Retry.Result
import TopicPublisher.Service.Basic

/-!
The state of a publisher's engine. Publish calls are admitted and put entries into a queue; the
batching task takes them from there into the open batch; every closed batch is sent by a task
of its own; shutdown calls wait for all of these to end. Tasks that can go on stand in the order
in which they became ready, and everything that happens is entered into a history.
-/

namespace TopicPublisher

/-- A configuration that was found valid. -/
structure Config where
  topic : Topic
  thresholds : Thresholds := .balanced
  ceilings : Ceilings := {}
  retries : RetryPolicy := {}
deriving DecidableEq, Repr, Inhabited

/-- The tasks of an engine: batching, the sending of one batch, a publish call that waits for
admission, and a shutdown call. -/
inductive Task where
  | batching
  | sending (batch : Nat)
  | publishing (call : Nat)
  | shutdown (call : Nat)
deriving DecidableEq, Repr, Inhabited

/-- Where a task that sends a batch stands: about to make an attempt, in a call, or in the pause
after a failure. A call ends at `limit` if it has no answer before or then. -/
inductive SendPhase (τ : Type) where
  | ready
  | calling (timeout : Duration) (limit : Nat) (answerAt : Option Nat) (call : τ)
  | pausing (wake : Nat) (error : TransportError)

def SendPhase.wake? {τ : Type} : SendPhase τ → Option Nat
  | .ready => none
  | .calling _ limit answerAt _ => some (Nat.min limit (answerAt.getD limit))
  | .pausing wake _ => some wake

/-- A batch that is being sent: its number, when its sending began, how many attempts were made,
and since when, counted in alarms, it waits. -/
structure Sending (τ : Type) where
  id : Nat
  batch : Batch
  started : Nat
  attempts : Nat := 0
  phase : SendPhase τ := .ready
  alarm : Nat := 0

/-- Whether the batching task runs, has ended, or was killed by a deadline that cannot be
represented. -/
inductive BatchingLife where
  | running
  | ended
  | killed
deriving DecidableEq, Repr, Inhabited

/-- What can happen in an engine. A call of the service is answered with a reply, or with none
when its timeout ends it. -/
inductive Happening where
  | logged (batch : Option Nat) (event : LogEvent)
  | returned (call : Nat)
  | admitted (entry : Entry)
  | dispatched (batch : Nat) (content : Batch)
  | called (batch attempt : Nat) (messages : List Message)
  | answered (batch attempt : Nat) (reply : Option Reply)
  | sendEnded (batch : Nat) (result : SendResult)
  | released (call : Nat)
  | resolved (call : Nat) (outcome : Outcome)
  | shutdownReturned (call : Nat)

/-- The engine. Its clock reads whole milliseconds, and its history begins with the latest
entry. -/
structure Engine (σ τ : Type) where
  now : Nat := 0
  service : σ
  admission : Admission
  counters : Counters := {}
  clones : Nat := 1
  closing : Bool := false
  blocked : List Entry := []
  queue : Fifo Entry := {}
  batcher : Batcher := {}
  batching : BatchingLife := .running
  batchingAlarm : Nat := 0
  dispatched : Nat := 0
  sends : List (Sending τ) := []
  shutdowns : List (Nat × Nat) := []
  ready : List Task := []
  alarms : Nat := 0
  history : List (Nat × Happening) := []

namespace Engine

variable {σ τ : Type}

/-- The engine of a new publisher: nothing is published, and the batching task waits. -/
def start (c : Config) (service : σ) : Engine σ τ where
  service := service
  admission := .ofCeilings c.ceilings
  history := [(0, .logged none (.publisherStarted c.topic))]

def record (e : Engine σ τ) (h : Happening) : Engine σ τ :=
  { e with history := (e.now, h) :: e.history }

def log (e : Engine σ τ) (event : LogEvent) : Engine σ τ := e.record (.logged none event)

def logSend (e : Engine σ τ) (batch : Nat) (event : LogEvent) : Engine σ τ :=
  e.record (.logged (some batch) event)

def logSendAll (e : Engine σ τ) (batch : Nat) (events : List LogEvent) : Engine σ τ :=
  events.foldl (fun e event => e.logSend batch event) e

/-- Puts a task behind those that are ready, if it is not among them. -/
def wake (e : Engine σ τ) (t : Task) : Engine σ τ :=
  if t ∈ e.ready then e else { e with ready := e.ready ++ [t] }

def wakeAll (e : Engine σ τ) (ts : List Task) : Engine σ τ := ts.foldl wake e

def wakeCalls (e : Engine σ τ) (calls : List Nat) : Engine σ τ :=
  e.wakeAll (calls.map .publishing)

def isDrained (e : Engine σ τ) : Bool :=
  decide (e.batching ≠ .running) && e.sends.isEmpty

def wakeShutdowns (e : Engine σ τ) : Engine σ τ :=
  if e.isDrained then e.wakeAll (e.shutdowns.map fun s => .shutdown s.1) else e

def snapshot (e : Engine σ τ) : Snapshot := ⟨e.counters, e.admission.ledger⟩

def isBlocked (e : Engine σ τ) (call : Nat) : Bool := e.blocked.any (·.id == call)

def isSettled (e : Engine σ τ) : Bool := e.ready.isEmpty

end Engine
end TopicPublisher
