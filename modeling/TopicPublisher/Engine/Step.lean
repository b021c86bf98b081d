import TopicPublisher.Engine.State
import TopicPublisher.Retry.Attempt

/-!
The steps of an engine. Calls of its users take effect at once or wait; each task that is ready
takes one short turn at a time, which ends with the task ready for another turn, waiting, or
ended.
-/

namespace TopicPublisher
namespace Engine

variable {σ τ : Type}

/-! Outcomes and admission -/

def releaseCall (e : Engine σ τ) (call : Nat) : Engine σ τ :=
  let (admission, told) := e.admission.release call
  ({ e with admission := admission }.record (.released call)).wakeCalls told

/-- Ends an admitted message: its reservation is released and its handle gets the outcome. -/
def resolve (e : Engine σ τ) (call : Nat) (outcome : Outcome) : Engine σ τ :=
  (e.releaseCall call).record (.resolved call outcome)

def resolveAll (e : Engine σ τ) (outcomes : List (Nat × Outcome)) : Engine σ τ :=
  outcomes.foldl (fun e (call, outcome) => e.resolve call outcome) e

/-- The publish call returns a handle that has already failed. -/
def refuse (e : Engine σ τ) (call : Nat) (error : PublishError) : Engine σ τ :=
  ((e.log (.messageRejected error)).record (.returned call)).record (.resolved call (.error error))

/-- Hands an entry whose reservation was granted to the batching task. Shutdown may have begun
while the call waited, and the task may have ended. -/
def submit (e : Engine σ τ) (entry : Entry) : Engine σ τ :=
  if e.closing then (e.releaseCall entry.id).refuse entry.id .engineShutdown
  else if e.batching = .running then
    let e := { e with queue := e.queue.push entry }
    ((e.record (.admitted entry)).wake .batching).record (.returned entry.id)
  else (e.resolve entry.id (.error .engineShutdown)).record (.returned entry.id)

def decide (e : Engine σ τ) (entry : Entry) : Decision → Engine σ τ
  | .granted => e.submit entry
  | .waiting => { e with blocked := e.blocked ++ [entry] }
  | .refused error =>
    let e := if error.isRejection then { e with counters := e.counters.countRejection } else e
    e.refuse entry.id error

/-! Calls of the users -/

/-- A publish call: it returns a handle at once, or waits for admission. -/
def publish (e : Engine σ τ) (entry : Entry) : Engine σ τ :=
  if maxBatchBytes < entry.size then
    e.refuse entry.id (.messageTooLarge entry.size maxBatchBytes)
  else if e.closing then e.refuse entry.id .engineShutdown
  else
    let (decision, admission, told) := e.admission.reserve entry.id entry.size
    ({ e with admission := admission }.wakeCalls told).decide entry decision

/-- A publish call that waits is given up. -/
def cancel (e : Engine σ τ) (call : Nat) : Engine σ τ :=
  let (admission, told) := e.admission.cancel call
  { e with
    admission := admission
    blocked := e.blocked.filter (·.id != call)
    ready := e.ready.erase (.publishing call) }.wakeCalls told

def clone (e : Engine σ τ) : Engine σ τ := { e with clones := e.clones + 1 }

/-- One user fewer; with the last one the batching task learns that no entries will come. -/
def dropClone (e : Engine σ τ) : Engine σ τ :=
  let e := { e with clones := e.clones - 1 }
  if e.clones = 0 ∧ e.batching = .running then e.wake .batching else e

/-- A shutdown call: nothing is admitted from now on, and the call waits until all that was
admitted is resolved. -/
def shutdown (e : Engine σ τ) (c : Config) (call : Nat) : Engine σ τ :=
  let e := if e.closing then e else e.log (.shutdownStarted c.topic)
  let e := { e with closing := true }
  let e := if e.batching = .running then e.wake .batching else e
  let (admission, told) := e.admission.close
  let e := { e with admission := admission }.wakeCalls told
  { e with shutdowns := e.shutdowns ++ [(call, e.now)] }.wake (.shutdown call)

/-! Turns of the batching task -/

def dispatch (e : Engine σ τ) (b : Batch) : Engine σ τ :=
  let e := e.logSend e.dispatched (.batchClosed b.size b.bytes)
  let e := e.record (.dispatched e.dispatched b)
  let sending : Sending τ := { id := e.dispatched, batch := b, started := e.now }
  { e with dispatched := e.dispatched + 1, sends := e.sends ++ [sending] }.wake
    (.sending sending.id)

def dispatchAll (e : Engine σ τ) (bs : List Batch) : Engine σ τ := bs.foldl dispatch e

def dropEntries (e : Engine σ τ) (entries : List Entry) : Engine σ τ :=
  e.resolveAll (entries.map fun entry => (entry.id, .error .resultDropped))

/-- The batching task is killed while it adds an entry: that entry, the open batch and all that
is queued are dropped. -/
def killBatching (e : Engine σ τ) (entry : Entry) : Engine σ τ :=
  let lost := e.batcher.current.entries ++ entry :: e.queue.toList
  ({ e with batching := .killed, batcher := {}, queue := {} }.dropEntries lost).wakeShutdowns

/-- Adds an entry that was taken from the queue to the open batch. -/
def addEntry (e : Engine σ τ) (c : Config) (entry : Entry) : Engine σ τ :=
  match e.batcher.add c.thresholds (Clock.instant e.now) entry with
  | .ok (closed, batcher) => { e with batcher := batcher }.dispatchAll closed
  | .error (.tooLarge size) =>
    let error := .messageTooLarge size maxBatchBytes
    (e.resolve entry.id (.error error)).log (.messageRejected error)
  | .error .deadlineOverflow => e.killBatching entry

/-- Adds all that is queued, for as long as the batching task lives. -/
def addQueued (c : Config) : List Entry → Engine σ τ → Engine σ τ
  | [], e => e
  | entry :: rest, e =>
    let e := { e with queue := .ofList rest }.addEntry c entry
    if e.batching = .running then addQueued c rest e else e

/-- The end of the batching task: all that is queued is added and the open batch is closed. -/
def endBatching (e : Engine σ τ) (c : Config) : Engine σ τ :=
  let e := addQueued c e.queue.toList e
  if e.batching = .running then
    let (batch, batcher) := e.batcher.drain
    let e := { e with batcher := batcher, batching := .ended }.dispatchAll batch.toList
    e.wakeShutdowns
  else e

def batchingWake? (e : Engine σ τ) : Option Nat := e.batcher.deadline.map Clock.ceilMillis

/-- One turn of the batching task: shutdown comes first, then the deadline of the open batch,
then the queue. `true` asks for another turn. -/
def batchingTurn (e : Engine σ τ) (c : Config) : Bool × Engine σ τ :=
  if e.batching ≠ .running then (false, e)
  else if e.closing then (false, e.endBatching c)
  else if e.batchingWake?.any (· ≤ e.now) then
    let (batch, batcher) := e.batcher.flushExpired (Clock.instant e.now)
    (true, { e with batcher := batcher }.dispatchAll batch.toList)
  else
    match e.queue.pop? with
    | some (entry, rest) =>
      let e := { e with queue := rest }.addEntry c entry
      (e.batching = .running, e)
    | none =>
      if e.clones = 0 then (false, e.endBatching c)
      else (false, { e with batchingAlarm := e.alarms, alarms := e.alarms + 1 })

/-! Turns of the tasks that send -/

def sending? (e : Engine σ τ) (id : Nat) : Option (Sending τ) := e.sends.find? (·.id == id)

def setSending (e : Engine σ τ) (s : Sending τ) : Engine σ τ :=
  { e with sends := e.sends.map fun t => if t.id == s.id then s else t }

/-- The sending is over: this is logged and counted, and every message of the batch gets its
outcome. -/
def endSending (e : Engine σ τ) (s : Sending τ) (result : SendResult) : Engine σ τ :=
  let e := e.logSendAll s.id (result.log s.attempts s.batch.size)
  let e := { e with counters := result.count s.batch.size e.counters }
  let e := e.record (.sendEnded s.id result)
  let e := e.resolveAll (s.batch.ids.zip (result.outcomes s.batch.size))
  { e with sends := e.sends.filter (·.id != s.id) }.wakeShutdowns

def attempt (e : Engine σ τ) (v : Service σ τ) (c : Config) (s : Sending τ) : Engine σ τ :=
  let number := s.attempts + 1
  let e := { e with counters := e.counters.countAttempt }
  let e := e.logSend s.id (.sendAttempt (.ofNat number) s.batch.size)
  let timeout := c.retries.attemptTimeout s.started e.now number
  let (latency, call, service) := v.start e.service s.batch.messages
  let phase := .calling timeout (Clock.wakeAfter e.now timeout) (latency.map (e.now + ·)) call
  let e := { e with service := service }.record (.called s.id number s.batch.messages)
  e.setSending { s with attempts := number, phase := phase }

def conclude (e : Engine σ τ) (c : Config) (s : Sending τ) : Verdict → Bool × Engine σ τ
  | .final result => (false, e.endSending s result)
  | .retry error =>
    let e := e.logSendAll s.id (c.retries.retryLog s.started e.now s.attempts error)
    let wake := c.retries.resumeAt s.started e.now s.attempts
    (true, e.setSending { s with phase := .pausing wake error })

def settleCall (e : Engine σ τ) (c : Config) (s : Sending τ) (timeout : Duration)
    (reply : Option Reply) : Bool × Engine σ τ :=
  (e.record (.answered s.id s.attempts reply)).conclude c s
    ((replyOr timeout reply).verdict s.batch.size)

def waitSending (e : Engine σ τ) (s : Sending τ) : Bool × Engine σ τ :=
  (false, { e.setSending { s with alarm := e.alarms } with alarms := e.alarms + 1 })

/-- One turn of a task that sends a batch. The answer of a call is looked at before its
timeout. -/
def sendingTurn (e : Engine σ τ) (v : Service σ τ) (c : Config) (s : Sending τ) :
    Bool × Engine σ τ :=
  match s.phase with
  | .ready => (true, e.attempt v c s)
  | .calling timeout limit answerAt call =>
    if answerAt.any (· ≤ e.now) then
      let (reply, service) := v.answer e.service call
      { e with service := service }.settleCall c s timeout (some reply)
    else if limit ≤ e.now then e.settleCall c s timeout none
    else e.waitSending s
  | .pausing wake error =>
    if e.now < wake then e.waitSending s
    else if c.retries.isSpent s.started e.now then
      (false, e.endSending s (.failed (c.retries.exhausted s.attempts error)))
    else
      let e := { e with counters := e.counters.countRetry }
      (true, e.setSending { s with phase := .ready })

/-! Turns of waiting calls -/

def publishingTurn (e : Engine σ τ) (call : Nat) : Engine σ τ :=
  match e.blocked.find? (·.id == call) with
  | none => e
  | some entry =>
    let (decision, admission, told) := e.admission.resume call
    let e := { e with
      admission := admission
      blocked := e.blocked.filter (·.id != call) }.wakeCalls told
    e.decide entry decision

/-- One turn of a shutdown call: it returns once everything has ended. -/
def shutdownTurn (e : Engine σ τ) (c : Config) (call : Nat) : Engine σ τ :=
  if e.isDrained ∧ (e.shutdowns.any (·.1 == call)) then
    let e := { e with shutdowns := e.shutdowns.filter (·.1 != call) }
    (e.log (.shutdownComplete c.topic)).record (.shutdownReturned call)
  else e

/-! Running -/

/-- One turn of a task; `true` asks for another turn. -/
def turn (e : Engine σ τ) (v : Service σ τ) (c : Config) : Task → Bool × Engine σ τ
  | .batching => e.batchingTurn c
  | .sending id =>
    match e.sending? id with
    | none => (false, e)
    | some s => e.sendingTurn v c s
  | .publishing call => (false, e.publishingTurn call)
  | .shutdown call => (false, e.shutdownTurn c call)

/-- Gives a task that is ready a turn. It stays in front of the others if it asks for more. -/
def run (e : Engine σ τ) (v : Service σ τ) (c : Config) (t : Task) : Engine σ τ :=
  let (again, next) := { e with ready := e.ready.erase t }.turn v c t
  if again then { next with ready := t :: next.ready } else next

/-! Time -/

/-- All tasks that wait for a time: the time, the number of the alarm, and the task. -/
def pending (e : Engine σ τ) : List (Nat × Nat × Task) :=
  let sends := e.sends.filterMap fun s => s.phase.wake?.map (·, s.alarm, .sending s.id)
  match e.batchingWake? with
  | some wake => (wake, e.batchingAlarm, .batching) :: sends
  | none => sends

def nextWake? (e : Engine σ τ) : Option Nat := (e.pending.map (·.1)).min?

/-- The tasks that are due at a reading, in the order in which they began to wait. -/
def due (e : Engine σ τ) (now : Nat) : List Task :=
  let alarms := (e.pending.filter (·.1 ≤ now)).map (·.2)
  (alarms.mergeSort fun a b => a.1 ≤ b.1).map (·.2)

/-- Moves the clock of a settled engine on, and wakes what is due. -/
def moveTo (e : Engine σ τ) (now : Nat) : Engine σ τ :=
  { e with now := now }.wakeAll (e.due now)

end Engine
end TopicPublisher
