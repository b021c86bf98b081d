import TopicPublisher.Batch.Basic
import TopicPublisher.Batch.Thresholds

/-!
The batcher gathers entries into the one open batch and closes it at its thresholds. It never
waits: closed batches are returned, and the time threshold is a deadline for others to watch.
The deadline is armed when the first entry of a batch arrives and disarmed when the batch is
closed. Instants are nanoseconds from the clock's start.
-/

namespace TopicPublisher

inductive AddError where
  | tooLarge (size : Nat)
  | deadlineOverflow
deriving DecidableEq, Repr

/-- The open batch and, while it holds entries, its deadline. -/
structure Batcher where
  current : Batch := {}
  deadline : Option Nat := none
deriving DecidableEq, Inhabited

namespace Batcher

def close (b : Batcher) : Batch × Batcher := (b.current, {})

def fits (t : Thresholds) (b : Batch) (size : Nat) : Bool :=
  decide (b.size < t.count ∧ b.bytes + size ≤ t.bytes)

def isFull (t : Thresholds) (b : Batch) : Bool :=
  decide (t.count ≤ b.size ∨ t.bytes ≤ b.bytes)

/-- Closes the open batch if an entry of some size would not fit in with the others. -/
def makeRoom (t : Thresholds) (size : Nat) (b : Batcher) : List Batch × Batcher :=
  if !b.current.isEmpty && !fits t b.current size then ([b.close.1], b.close.2) else ([], b)

/-- The deadline that an entry arriving at `now` leaves the open batch with: the old one, or
`now` and the delay if the batch was empty. -/
def arm (t : Thresholds) (now : Nat) (b : Batcher) : Option Batcher :=
  if b.current.isEmpty then
    if Clock.representable (now + t.delay.nanos) then
      some { b with deadline := some (now + t.delay.nanos) }
    else none
  else some b

/-- Appends an entry to the open batch, and closes the batch if that fills it. -/
def append (t : Thresholds) (e : Entry) (b : Batcher) : List Batch × Batcher :=
  let next := { b with current := b.current.push e }
  if isFull t next.current then ([next.close.1], next.close.2) else ([], next)

/-- Adds an entry at the instant `now`, and returns the batches that this closes. An entry that
does not fit closes the open batch and begins a new one; one that fills its batch closes it. -/
def add (t : Thresholds) (now : Nat) (e : Entry) (b : Batcher) :
    Except AddError (List Batch × Batcher) :=
  if maxBatchBytes < e.size then .error (.tooLarge e.size)
  else
    let (closed, room) := b.makeRoom t e.size
    match room.arm t now with
    | none => .error .deadlineOverflow
    | some armed =>
      let (filled, next) := armed.append t e
      .ok (closed ++ filled, next)

/-- Closes the open batch if its deadline is `now` or earlier. -/
def flushExpired (now : Nat) (b : Batcher) : Option Batch × Batcher :=
  match b.deadline with
  | some deadline =>
    if deadline ≤ now ∧ b.current.isEmpty = false then (some b.close.1, b.close.2) else (none, b)
  | none => (none, b)

def drain (b : Batcher) : Option Batch × Batcher :=
  if b.current.isEmpty then (none, b) else (some b.close.1, b.close.2)

end Batcher
end TopicPublisher
