import TopicPublisher.Admission.Ledger
import TopicPublisher.Batch.Batcher

/-!
A batcher by itself, on a clock that is moved by hand. Closed batches are kept under their
numbers until they are resolved; every message that was taken stands in the ledger until then.
-/

namespace TopicPublisher

/-- What is done with a batcher. Batches are numbered in the order in which they were closed. -/
inductive BatcherCommand where
  | add (message : Message)
  | advance (length : Duration)
  | flush
  | flushAt (instant : Duration)
  | drain
  | succeed (batch : Nat)
  | fail (batch : Nat) (error : PublishError)
  | abandon (batch : Nat)
deriving Inhabited

/-- The batches that a command closed, the error with which it refused a message, the deadline,
the handles that it resolved, and the ledger. -/
structure BatcherReport where
  closed : List Batch
  error : Option PublishError
  deadline : Option Duration
  resolved : List (Nat × Outcome)
  ledger : Ledger

/-- A session with a batcher: the instant, the batches that were closed, which become `none` when
they are resolved, and how many messages there were. -/
structure BatcherSession where
  now : Nat := 0
  batcher : Batcher := {}
  batches : List (Option Batch) := []
  messages : Nat := 0
  ledger : Ledger := {}

namespace BatcherSession

def keep (s : BatcherSession) (closed : List Batch) : BatcherSession :=
  { s with batches := s.batches ++ closed.map some }

def settle (s : BatcherSession) (sizes : List Nat) : BatcherSession :=
  { s with ledger := sizes.foldl Ledger.release s.ledger }

def closing (s : BatcherSession) (result : Option Batch × Batcher) :
    List Batch × BatcherSession :=
  (result.1.toList, { s with batcher := result.2 }.keep result.1.toList)

/-- Resolves a closed batch that is still kept with the outcome of each of its positions. -/
def resolve (s : BatcherSession) (batch : Nat) (outcome : Nat → Outcome) :
    List (Nat × Outcome) × BatcherSession :=
  match (s.batches[batch]?).join with
  | none => ([], s)
  | some b =>
    (b.ids.mapIdx fun i id => (id, outcome i),
      { s with batches := s.batches.set batch none }.settle (b.entries.map Entry.size))

/-- How a command ended: what it closed, the error, and what it resolved. -/
abbrev Effect := List Batch × Option PublishError × List (Nat × Outcome)

/-- Carries out a command; `none` if an instant can no longer be represented. -/
def perform (t : Thresholds) (s : BatcherSession) :
    BatcherCommand → Option (Effect × BatcherSession)
  | .add message =>
    let entry : Entry := ⟨s.messages, message⟩
    let s := { s with messages := s.messages + 1, ledger := s.ledger.acquire entry.size }
    match s.batcher.add t s.now entry with
    | .ok (closed, batcher) =>
      some ((closed, none, []), { s with batcher := batcher }.keep closed)
    | .error (.tooLarge size) =>
      let error := .messageTooLarge size maxBatchBytes
      some (([], some error, [(entry.id, .error error)]), s.settle [entry.size])
    | .error .deadlineOverflow => none
  | .advance length =>
    let now := s.now + length.nanos
    if Clock.representable now then some (([], none, []), { s with now := now }) else none
  | .flush =>
    let (closed, s) := s.closing (s.batcher.flushExpired s.now)
    some ((closed, none, []), s)
  | .flushAt instant =>
    if Clock.representable instant.nanos then
      let (closed, s) := s.closing (s.batcher.flushExpired instant.nanos)
      some ((closed, none, []), s)
    else none
  | .drain =>
    let (closed, s) := s.closing s.batcher.drain
    some ((closed, none, []), s)
  | .succeed batch =>
    let (resolved, s) := s.resolve batch fun i => .ok ("b" ++ toString batch ++ "-" ++ toString i)
    some (([], none, resolved), s)
  | .fail batch error =>
    let (resolved, s) := s.resolve batch fun _ => .error error
    some (([], none, resolved), s)
  | .abandon batch =>
    let (resolved, s) := s.resolve batch fun _ => .error .resultDropped
    some (([], none, resolved), s)

/-- The report on a command, resolved handles in the order of their messages. -/
def report (s : BatcherSession) (effect : Effect) : BatcherReport where
  closed := effect.1
  error := effect.2.1
  deadline := s.batcher.deadline.map Duration.mk
  resolved := effect.2.2.mergeSort fun a b => a.1 ≤ b.1
  ledger := s.ledger

def reports (t : Thresholds) : List BatcherCommand → BatcherSession → Option (List BatcherReport)
  | [], _ => some []
  | command :: rest, s =>
    match s.perform t command with
    | none => none
    | some (effect, next) => (reports t rest next).map (next.report effect :: ·)

/-- Room for a whole batch is set aside when it is opened, at 56 bytes a message, and all of it
has to lie in a 64-bit address space. -/
def hasRoom (t : Thresholds) : Bool := decide (56 * t.count < Nat.pow 2 63)

/-- A session from its start; `none` if the batcher cannot go on. -/
def run (t : Thresholds) (commands : List BatcherCommand) : Option (List BatcherReport) :=
  if hasRoom t then reports t commands {} else none

end BatcherSession
end TopicPublisher
