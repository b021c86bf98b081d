import TopicPublisher.Bench.Options
import TopicPublisher.Draft
import TopicPublisher.Service.Simulated
import TopicPublisher.Session.Basic

/-!
The load of a benchmark and its run against the simulated service. Publishers share the messages
and publish them through one engine; when every handle has its outcome the engine is shut down.
-/

namespace TopicPublisher.Bench

/-- The messages of the first publisher: an even share and what cannot be shared evenly. -/
def firstShare (total publishers : Nat) : Nat :=
  total / Nat.max publishers 1 + total % Nat.max publishers 1

/-- The longest list of words whose bytes can be counted in 63 bits. -/
def maxWords : Nat := (Nat.pow 2 63 - 1) / 8

/-- The messages of each publisher, of which there is at least one, in 64-bit words. The first one
also gets what cannot be shared evenly. There are no shares if the list of them is too long. -/
def splitMessages (messages publishers : UInt64) : Option (List UInt64) :=
  let count := max publishers 1
  let share := messages / count
  let remainder := messages % count
  if count.toNat ≤ maxWords then
    some ((List.range count.toNat).map fun i => if i = 0 then share + remainder else share)
  else none

/-- A payload of the letters from `a` to `y`, repeated. -/
def payload (size : Nat) : ByteArray :=
  Nat.fold size (fun i _ bytes => bytes.push (UInt8.ofNat (i % 25 + 97)))
    (ByteArray.emptyWithCapacity size)

def topicPath : String := "projects/acmeco/topics/stocks"

def Options.draft (o : Options) : Draft where
  topic := topicPath
  thresholds := o.batching.thresholds
  ceilings := { elements := o.maxOutstanding }

def Options.service (o : Options) : Simulated where
  latency := o.latencyMillis
  outages := .ofNumber o.failureRate

/-- No list or payload of a run can have as many items as this. -/
def maxItems : Nat := Nat.pow 2 57

/-- Whether the list of publishers, the list of messages of the first one and the payload fit in
memory. -/
def Options.fitsMemory (o : Options) : Bool :=
  decide (o.publishers < maxItems ∧ o.messageSize < maxItems
    ∧ firstShare o.messages o.publishers < maxItems)

inductive RunError where
  | config (error : ConfigError)
  | outOfMemory
deriving DecidableEq, Repr

/-- How many messages each publisher of a run has. -/
def Options.shares (o : Options) : List Nat :=
  ((splitMessages (.ofNat o.messages) (.ofNat o.publishers)).getD []).map UInt64.toNat

/-- What came of a run: the time it took, the messages that failed, and the numbers of the
engine. -/
structure Run where
  elapsed : Duration
  failed : Nat
  snapshot : Snapshot

namespace Run

abbrev State := Session Simulated Nat

def beginAll (c : Config) (message : Message) (counts : List Nat) (s : State) : State :=
  counts.foldl (fun s count => s.begin c (List.replicate count message) false) s

def isDone (s : State) : Bool := s.clients.isEmpty && s.engine.admission.live.isEmpty

/-- Lets time pass until every message has its outcome; `fuel` bounds the readings at which
something is due. -/
def finish (c : Config) : (fuel : Nat) → State → State
  | 0, s => s
  | fuel + 1, s =>
    if isDone s then s
    else
      match s.engine.nextWake? with
      | some wake => finish c fuel (s.wakeAt Simulated.service c wake)
      | none => s

def isFailure : Nat × Happening → Bool
  | (_, .resolved _ (.error _)) => true
  | _ => false

def course (o : Options) (c : Config) : State :=
  let message : Message := ⟨payload o.messageSize, []⟩
  let s := Session.ofEngine (Engine.start c o.service)
  let s := (beginAll c message o.shares s).settle Simulated.service c
  ((finish c Session.maxTurns s).beginShutdown c).settle Simulated.service c

end Run

def Options.run (o : Options) : Except RunError Run :=
  match o.draft.build true with
  | .error e => .error (.config e)
  | .ok c =>
    if o.fitsMemory then
      let s := Run.course o c
      .ok {
        elapsed := .ofMillis s.engine.now
        failed := s.engine.history.countP Run.isFailure
        snapshot := s.engine.snapshot }
    else .error .outOfMemory

end TopicPublisher.Bench
