import TopicPublisher.Session.Basic
import TopicPublisher.Service.Script

/-!
Reports on a session: what has happened since the last report, read off the engine's history,
and how the publisher stands.
-/

namespace TopicPublisher

/-- What happened between two moments of a session, each with the reading of the clock, in the
order of the clock and then of the numbers or labels. A session that has let go of its publisher
says nothing about how that stands. -/
structure Report where
  time : Nat
  returned : List (Nat × Nat)
  calls : List (Nat × List String × Nat)
  resolved : List (Nat × Nat × Outcome)
  shutdowns : List Nat
  logs : List LogEvent
  closed : Option Bool
  snapshot : Option Snapshot

namespace Report

def returned? : Nat × Happening → Option (Nat × Nat)
  | (time, .returned call) => some (time, call)
  | _ => none

/-- A call of the service by the labels and the bytes of its messages. -/
def call? : Nat × Happening → Option (Nat × List String × Nat)
  | (time, .called _ _ messages) =>
    some (time, messages.map Message.label, total Message.size messages)
  | _ => none

def resolved? : Nat × Happening → Option (Nat × Nat × Outcome)
  | (time, .resolved call outcome) => some (time, call, outcome)
  | _ => none

def shutdown? : Nat × Happening → Option Nat
  | (time, .shutdownReturned _) => some time
  | _ => none

def log? : Nat × Happening → Option LogEvent
  | (_, .logged _ event) => some event
  | _ => none

/-- The order of calls: by time, by labels, by bytes. -/
def compareCalls (a b : Nat × List String × Nat) : Ordering :=
  (compare a.1 b.1).then ((compare a.2.1 b.2.1).then (compare a.2.2 b.2.2))

end Report

namespace Session

variable {σ τ : Type}

/-- The report of what entered the history after its first `seen` entries. Outcomes of handles
that were thrown away are left out. -/
def report (s : Session σ τ) (seen : Nat) : Report :=
  let news := (s.engine.history.take (s.engine.history.length - seen)).reverse
  { time := s.engine.now
    returned := (news.filterMap Report.returned?).mergeSort fun a b =>
      ((compare a.1 b.1).then (compare a.2 b.2)).isLE
    calls := (news.filterMap Report.call?).mergeSort fun a b => (Report.compareCalls a b).isLE
    resolved := ((news.filterMap Report.resolved?).filter fun r =>
      !s.abandoned.contains r.2.1).mergeSort fun a b =>
        ((compare a.1 b.1).then (compare a.2.1 b.2.1)).isLE
    shutdowns := news.filterMap Report.shutdown?
    logs := news.filterMap Report.log?
    closed := if s.dropped then none else some s.engine.closing
    snapshot := if s.dropped then none else some s.engine.snapshot }

def reports (v : Service σ τ) (c : Config) (seen : Nat) :
    List Command → Session σ τ → List Report
  | [], _ => []
  | command :: rest, s =>
    let next := s.perform v c command
    next.report seen :: reports v c next.engine.history.length rest next

end Session
end TopicPublisher
