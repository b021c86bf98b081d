import TopicPublisher.Admission.Ledger

/-!
The counters of a publisher. All of them have 64 bits and wrap.
-/

namespace TopicPublisher

/-- What a publisher has done so far. -/
structure Counters where
  messagesPublished : UInt64 := 0
  messagesFailed : UInt64 := 0
  batchesSent : UInt64 := 0
  batchesFailed : UInt64 := 0
  sendAttempts : UInt64 := 0
  retries : UInt64 := 0
  admissionRejections : UInt64 := 0
deriving DecidableEq, Repr, Inhabited

namespace Counters

def countAttempt (c : Counters) : Counters := { c with sendAttempts := c.sendAttempts + 1 }

def countRetry (c : Counters) : Counters := { c with retries := c.retries + 1 }

def countSuccess (c : Counters) (messages : Nat) : Counters :=
  { c with
    batchesSent := c.batchesSent + 1
    messagesPublished := c.messagesPublished + UInt64.ofNat messages }

def countFailure (c : Counters) (messages : Nat) : Counters :=
  { c with
    batchesFailed := c.batchesFailed + 1
    messagesFailed := c.messagesFailed + UInt64.ofNat messages }

def countRejection (c : Counters) : Counters :=
  { c with admissionRejections := c.admissionRejections + 1 }

end Counters

structure Snapshot where
  counters : Counters := {}
  ledger : Ledger := {}
deriving DecidableEq, Repr, Inhabited

/-- All numbers of a snapshot in their order of report. -/
def Snapshot.toList (s : Snapshot) : List UInt64 :=
  [s.counters.messagesPublished, s.counters.messagesFailed, s.counters.batchesSent,
    s.counters.batchesFailed, s.counters.sendAttempts, s.counters.retries,
    s.counters.admissionRejections, s.ledger.elements, s.ledger.bytes]

end TopicPublisher
