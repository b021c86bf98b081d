import TopicPublisher.Counters
import TopicPublisher.Log

/-!
How the sending of a batch ends, and what follows from that for the messages of the batch, for
the log and for the counters.
-/

namespace TopicPublisher

/-- The end of a send: every message was given its identifier, all of them failed with one
error, or the task that sent them was killed. -/
inductive SendResult where
  | published (ids : List MessageId)
  | failed (error : PublishError)
  | crashed
deriving DecidableEq, Repr, Inhabited

namespace SendResult

def outcomes (messages : Nat) : SendResult → List Outcome
  | .published ids => ids.map .ok
  | .failed error => List.replicate messages (.error error)
  | .crashed => List.replicate messages (.error .resultDropped)

def log (attempts messages : Nat) : SendResult → List LogEvent
  | .published _ => [.batchAcknowledged (.ofNat attempts) messages]
  | .failed error => [.batchFailed messages error]
  | .crashed => []

def count (messages : Nat) (c : Counters) : SendResult → Counters
  | .published _ => c.countSuccess messages
  | .failed _ => c.countFailure messages
  | .crashed => c

end SendResult
end TopicPublisher
