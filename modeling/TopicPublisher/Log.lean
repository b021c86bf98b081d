import TopicPublisher.Topic

/-!
The events that a publisher logs, each with its level, its text and its fields. The attempts of a
send are numbered in 32 bits, and after the last of these numbers they begin again at zero.
-/

namespace TopicPublisher

inductive Level where
  | debug
  | info
  | warn
  | error
deriving DecidableEq, Repr, Inhabited

def Level.text : Level → String
  | .debug => "DEBUG"
  | .info => "INFO"
  | .warn => "WARN"
  | .error => "ERROR"

inductive LogEvent where
  | publisherStarted (topic : Topic)
  | messageRejected (error : PublishError)
  | batchClosed (messages bytes : Nat)
  | shutdownStarted (topic : Topic)
  | shutdownComplete (topic : Topic)
  | sendAttempt (attempt : UInt32) (messages : Nat)
  | batchAcknowledged (attempt : UInt32) (messages : Nat)
  | retryScheduled (attempt : UInt32) (delay : Duration) (error : TransportError)
  | batchFailed (messages : Nat) (error : PublishError)
deriving DecidableEq, Repr, Inhabited

namespace LogEvent

def level : LogEvent → Level
  | .publisherStarted _ | .shutdownStarted _ | .shutdownComplete _ => .info
  | .messageRejected _ | .retryScheduled .. => .warn
  | .batchClosed .. | .sendAttempt .. | .batchAcknowledged .. => .debug
  | .batchFailed .. => .error

def text : LogEvent → String
  | .publisherStarted _ => "Publisher started."
  | .messageRejected _ => "Message rejected before batching."
  | .batchClosed .. => "Closed batch for sending."
  | .shutdownStarted _ => "Shutting down publisher, flushing pending messages..."
  | .shutdownComplete _ => "Publisher shut down."
  | .sendAttempt .. => "Sending batch..."
  | .batchAcknowledged .. => "Batch acknowledged by server."
  | .retryScheduled .. => "Batch send failed, retrying after backoff..."
  | .batchFailed .. => "Failed to publish batch."

/-- The fields of an event by name, in their order. -/
def fields : LogEvent → List (String × String)
  | .publisherStarted topic | .shutdownStarted topic | .shutdownComplete topic =>
    [("topic", topic.path)]
  | .messageRejected error => [("error", error.message)]
  | .batchClosed messages bytes => [("messages", toString messages), ("bytes", toString bytes)]
  | .sendAttempt attempt messages | .batchAcknowledged attempt messages =>
    [("attempt_num", toString attempt), ("messages", toString messages)]
  | .retryScheduled attempt delay error =>
    [("attempt_num", toString attempt), ("delay_ms", toString (delay.toMillis % Nat.pow 2 64)),
      ("error", error.message)]
  | .batchFailed messages error =>
    [("messages", toString messages), ("error", error.message)]

end LogEvent
end TopicPublisher
