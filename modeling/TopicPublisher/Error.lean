import TopicPublisher.Decimal.Shortest
import TopicPublisher.Duration
import TopicPublisher.Message

/-!
Everything that can go wrong: failures that the service reports, the ways in which a message
stays unpublished, and the faults of a configuration. Each kind has one function that words it.
-/

namespace TopicPublisher

inductive Limit where
  | elementCount
  | requestBytes
deriving DecidableEq, Repr, Inhabited

def Limit.text : Limit → String
  | .elementCount => "element count"
  | .requestBytes => "request bytes"

inductive TransportErrorKind where
  | aborted
  | cancelled
  | deadlineExceeded
  | internal
  | resourceExhausted
  | unknown
  | unavailable
  | invalidArgument
  | notFound
  | permissionDenied
  | unauthenticated
  | failedPrecondition
deriving DecidableEq, Repr, Inhabited

namespace TransportErrorKind

/-- Whether another attempt may succeed where this one failed. -/
def isRetryable : TransportErrorKind → Bool
  | .aborted | .cancelled | .deadlineExceeded | .internal | .resourceExhausted | .unknown
  | .unavailable => true
  | .invalidArgument | .notFound | .permissionDenied | .unauthenticated
  | .failedPrecondition => false

def text : TransportErrorKind → String
  | .aborted => "ABORTED"
  | .cancelled => "CANCELLED"
  | .deadlineExceeded => "DEADLINE_EXCEEDED"
  | .internal => "INTERNAL"
  | .resourceExhausted => "RESOURCE_EXHAUSTED"
  | .unknown => "UNKNOWN"
  | .unavailable => "UNAVAILABLE"
  | .invalidArgument => "INVALID_ARGUMENT"
  | .notFound => "NOT_FOUND"
  | .permissionDenied => "PERMISSION_DENIED"
  | .unauthenticated => "UNAUTHENTICATED"
  | .failedPrecondition => "FAILED_PRECONDITION"

end TransportErrorKind

structure TransportError where
  kind : TransportErrorKind
  detail : String
deriving DecidableEq, Repr, Inhabited

namespace TransportError

def unavailable (detail : String) : TransportError := ⟨.unavailable, detail⟩

def invalidArgument (detail : String) : TransportError := ⟨.invalidArgument, detail⟩

/-- The failure of an attempt that had no answer within its timeout. -/
def timedOut (timeout : Duration) : TransportError :=
  ⟨.deadlineExceeded, "attempt timed out after " ++ timeout.text⟩

def isRetryable (e : TransportError) : Bool := e.kind.isRetryable

def message (e : TransportError) : String :=
  "Transport failed with " ++ e.kind.text ++ ": " ++ e.detail

end TransportError

inductive PublishError where
  | messageTooLarge (size limit : Nat)
  | admissionRejected (limit : Limit)
  | retryBudgetExhausted (attempts : Nat) (budget : Duration) (lastError : TransportError)
  | terminalSendFailure (error : TransportError)
  | idCountMismatch (expected received : Nat)
  | engineShutdown
  | resultDropped
deriving DecidableEq, Repr, Inhabited

namespace PublishError

def message : PublishError → String
  | .messageTooLarge size limit =>
    "Message size (" ++ toString size ++ " bytes) is greater than maximum allowed batch size ("
      ++ toString limit ++ " bytes)."
  | .admissionRejected limit =>
    "Flow control rejected the message: outstanding " ++ limit.text ++ " limit reached."
  | .retryBudgetExhausted attempts budget _ =>
    "Retry budget of " ++ budget.text ++ " exhausted after " ++ toString attempts ++ " attempts."
  | .terminalSendFailure _ => "Batch send failed with a non-retryable error."
  | .idCountMismatch expected received =>
    "Server returned " ++ toString received ++ " message IDs for a batch of "
      ++ toString expected ++ " messages."
  | .engineShutdown => "The publisher has been shut down."
  | .resultDropped => "The publish result was dropped before completion."

/-- The failure of the service that lies behind the error. -/
def source : PublishError → Option TransportError
  | .retryBudgetExhausted _ _ lastError => some lastError
  | .terminalSendFailure error => some error
  | _ => none

def isRejection : PublishError → Bool
  | .admissionRejected _ => true
  | _ => false

end PublishError

/-- How a published message ended: with its identifier or with an error. -/
abbrev Outcome := Except PublishError MessageId

inductive ConfigError where
  | zeroElementCountThreshold
  | zeroRequestBytesThreshold
  | zeroDelayThreshold
  | elementCountThresholdAboveLimit (count limit : Nat)
  | requestBytesThresholdAboveLimit (bytes limit : Nat)
  | zeroOutstandingLimit (limit : Limit)
  | outstandingLimitTooLarge (limit : Limit) (value maximum : Nat)
  | totalTimeoutTooShort (total minimum : Duration)
  | rpcTimeoutTooShort (timeout minimum : Duration)
  | totalTimeoutNotAboveRpcTimeout (total rpc : Duration)
  | invalidRetryDelayMultiplier (multiplier : Binary64)
  | invalidRpcTimeoutMultiplier (multiplier : Binary64)
  | maxRetryDelayBelowInitial (initial maximum : Duration)
  | maxRpcTimeoutBelowInitial (initial maximum : Duration)
  | invalidTopicName (name : String)
  | reservedTopicName
  | noRuntime
deriving DecidableEq, Repr, Inhabited

def ConfigError.message : ConfigError → String
  | .zeroElementCountThreshold => "Element count threshold must be greater than zero."
  | .zeroRequestBytesThreshold => "Request byte threshold must be greater than zero."
  | .zeroDelayThreshold => "Delay threshold must be greater than zero."
  | .elementCountThresholdAboveLimit count limit =>
    "Element count threshold (" ++ toString count ++ ") is greater than the batch limit ("
      ++ toString limit ++ " messages)."
  | .requestBytesThresholdAboveLimit bytes limit =>
    "Request byte threshold (" ++ toString bytes ++ ") is greater than the batch limit ("
      ++ toString limit ++ " bytes)."
  | .zeroOutstandingLimit limit =>
    "Outstanding " ++ limit.text ++ " limit must be greater than zero."
  | .outstandingLimitTooLarge limit value maximum =>
    "Outstanding " ++ limit.text ++ " limit (" ++ toString value
      ++ ") is greater than the supported maximum (" ++ toString maximum ++ ")."
  | .totalTimeoutTooShort total minimum =>
    "Total timeout (" ++ total.text ++ ") is shorter than the minimum (" ++ minimum.text ++ ")."
  | .rpcTimeoutTooShort timeout minimum =>
    "Initial RPC timeout (" ++ timeout.text ++ ") is shorter than the minimum ("
      ++ minimum.text ++ ")."
  | .totalTimeoutNotAboveRpcTimeout total rpc =>
    "Total timeout (" ++ total.text ++ ") must exceed the initial RPC timeout ("
      ++ rpc.text ++ ")."
  | .invalidRetryDelayMultiplier multiplier =>
    "Retry delay multiplier (" ++ multiplier.text ++ ") must be a finite number of at least 1.0."
  | .invalidRpcTimeoutMultiplier multiplier =>
    "RPC timeout multiplier (" ++ multiplier.text ++ ") must be a finite number of at least 1.0."
  | .maxRetryDelayBelowInitial initial maximum =>
    "Maximum retry delay (" ++ maximum.text ++ ") is shorter than the initial retry delay ("
      ++ initial.text ++ ")."
  | .maxRpcTimeoutBelowInitial initial maximum =>
    "Maximum RPC timeout (" ++ maximum.text ++ ") is shorter than the initial RPC timeout ("
      ++ initial.text ++ ")."
  | .invalidTopicName name => "Invalid topic name: " ++ name
  | .reservedTopicName => "Topic names cannot start with the reserved prefix \"goog\"."
  | .noRuntime => "No tokio runtime was provided and none is running."

end TopicPublisher
