import TopicPublisher.Error

/-!
The service that batches are sent to. A call is started with the messages of a batch, answers
after some whole number of milliseconds or never, and may be given up before it answers. What it
will answer is settled when it does, so the service keeps its own state between.
-/

namespace TopicPublisher

/-- What a call brings: identifiers, a failure, or the end of whoever made the call. -/
inductive Reply where
  | ids (ids : List MessageId)
  | failure (error : TransportError)
  | crash
deriving DecidableEq, Repr, Inhabited

/-- A service with states `σ` and calls in flight `τ`. Starting a call gives its latency, or
`none` if it never answers. -/
structure Service (σ τ : Type) where
  start : σ → List Message → Option Nat × τ × σ
  answer : σ → τ → Reply × σ

/-- A reply and the milliseconds after which it comes; `none` if it never does. -/
structure Response where
  latency : Option Nat := some 0
  reply : Reply
deriving DecidableEq, Repr, Inhabited

end TopicPublisher
