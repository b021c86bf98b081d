import TopicPublisher.Retry.Policy
import TopicPublisher.Retry.Result
import TopicPublisher.Service.Basic

/-!
The rules of one attempt to send a batch: how long it may take, what its reply means, and how
long the pause after it is. Time is measured from the start of the send, and every wait is cut
to what is left of the budget.
-/

namespace TopicPublisher

/-- What the end of an attempt means for its batch: the send is over, or it may go on. -/
inductive Verdict where
  | final (result : SendResult)
  | retry (error : TransportError)
deriving DecidableEq, Repr

/-- The verdict of a reply to a call with some number of messages: one identifier for each
message publishes them, and a failure that may pass calls for another attempt. -/
def Reply.verdict (messages : Nat) : Reply → Verdict
  | .ids given =>
    if given.length = messages then .final (.published given)
    else .final (.failed (.idCountMismatch messages given.length))
  | .failure error =>
    if error.isRetryable then .retry error else .final (.failed (.terminalSendFailure error))
  | .crash => .final .crashed

/-- The reply that an attempt counts as having, which is a failure if its timeout ended it. -/
def replyOr (timeout : Duration) (reply : Option Reply) : Reply :=
  reply.getD (.failure (.timedOut timeout))

namespace RetryPolicy

/-- What is left of the budget at reading `now` of a send that began at `started`. -/
def remaining (p : RetryPolicy) (started now : Nat) : Duration :=
  p.totalTimeout - Clock.elapsed started now

def isSpent (p : RetryPolicy) (started now : Nat) : Bool :=
  decide (p.totalTimeout ≤ Clock.elapsed started now)

/-- The timeout of attempt `number`, counted from one, when it starts at `now`. -/
def attemptTimeout (p : RetryPolicy) (started now number : Nat) : Duration :=
  min (p.rpcTimeouts.value (number - 1)) (p.remaining started now)

/-- The pause after attempt `number`, when it ends at `now`. -/
def pause (p : RetryPolicy) (started now number : Nat) : Duration :=
  min (p.delays.value (number - 1)) (p.remaining started now)

/-- The reading at which the pause after attempt `number` ends. Nothing left of the budget
means no pause. -/
def resumeAt [Clock.Timers] (p : RetryPolicy) (started now number : Nat) : Nat :=
  if (p.remaining started now).isZero then now
  else Clock.wakeAfter now (p.pause started now number)

/-- What is logged when attempt `number` failed at `now`: the pause that follows, unless nothing
is left of the budget. -/
def retryLog (p : RetryPolicy) (started now number : Nat) (error : TransportError) :
    List LogEvent :=
  if (p.remaining started now).isZero then []
  else [.retryScheduled (.ofNat number) (p.pause started now number) error]

/-- The failure of a send that has used up its budget. It tells the number of the last attempt. -/
def exhausted (p : RetryPolicy) (attempts : Nat) (error : TransportError) : PublishError :=
  .retryBudgetExhausted (UInt32.ofNat attempts).toNat p.totalTimeout error

theorem attemptTimeout_le_remaining (p : RetryPolicy) (started now number : Nat) :
    (p.attemptTimeout started now number).nanos ≤ (p.remaining started now).nanos := by
  simp only [attemptTimeout, Duration.nanos_min]
  exact Nat.min_le_right _ _

theorem pause_le_remaining (p : RetryPolicy) (started now number : Nat) :
    (p.pause started now number).nanos ≤ (p.remaining started now).nanos := by
  simp only [pause, Duration.nanos_min]
  exact Nat.min_le_right _ _

theorem isSpent_iff (p : RetryPolicy) (started now : Nat) :
    p.isSpent started now = true ↔ (p.remaining started now).nanos = 0 := by
  simp only [isSpent, decide_eq_true_eq, Duration.le_def, remaining, Duration.nanos_sub]
  omega

theorem le_resumeAt [Clock.Timers] (p : RetryPolicy) (started now number : Nat) :
    now ≤ p.resumeAt started now number := by
  unfold resumeAt
  split
  · exact Nat.le_refl _
  · exact Clock.le_wakeAfter _ _

end RetryPolicy
end TopicPublisher
