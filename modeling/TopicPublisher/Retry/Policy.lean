import TopicPublisher.Error
import TopicPublisher.Retry.Backoff

/-!
The policy of retries: a budget for the whole send, delays between attempts, and a timeout for
each attempt, the latter two growing by backoff.
-/

namespace TopicPublisher

structure RetryPolicy where
  totalTimeout : Duration := .ofSecs 60
  initialDelay : Duration := .ofMillis 5
  delayMultiplier : Binary64 := .ofFloat 2.0
  maxDelay : Duration := .longest
  initialRpcTimeout : Duration := .ofSecs 10
  rpcTimeoutMultiplier : Binary64 := .ofFloat 2.0
  maxRpcTimeout : Duration := .ofSecs 10
deriving DecidableEq, Repr, Inhabited

namespace RetryPolicy

def minTotalTimeout : Duration := .ofMillis 100

def minRpcTimeout : Duration := .ofMillis 10

/-- The delays before the second, third and later attempts. -/
def delays (p : RetryPolicy) : Backoff := ⟨p.initialDelay, p.delayMultiplier, p.maxDelay⟩

/-- The timeouts of the first, second and later attempts. -/
def rpcTimeouts (p : RetryPolicy) : Backoff :=
  ⟨p.initialRpcTimeout, p.rpcTimeoutMultiplier, p.maxRpcTimeout⟩

/-- A multiplier is a finite number of at least one. -/
def isMultiplier (x : Binary64) : Bool := x.isFinite && decide ((1.0 : Float) ≤ x.toFloat)

/-- The first fault of a policy, if it has any. -/
def validate (p : RetryPolicy) : Except ConfigError Unit :=
  if p.totalTimeout < minTotalTimeout then
    .error (.totalTimeoutTooShort p.totalTimeout minTotalTimeout)
  else if p.initialRpcTimeout < minRpcTimeout then
    .error (.rpcTimeoutTooShort p.initialRpcTimeout minRpcTimeout)
  else if p.totalTimeout ≤ p.initialRpcTimeout then
    .error (.totalTimeoutNotAboveRpcTimeout p.totalTimeout p.initialRpcTimeout)
  else if !isMultiplier p.delayMultiplier then
    .error (.invalidRetryDelayMultiplier p.delayMultiplier)
  else if !isMultiplier p.rpcTimeoutMultiplier then
    .error (.invalidRpcTimeoutMultiplier p.rpcTimeoutMultiplier)
  else if p.maxDelay < p.initialDelay then
    .error (.maxRetryDelayBelowInitial p.initialDelay p.maxDelay)
  else if p.maxRpcTimeout < p.initialRpcTimeout then
    .error (.maxRpcTimeoutBelowInitial p.initialRpcTimeout p.maxRpcTimeout)
  else .ok ()

/-- Whether two policies are alike, their multipliers compared as numbers. -/
def sameAs (p q : RetryPolicy) : Bool :=
  p.totalTimeout == q.totalTimeout && p.initialDelay == q.initialDelay
    && p.delayMultiplier.toFloat == q.delayMultiplier.toFloat && p.maxDelay == q.maxDelay
    && p.initialRpcTimeout == q.initialRpcTimeout
    && p.rpcTimeoutMultiplier.toFloat == q.rpcTimeoutMultiplier.toFloat
    && p.maxRpcTimeout == q.maxRpcTimeout

end RetryPolicy
end TopicPublisher
