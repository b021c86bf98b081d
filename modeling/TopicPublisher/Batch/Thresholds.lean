import TopicPublisher.Error

/-!
The thresholds at which an open batch is closed: its number of messages, its bytes, and the
time since its first message.
-/

namespace TopicPublisher

/-- The most messages that the service takes in one batch. -/
def maxBatchMessages : Nat := 1000

/-- The most bytes that the service takes in one batch. -/
def maxBatchBytes : Nat := 10000000

/-- The thresholds of a batch; the first one reached closes it. -/
structure Thresholds where
  count : Nat
  bytes : Nat
  delay : Duration
deriving DecidableEq, Repr, Inhabited

namespace Thresholds

def balanced : Thresholds := ⟨100, 1000, .ofMillis 1⟩

def highThroughput : Thresholds := ⟨maxBatchMessages, 5000000, .ofMillis 50⟩

def lowLatency : Thresholds := ⟨10, 1000, .ofMillis 1⟩

/-- Every threshold is positive, and count and bytes are within the limits of the service. -/
def validate (t : Thresholds) : Except ConfigError Unit :=
  if t.count = 0 then .error .zeroElementCountThreshold
  else if maxBatchMessages < t.count then
    .error (.elementCountThresholdAboveLimit t.count maxBatchMessages)
  else if t.bytes = 0 then .error .zeroRequestBytesThreshold
  else if maxBatchBytes < t.bytes then
    .error (.requestBytesThresholdAboveLimit t.bytes maxBatchBytes)
  else if t.delay.isZero then .error .zeroDelayThreshold
  else .ok ()

theorem validate_eq_ok_iff (t : Thresholds) :
    t.validate = .ok () ↔
      0 < t.count ∧ t.count ≤ maxBatchMessages ∧ 0 < t.bytes ∧ t.bytes ≤ maxBatchBytes ∧
        0 < t.delay.nanos := by
  have hd : t.delay.isZero = true ↔ t.delay.nanos = 0 := Duration.isZero_iff _
  unfold validate
  repeat' split
  all_goals simp_all
  all_goals omega

end Thresholds
end TopicPublisher
