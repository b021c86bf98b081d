import TopicPublisher.Retry.Attempt

/-!
A whole send of one batch, by itself: attempts and pauses until the batch is published, fails
for good, or has used up its budget. The replies are given in advance, one for each attempt.
-/

namespace TopicPublisher

/-- One attempt of a send: its number from one, its start, timeout and end, and the reply, or
`none` if the timeout ended it. -/
structure Attempt where
  number : Nat
  started : Nat
  timeout : Duration
  ended : Nat
  reply : Option Reply
deriving DecidableEq, Repr, Inhabited

namespace Attempt

/-- Attempt `number` of a send that began at `started`, itself begun at `now`. A reply that
comes in the millisecond of the timeout still counts. -/
def run [Clock.Timers] (p : RetryPolicy) (started number now : Nat) (response : Response) :
    Attempt :=
  let timeout := p.attemptTimeout started now number
  let limit := Clock.wakeAfter now timeout
  match response.latency with
  | some latency =>
    if now + latency ≤ limit then ⟨number, now, timeout, now + latency, some response.reply⟩
    else ⟨number, now, timeout, limit, none⟩
  | none => ⟨number, now, timeout, limit, none⟩

def verdict (a : Attempt) (messages : Nat) : Verdict :=
  (replyOr a.timeout a.reply).verdict messages

end Attempt

/-- The course of a send: its attempts, the reading at which it ended, and how. A send that was
followed for too few attempts has no result. -/
structure Transcript where
  attempts : List Attempt
  ended : Nat
  result : Option SendResult
deriving DecidableEq, Repr, Inhabited

/-- The course of a send from attempt `number` on, which starts at `now`; `fuel` bounds the
attempts. -/
def sendFrom [Clock.Timers] (p : RetryPolicy) (messages : Nat) (responses : Nat → Response)
    (started : Nat) : (fuel number now : Nat) → Transcript
  | 0, _, now => ⟨[], now, none⟩
  | fuel + 1, number, now =>
    let a := Attempt.run p started number now (responses number)
    match a.verdict messages with
    | .final result => ⟨[a], a.ended, some result⟩
    | .retry error =>
      let next := p.resumeAt started a.ended number
      if p.isSpent started next then ⟨[a], next, some (.failed (p.exhausted number error))⟩
      else
        let rest := sendFrom p messages responses started fuel (number + 1) next
        { rest with attempts := a :: rest.attempts }

/-- As many attempts as have numbers of their own in 32 bits. -/
def maxAttempts : Nat := Nat.pow 2 32

def send [Clock.Timers] (p : RetryPolicy) (messages : Nat) (responses : Nat → Response)
    (started fuel : Nat) : Transcript :=
  sendFrom p messages responses started fuel 1 started

namespace Transcript

/-- What one attempt logs, apart from the end of the send. -/
def attemptLog (p : RetryPolicy) (messages started : Nat) (a : Attempt) : List LogEvent :=
  .sendAttempt (.ofNat a.number) messages ::
    match a.verdict messages with
    | .final _ => []
    | .retry error => p.retryLog started a.ended a.number error

def log (p : RetryPolicy) (messages started : Nat) (t : Transcript) : List LogEvent :=
  t.attempts.flatMap (attemptLog p messages started) ++
    match t.result with
    | some result => result.log t.attempts.length messages
    | none => []

def outcomes (messages : Nat) (t : Transcript) : List Outcome :=
  match t.result with
  | some result => result.outcomes messages
  | none => []

def counters (messages : Nat) (t : Transcript) : Counters :=
  let attempts := UInt64.ofNat t.attempts.length
  let counted : Counters := { sendAttempts := attempts, retries := attempts - 1 }
  match t.result with
  | some result => result.count messages counted
  | none => counted

end Transcript
end TopicPublisher
