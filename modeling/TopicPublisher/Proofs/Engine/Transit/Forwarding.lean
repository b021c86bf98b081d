import TopicPublisher.Proofs.Engine.Transit

/-!
How a batch is forwarded to the service: the task that sends it makes a call, waits, takes the
reply or the timeout of the call, pauses after a failure that may pass, and goes on or gives up.
-/

namespace TopicPublisher
namespace Transit

variable {σ τ : Type}

/-- What one turn of the task that sends a batch does to the transit. -/
inductive Forward (v : Service σ τ) (c : Config) (k : Transit σ τ) (s : Sending τ) :
    Transit σ τ → Prop where
  | call : s.phase = .ready → Forward v c k s (k.call v c s)
  | wait (wake alarm : Nat) : s.phase.wake? = some wake → k.now < wake →
      Forward v c k s (k.set { s with alarm := alarm })
  | settle (timeout : Duration) (limit : Nat) (answerAt : Option Nat) (call : τ)
      (reply : Option Reply) (service : σ) (result : SendResult) :
      s.phase = .calling timeout limit answerAt call →
      v.Ends k.service k.now limit answerAt call reply service →
      (replyOr timeout reply).verdict s.batch.size = .final result →
      Forward v c k s ((k.answer s service reply).finish s result)
  | fail (timeout : Duration) (limit : Nat) (answerAt : Option Nat) (call : τ)
      (reply : Option Reply) (service : σ) (error : TransportError) :
      s.phase = .calling timeout limit answerAt call →
      v.Ends k.service k.now limit answerAt call reply service →
      (replyOr timeout reply).verdict s.batch.size = .retry error →
      Forward v c k s ((k.answer s service reply).set
        { s with phase := .pausing (c.retries.resumeAt s.started k.now s.attempts) error })
  | resume (wake : Nat) (error : TransportError) : s.phase = .pausing wake error →
      wake ≤ k.now → c.retries.isSpent s.started k.now = false →
      Forward v c k s
        ({ k with counters := k.counters.countRetry }.set { s with phase := .ready })
  | exhaust (wake : Nat) (error : TransportError) : s.phase = .pausing wake error →
      wake ≤ k.now → c.retries.isSpent s.started k.now = true →
      Forward v c k s (k.finish s (.failed (c.retries.exhausted s.attempts error)))

end Transit

namespace Engine

open Transit (Forward)

variable {σ τ : Type} {v : Service σ τ} {c : Config} {e f : Engine σ τ} {s : Sending τ}

theorem transit_setSending (e : Engine σ τ) (s : Sending τ) :
    (e.setSending s).transit = e.transit.set s :=
  rfl

theorem transit_ended (e : Engine σ τ) (s : Sending τ) (result : SendResult) :
    transit { e with
      counters := result.count s.batch.size e.counters
      sends := e.sends.filter (·.id != s.id) } =
    { e.transit with
      counters := result.count s.batch.size e.transit.counters
      sends := e.transit.sends.filter (·.id != s.id) } := by
  cases result <;> rfl

theorem transit_endSending (e : Engine σ τ) (s : Sending τ) (result : SendResult) :
    (e.endSending s result).transit = e.transit.finish s result := by
  rw [endSending_eq, transit_wakeShutdowns, transit_resolveAll, transit_note, transit_ended, endOf,
    List.filter_append, inTransit_logs]
  rfl

/-- A turn of the task that sends a batch, as the transit sees it. -/
theorem SendingTurn.forward {again : Bool} (turn : SendingTurn v c e s (again, f)) :
    Forward v c e.transit s f.transit := by
  cases turn with
  | call timeout latency call service ready deadline started =>
    have forward : Forward v c e.transit s _ := .call ready
    rw [Transit.call, show e.transit.service = e.service from rfl, started] at forward
    rw [transit_setSending, transit_note, deadline]
    exact forward
  | wait wake waits early => exact .wait wake e.alarms waits early
  | settle timeout limit answerAt call reply service result phase ends final =>
    rw [transit_endSending, transit_note]
    exact .settle timeout limit answerAt call reply service result phase ends final
  | fail timeout limit answerAt call reply service error phase ends passes =>
    rw [transit_setSending, transit_note, List.filter_cons, inTransit_logs]
    exact .fail timeout limit answerAt call reply service error phase ends passes
  | resume wake error phase late left => exact .resume wake error phase late left
  | exhaust wake error phase late spent =>
    rw [transit_endSending]
    exact .exhaust wake error phase late spent

end Engine
end TopicPublisher
