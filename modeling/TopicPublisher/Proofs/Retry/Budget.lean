import TopicPublisher.Retry.Send
import Mathlib.Data.List.Chain

/-!
The budget of a send. Every wait is cut to what is left of the budget, and the clock rounds the
ends of waits up to whole milliseconds, so no wait passes the first whole millisecond at which
the budget is spent. Main statement: a send that runs out of budget ends in just that
millisecond, and any other send ends no later.
-/

namespace TopicPublisher

/-- A wait ends no later than the first whole millisecond after an instant that it does not
pass. -/
theorem Clock.wakeAfter_le [Timers] {now t : Nat} {d : Duration} (ends : instant now + d.nanos ≤ t)
    (far : representable t = true) : wakeAfter now d ≤ ceilMillis t := by
  have near : representable (instant now + d.nanos) = true := by
    simp only [representable, decide_eq_true_eq] at far ⊢
    exact Nat.lt_of_le_of_lt ends far
  rw [wakeAfter, if_pos near]
  unfold ceilMillis
  omega

namespace RetryPolicy

/-- The first reading at which nothing is left of the budget of a send. -/
def limit (p : RetryPolicy) (started : Nat) : Nat :=
  Clock.ceilMillis (Clock.instant started + p.totalTimeout.nanos)

/-- The end of the budget can be represented. -/
abbrev Bounded (p : RetryPolicy) (started : Nat) : Prop :=
  Clock.representable (Clock.instant started + p.totalTimeout.nanos) = true

variable {p : RetryPolicy} {started now number : Nat} {d : Duration}

theorem isSpent_iff_limit_le (later : started ≤ now) :
    p.isSpent started now = true ↔ p.limit started ≤ now := by
  rw [limit, Clock.ceilMillis_le_iff, isSpent_iff, remaining, Clock.elapsed, Duration.nanos_sub,
    Duration.nanos_ofMillis]
  unfold Clock.instant
  omega

theorem isSpent_started : p.isSpent started started = true ↔ p.totalTimeout.nanos = 0 := by
  rw [isSpent_iff, remaining, Clock.elapsed, Duration.nanos_sub, Duration.nanos_ofMillis,
    Nat.sub_self, Nat.zero_mul, Nat.sub_zero]

theorem isSpent_mono {later : Nat} (le : now ≤ later) (spent : p.isSpent started now = true) :
    p.isSpent started later = true := by
  rw [isSpent, decide_eq_true_eq, Duration.le_def, Clock.elapsed, Duration.nanos_ofMillis]
    at spent ⊢
  have more : (now - started) * 1000000 ≤ (later - started) * 1000000 :=
    Nat.mul_le_mul_right _ (Nat.sub_le_sub_right le _)
  exact Nat.le_trans spent more

theorem remaining_le (p : RetryPolicy) (started now : Nat) :
    (p.remaining started now).nanos ≤ p.totalTimeout.nanos :=
  Nat.sub_le ..

/-- What is left of the budget ends no earlier than the budget does. -/
theorem le_instant_add_remaining (after : started ≤ now) :
    Clock.instant started + p.totalTimeout.nanos ≤
      Clock.instant now + (p.remaining started now).nanos := by
  rw [remaining, Duration.nanos_sub, Clock.elapsed, Duration.nanos_ofMillis]
  unfold Clock.instant
  omega

/-- If anything is left of the budget, it ends where the budget does. -/
theorem instant_add_remaining (after : started ≤ now)
    (some : (p.remaining started now).nanos ≠ 0) :
    Clock.instant now + (p.remaining started now).nanos =
      Clock.instant started + p.totalTimeout.nanos := by
  rw [remaining, Duration.nanos_sub, Clock.elapsed, Duration.nanos_ofMillis] at some ⊢
  unfold Clock.instant
  omega

theorem elapsed_lt (unspent : p.isSpent started now = false) :
    Clock.elapsed started now < p.totalTimeout := by
  rw [isSpent, decide_eq_false_iff_not, Duration.le_def] at unspent
  exact Nat.lt_of_not_le unspent

variable [Clock.Timers]

/-- A wait that was cut to what is left of the budget ends within it. -/
theorem wakeAfter_le_limit (bounded : p.Bounded started) (later : started ≤ now)
    (unspent : p.isSpent started now = false)
    (cut : d.nanos ≤ (p.remaining started now).nanos) :
    Clock.wakeAfter now d ≤ p.limit started := by
  refine Clock.wakeAfter_le ?_ bounded
  have left := elapsed_lt unspent
  rw [Duration.lt_def, Clock.elapsed, Duration.nanos_ofMillis] at left
  rw [remaining, Clock.elapsed, Duration.nanos_sub, Duration.nanos_ofMillis] at cut
  unfold Clock.instant
  omega

theorem resumeAt_le_limit (bounded : p.Bounded started) (later : started ≤ now)
    (within : now ≤ p.limit started) (number : Nat) :
    p.resumeAt started now number ≤ p.limit started := by
  unfold resumeAt
  split
  · exact within
  · next left =>
    refine wakeAfter_le_limit bounded later ?_ (p.pause_le_remaining started now number)
    rw [Duration.isZero_iff, ← isSpent_iff] at left
    exact Bool.eq_false_iff.mpr left

end RetryPolicy

namespace Attempt

variable {p : RetryPolicy} {messages started number now : Nat}

theorem verdict_ne_exhausted {a : Attempt} {result : SendResult} {attempts : Nat}
    {budget : Duration} {error : TransportError} (h : a.verdict messages = .final result) :
    result ≠ .failed (.retryBudgetExhausted attempts budget error) := by
  unfold verdict Reply.verdict at h
  repeat' split at h
  all_goals cases h
  all_goals nofun

variable [Clock.Timers]

/-- An attempt of a send begins while some of the budget is left; neither the attempt nor the
pause after it lasts beyond the budget. -/
structure Within (p : RetryPolicy) (messages started : Nat) (a : Attempt) : Prop where
  began : Clock.elapsed started a.started < p.totalTimeout
  ended : a.ended ≤ p.limit started
  paused : ∀ error, a.verdict messages = .retry error →
    p.resumeAt started a.ended a.number ≤ p.limit started

theorem run_number (p : RetryPolicy) (started number now : Nat) (r : Response) :
    (run p started number now r).number = number := by
  unfold run
  dsimp only
  repeat' split
  all_goals rfl

theorem run_started (p : RetryPolicy) (started number now : Nat) (r : Response) :
    (run p started number now r).started = now := by
  unfold run
  dsimp only
  repeat' split
  all_goals rfl

/-- An attempt ends with its reply, and no later than with its timeout. -/
theorem run_ended (p : RetryPolicy) (started number now : Nat) (r : Response) :
    now ≤ (run p started number now r).ended ∧
      (run p started number now r).ended ≤
        Clock.wakeAfter now (p.attemptTimeout started now number) := by
  have limit := Clock.le_wakeAfter now (p.attemptTimeout started now number)
  unfold run
  dsimp only
  split
  · split
    · next inTime => exact ⟨Nat.le_add_right _ _, inTime⟩
    · exact ⟨limit, Nat.le_refl _⟩
  · exact ⟨limit, Nat.le_refl _⟩

theorem run_within (bounded : p.Bounded started) (later : started ≤ now)
    (unspent : p.isSpent started now = false) (messages number : Nat) (r : Response) :
    (run p started number now r).Within p messages started := by
  obtain ⟨after, before⟩ := run_ended p started number now r
  have ended : (run p started number now r).ended ≤ p.limit started :=
    Nat.le_trans before (RetryPolicy.wakeAfter_le_limit bounded later unspent
      (p.attemptTimeout_le_remaining started now number))
  refine ⟨?_, ended, fun _ _ => ?_⟩
  · rw [run_started]
    exact RetryPolicy.elapsed_lt unspent
  · exact RetryPolicy.resumeAt_le_limit bounded (Nat.le_trans later after) ended _

end Attempt

namespace Transcript

section

variable [Clock.Timers] {p : RetryPolicy} {messages started number now fuel : Nat}
  {responses : Nat → Response}

/-- A send keeps within its budget: all its attempts do, each of them starts when the pause after
the one before it ends, and the send is out of budget at the end of the budget and not before. -/
structure Within (p : RetryPolicy) (messages started : Nat) (t : Transcript) : Prop where
  attempts : ∀ a ∈ t.attempts, a.Within p messages started
  chained : t.attempts.IsChain fun a b => b.started = p.resumeAt started a.ended a.number
  ended : t.ended ≤ p.limit started
  exhausted : ∀ attempts budget error,
    t.result = some (.failed (.retryBudgetExhausted attempts budget error)) →
      t.ended = p.limit started

theorem sendFrom_head (p : RetryPolicy) (messages : Nat) (responses : Nat → Response)
    (started fuel number now : Nat) :
    ∀ a ∈ (sendFrom p messages responses started fuel number now).attempts.head?,
      a.started = now := by
  intro a ha
  unfold sendFrom at ha
  cases fuel with
  | zero => cases ha
  | succ fuel =>
    dsimp only at ha
    repeat' split at ha
    all_goals
      obtain rfl := Option.some.inj ha
      exact Attempt.run_started ..

/-- The rest of a send keeps within the budget if some of it is left when the rest begins. -/
theorem sendFrom_within (bounded : p.Bounded started) (later : started ≤ now)
    (unspent : p.isSpent started now = false) :
    (sendFrom p messages responses started fuel number now).Within p messages started := by
  induction fuel generalizing number now with
  | zero =>
    refine ⟨nofun, .nil, ?_, nofun⟩
    have early := mt (RetryPolicy.isSpent_iff_limit_le later).mpr (Bool.eq_false_iff.mp unspent)
    exact Nat.le_of_not_le early
  | succ fuel ih =>
    have attempt := Attempt.run_within bounded later unspent messages number (responses number)
    have after := (Attempt.run_ended p started number now (responses number)).1
    have numbered := Attempt.run_number p started number now (responses number)
    unfold sendFrom
    extract_lets a next rest
    split
    next result final =>
      refine ⟨?_, .singleton _, attempt.ended, ?_⟩
      · exact fun b hb => List.mem_singleton.mp hb ▸ attempt
      · intro _ _ _ h
        exact absurd (Option.some.inj h) (Attempt.verdict_ne_exhausted final)
    next error again =>
      have paused := attempt.paused error again
      rw [numbered] at paused
      have resumes : started ≤ next :=
        Nat.le_trans (Nat.le_trans later after) (p.le_resumeAt started a.ended number)
      split
      next spent =>
        refine ⟨?_, .singleton _, paused, fun _ _ _ _ => ?_⟩
        · exact fun b hb => List.mem_singleton.mp hb ▸ attempt
        · exact Nat.le_antisymm paused ((RetryPolicy.isSpent_iff_limit_le resumes).mp spent)
      next left =>
        have others : rest.Within p messages started :=
          ih resumes (Bool.eq_false_iff.mpr left)
        refine ⟨?_, ?_, others.ended, others.exhausted⟩
        · intro b hb
          rcases List.mem_cons.mp hb with rfl | hb
          · exact attempt
          · exact others.attempts b hb
        · refine List.isChain_cons.mpr ⟨fun b hb => ?_, others.chained⟩
          rw [sendFrom_head _ _ _ _ _ _ _ b hb, numbered]

/-- A send with a budget, whose end the clock can represent, keeps to it exactly, however the
service behaves and whatever the delays and timeouts of its policy are. Every attempt starts
while less than the budget has passed; no attempt, and no pause before the next one, lasts beyond
the first whole millisecond at or after the end of the budget; the send fails for want of budget
in just this millisecond, and ends in no other way later than then. -/
theorem send_within_budget (budget : 0 < p.totalTimeout.nanos)
    (bounded : Clock.representable (Clock.instant started + p.totalTimeout.nanos) = true) :
    (∀ a ∈ (send p messages responses started fuel).attempts,
        Clock.elapsed started a.started < p.totalTimeout ∧ a.ended ≤ p.limit started ∧
          ∀ error, a.verdict messages = .retry error →
            p.resumeAt started a.ended a.number ≤ p.limit started) ∧
      (send p messages responses started fuel).attempts.IsChain
        (fun a b => b.started = p.resumeAt started a.ended a.number) ∧
      (∀ attempts total error, (send p messages responses started fuel).result =
          some (.failed (.retryBudgetExhausted attempts total error)) →
        (send p messages responses started fuel).ended = p.limit started) ∧
      (send p messages responses started fuel).ended ≤ p.limit started := by
  have unspent : p.isSpent started started = false :=
    Bool.eq_false_iff.mpr fun spent =>
      Nat.ne_of_gt budget (RetryPolicy.isSpent_started.mp spent)
  have within : (send p messages responses started fuel).Within p messages started :=
    sendFrom_within bounded (Nat.le_refl _) unspent
  refine ⟨fun a ha => ?_, within.chained, within.exhausted, within.ended⟩
  have attempt := within.attempts a ha
  exact ⟨attempt.began, attempt.ended, attempt.paused⟩

end

/-- A budget that ends in the middle of a millisecond, spent on two calls that are never
answered. -/
theorem send_within_budget_two_timeouts :
    ∃ p : RetryPolicy, p.totalTimeout = ⟨100500000⟩ ∧
      ((send p 1 (fun _ => ⟨none, .crash⟩) 7 5).attempts.map fun a => (a.started, a.ended)) =
        [(7, 37), (77, 107)] ∧
      (send p 1 (fun _ => ⟨none, .crash⟩) 7 5).ended = 108 ∧
      (∀ attempts total error, (send p 1 (fun _ => ⟨none, .crash⟩) 7 5).result =
          some (.failed (.retryBudgetExhausted attempts total error)) →
        (send p 1 (fun _ => ⟨none, .crash⟩) 7 5).ended = p.limit 7) ∧
      (send p 1 (fun _ => ⟨none, .crash⟩) 7 5).result.isSome = true := by
  let p : RetryPolicy := {
    totalTimeout := ⟨100500000⟩
    initialDelay := .ofMillis 40
    initialRpcTimeout := .ofMillis 30
    maxRpcTimeout := .ofMillis 30 }
  have budget : 0 < p.totalTimeout.nanos := by decide
  have bounded : Clock.representable (Clock.instant 7 + p.totalTimeout.nanos) = true := by decide
  exact ⟨p, rfl, by decide, by decide, (send_within_budget budget bounded).2.2.1, by decide⟩

end Transcript
end TopicPublisher
