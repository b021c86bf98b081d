import TopicPublisher.Proofs.Retry.Budget

/-!
The pace of a send. A pause that leaves some of the budget was not cut, so it took the whole of
its delay. If the first delays add up to more than the budget, a send makes no more attempts than
these.
-/

namespace TopicPublisher
namespace RetryPolicy

variable {p : RetryPolicy} {started now number : Nat}

/-- The delays after some number of attempts, all in all. -/
def paused (p : RetryPolicy) (attempts : Nat) : Nat :=
  total (fun step => (p.delays.value step).nanos) (List.range attempts)

theorem paused_succ (p : RetryPolicy) (attempts : Nat) :
    p.paused (attempts + 1) = p.paused attempts + (p.delays.value attempts).nanos := by
  rw [paused, List.range_succ, total, List.map_append, List.sum_append_nat]
  rfl

theorem paused_mono (p : RetryPolicy) {first attempts : Nat} (le : first ≤ attempts) :
    p.paused first ≤ p.paused attempts := by
  induction le with
  | refl => exact Nat.le_refl _
  | step _ ih =>
    rw [paused_succ]
    exact Nat.le_add_right_of_le ih

def Tires (p : RetryPolicy) (attempts : Nat) : Prop :=
  p.totalTimeout.nanos < p.paused attempts

/-- A send that has waited for all its delays, and is still within its budget, has not made as
many attempts as tire it. -/
theorem Tires.lt {most attempts : Nat} (tires : p.Tires most)
    (waited : Clock.instant started + p.paused attempts ≤ Clock.instant now)
    (fresh : Clock.instant now ≤ Clock.instant started + p.totalTimeout.nanos) :
    attempts < most := by
  refine Nat.lt_of_not_le fun many => ?_
  have longer := p.paused_mono many
  unfold Tires at tires
  omega

/-- After the pause that follows an attempt nothing is left of the budget, or the whole delay has
passed. -/
theorem resumeAt_spent_or_waited [Clock.Timers]
    (short : p.totalTimeout ≤ .ofMillis Clock.Timers.farFuture) (after : started ≤ now)
    (number : Nat) :
    p.isSpent started (p.resumeAt started now number) = true ∨
      Clock.instant now + (p.delays.value (number - 1)).nanos ≤
        Clock.instant (p.resumeAt started now number) := by
  have resumes := p.le_resumeAt started now number
  by_cases left : (p.remaining started now).nanos = 0
  · exact .inl (isSpent_mono resumes ((isSpent_iff ..).mpr left))
  have pauses : p.resumeAt started now number =
      Clock.wakeAfter now (p.pause started now number) :=
    if_neg fun zero => left ((Duration.isZero_iff _).mp zero)
  cases near : Clock.representable
      (Clock.instant now + (p.pause started now number).nanos) with
  | false =>
    -- The pause lasts longer than the budget.
    refine .inl ?_
    rw [pauses, Clock.wakeAfter_far near, isSpent, decide_eq_true_eq, Duration.le_def,
      Clock.elapsed, Duration.nanos_ofMillis]
    rw [Duration.le_def, Duration.nanos_ofMillis] at short
    refine Nat.le_trans short (Nat.mul_le_mul_right _ ?_)
    omega
  | true =>
    have ends : Clock.instant now + (p.pause started now number).nanos ≤
        Clock.instant (p.resumeAt started now number) := by
      rw [← Clock.ceilMillis_le_iff, pauses, Clock.wakeAfter_near near]
    rw [pause, Duration.nanos_min] at ends
    by_cases whole : (p.delays.value (number - 1)).nanos ≤ (p.remaining started now).nanos
    · rw [Nat.min_eq_left whole] at ends
      exact .inr ends
    · rw [Nat.min_eq_right (Nat.le_of_not_le whole), instant_add_remaining after left] at ends
      refine .inl ((isSpent_iff_limit_le (Nat.le_trans after resumes)).mpr ?_)
      exact (Clock.ceilMillis_le_iff _ _).mpr ends

/-- The delays of the default policy use up its minute in fourteen attempts. -/
theorem tires_default : ({} : RetryPolicy).Tires 14 := by
  unfold Tires
  decide

end RetryPolicy
end TopicPublisher
