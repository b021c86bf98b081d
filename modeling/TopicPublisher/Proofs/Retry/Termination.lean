import TopicPublisher.Proofs.Retry.Opening

/-!
The number of attempts. Nothing but the clock ends a send whose attempts all fail, and an attempt
may take no time at all. But the pause after it is rounded up to whole milliseconds, so a send
with delays makes at most one attempt in each millisecond of its budget, and then it is over.
-/

namespace TopicPublisher

theorem Clock.lt_wakeAfter [Timers] {now : Nat} {d : Duration} (long : 0 < d.nanos) :
    now < wakeAfter now d := by
  have far := Timers.farFuture_pos
  unfold wakeAfter ceilMillis instant
  split <;> omega

theorem floatPow_one (exponent : Nat) : floatPow 1.0 exponent = 1.0 := by
  have one : (1.0 : Float) * 1.0 = 1.0 := rfl
  have bits : ∀ bits exponent, floatPowBits bits exponent 1.0 1.0 = 1.0 := by
    intro bits
    induction bits with
    | zero =>
      intro exponent
      rw [floatPowBits, one, ite_self]
    | succ bits ih =>
      intro exponent
      rw [floatPowBits, one, ite_self, ih]
  exact bits _ _

theorem Backoff.value_steady (initial cap : Duration) (step : Nat) :
    (Backoff.mk initial (.ofFloat 1.0) cap).value step =
      (Backoff.mk initial (.ofFloat 1.0) cap).value 0 := by
  have one : (Binary64.ofFloat 1.0).toFloat = 1.0 := rfl
  simp only [value, one, floatPow_one]

namespace RetryPolicy

variable {p : RetryPolicy} {started now : Nat}

def Pauses (p : RetryPolicy) : Prop :=
  ∀ step, 0 < (p.delays.value step).nanos

/-- The whole milliseconds of the budget, the last one included where it is not whole. -/
def millis (p : RetryPolicy) : Nat :=
  Clock.ceilMillis p.totalTimeout.nanos

theorem isSpent_iff_millis_le :
    p.isSpent started now = true ↔ p.millis ≤ now - started := by
  rw [isSpent, decide_eq_true_eq, Duration.le_def, millis, Clock.ceilMillis_le_iff]
  rfl

theorem lt_millis (unspent : p.isSpent started now = false) : now - started < p.millis :=
  Nat.lt_of_not_le (mt isSpent_iff_millis_le.mpr (Bool.eq_false_iff.mp unspent))

theorem Pauses.lt_resumeAt [Clock.Timers] (pauses : p.Pauses) (number : Nat)
    (unspent : p.isSpent started (p.resumeAt started now number) = false) :
    now < p.resumeAt started now number := by
  have left : p.isSpent started now = false :=
    Bool.eq_false_iff.mpr fun spent =>
      Bool.eq_false_iff.mp unspent (isSpent_mono (p.le_resumeAt started now number) spent)
  have some : (p.remaining started now).nanos ≠ 0 :=
    fun none => Bool.eq_false_iff.mp left ((isSpent_iff ..).mpr none)
  rw [resumeAt, if_neg fun zero => some ((Duration.isZero_iff _).mp zero)]
  refine Clock.lt_wakeAfter ?_
  rw [pause, Duration.nanos_min]
  exact Nat.lt_min.mpr ⟨pauses _, Nat.pos_of_ne_zero some⟩

end RetryPolicy

namespace Transcript

section

variable [Clock.Timers] {p : RetryPolicy} {messages started number now fuel : Nat}
  {responses : Nat → Response}

/-- With its next attempt a send is over, or it goes on in a later millisecond while some of the
budget is left. -/
theorem sendFrom_cases (pauses : p.Pauses) (messages : Nat) (responses : Nat → Response)
    (started number now : Nat) :
    (∃ last, last.attempts.length = 1 ∧ last.result.isSome = true ∧
      ∀ fuel, sendFrom p messages responses started (fuel + 1) number now = last) ∨
    ∃ a next, now < next ∧ p.isSpent started next = false ∧
      ∀ fuel, sendFrom p messages responses started (fuel + 1) number now =
        (sendFrom p messages responses started fuel (number + 1) next).after [a] := by
  have after := (Attempt.run_ended p started number now (responses number)).1
  simp only [sendFrom]
  generalize Attempt.run p started number now (responses number) = a at after
  cases a.verdict messages with
  | final result => exact .inl ⟨⟨[a], a.ended, some result⟩, rfl, rfl, fun _ => rfl⟩
  | retry error =>
    dsimp only
    cases unspent : p.isSpent started (p.resumeAt started a.ended number) with
    | true => exact .inl ⟨⟨[a], _, some _⟩, rfl, rfl, fun _ => rfl⟩
    | false =>
      have later := Nat.lt_of_le_of_lt after (pauses.lt_resumeAt number unspent)
      exact .inr ⟨a, _, later, unspent, fun _ => rfl⟩

theorem sendFrom_attempts_le (pauses : p.Pauses) (after : started ≤ now)
    (unspent : p.isSpent started now = false) :
    (sendFrom p messages responses started fuel number now).attempts.length ≤
      p.millis - (now - started) := by
  induction fuel generalizing number now with
  | zero => exact Nat.zero_le _
  | succ fuel ih =>
    have room := RetryPolicy.lt_millis unspent
    obtain ⟨last, single, -, ends⟩ | ⟨a, next, later, left, goes⟩ :=
      sendFrom_cases pauses messages responses started number now
    · rw [ends, single]
      omega
    · have rest : (sendFrom p messages responses started fuel (number + 1) next).attempts.length ≤
          p.millis - (next - started) := ih (Nat.le_trans after (Nat.le_of_lt later)) left
      have fewer := RetryPolicy.lt_millis left
      rw [goes]
      calc (([a] ++ (sendFrom p messages responses started fuel (number + 1) next).attempts).length)
          = (sendFrom p messages responses started fuel (number + 1) next).attempts.length + 1 :=
            rfl
        _ ≤ p.millis - (next - started) + 1 := Nat.succ_le_succ rest
        _ ≤ p.millis - (now - started) := by omega

/-- So many attempts as there are milliseconds to come end the send, whatever fuel is left. -/
theorem sendFrom_over (pauses : p.Pauses) (after : started ≤ now)
    (unspent : p.isSpent started now = false) (enough : p.millis ≤ now - started + fuel)
    (extra : Nat) :
    (sendFrom p messages responses started fuel number now).result.isSome = true ∧
      sendFrom p messages responses started (fuel + extra) number now =
        sendFrom p messages responses started fuel number now := by
  induction fuel generalizing number now with
  | zero => exact absurd enough (Nat.not_le.mpr (RetryPolicy.lt_millis unspent))
  | succ fuel ih =>
    have more : fuel + 1 + extra = fuel + extra + 1 := by omega
    rw [more]
    obtain ⟨last, -, ended, ends⟩ | ⟨a, next, later, left, goes⟩ :=
      sendFrom_cases pauses messages responses started number now
    · rw [ends, ends]
      exact ⟨ended, rfl⟩
    · rw [goes, goes]
      have plenty : p.millis ≤ next - started + fuel := by omega
      obtain ⟨ended, same⟩ : (sendFrom p messages responses started fuel (number + 1)
          next).result.isSome = true ∧ _ :=
        ih (Nat.le_trans after (Nat.le_of_lt later)) left plenty
      rw [same]
      exact ⟨ended, rfl⟩

/-- A send with a budget and without zero delays ends, whatever the service does, and calls it no
more often than there are milliseconds in the budget, rounded up. -/
theorem send_terminates (budget : 0 < p.totalTimeout.nanos)
    (pauses : ∀ step, 0 < (p.delays.value step).nanos) :
    (∀ fuel, (send p messages responses started fuel).attempts.length ≤
        Clock.ceilMillis p.totalTimeout.nanos) ∧
      ∀ fuel, Clock.ceilMillis p.totalTimeout.nanos ≤ fuel →
        (send p messages responses started fuel).result.isSome = true ∧
        send p messages responses started fuel =
          send p messages responses started (Clock.ceilMillis p.totalTimeout.nanos) := by
  have unspent : p.isSpent started started = false :=
    Bool.eq_false_iff.mpr fun spent =>
      Nat.ne_of_gt budget (RetryPolicy.isSpent_started.mp spent)
  have whole : p.millis ≤ started - started + p.millis := Nat.le_add_left ..
  refine ⟨fun fuel => ?_, fun fuel enough => ?_⟩
  · exact Nat.le_trans (sendFrom_attempts_le pauses (Nat.le_refl _) unspent) (Nat.sub_le ..)
  · obtain ⟨extra, rfl⟩ := Nat.exists_eq_add_of_le enough
    obtain ⟨ended, same⟩ : (send p messages responses started p.millis).result.isSome = true ∧
        send p messages responses started (p.millis + extra) =
          send p messages responses started p.millis :=
      sendFrom_over pauses (Nat.le_refl _) unspent whole extra
    exact ⟨same ▸ ended, same⟩

end

/-- A service that fails at once, for a policy with the shortest of delays and a budget of two and
a half milliseconds. -/
theorem send_terminates_three_attempts :
    ∃ p : RetryPolicy, p.totalTimeout = ⟨2500000⟩ ∧ p.initialDelay = ⟨1⟩ ∧
      (0 < p.totalTimeout.nanos ∧ ∀ step, 0 < (p.delays.value step).nanos) ∧
      ((send p 1 (fun _ => ⟨some 0, .failure ⟨.unavailable, ""⟩⟩) 7 9).attempts.map
        Attempt.started = [7, 8, 9]) ∧
      ∀ fuel, Clock.ceilMillis p.totalTimeout.nanos ≤ fuel →
        (send p 1 (fun _ => ⟨some 0, .failure ⟨.unavailable, ""⟩⟩) 7 fuel).result.isSome =
          true := by
  let p : RetryPolicy := {
    totalTimeout := ⟨2500000⟩
    initialDelay := ⟨1⟩
    delayMultiplier := .ofFloat 1.0 }
  have budget : 0 < p.totalTimeout.nanos := by decide
  have pauses : ∀ step, 0 < (p.delays.value step).nanos := by
    intro step
    have first : 0 < (p.delays.value 0).nanos := by decide
    exact Nat.lt_of_lt_of_eq first (congrArg _ (Backoff.value_steady _ _ step).symm)
  exact ⟨p, rfl, rfl, ⟨budget, pauses⟩, by decide,
    fun fuel enough => ((send_terminates budget pauses).2 fuel enough).1⟩

end Transcript
end TopicPublisher
