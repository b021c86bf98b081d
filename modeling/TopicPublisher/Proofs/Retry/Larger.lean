import TopicPublisher.Proofs.Retry.Budget

/-!
Two sends that differ in their budgets. Every wait of a send is cut to what is left of its budget,
but a wait that is cut in earnest uses up the budget, and ends the send for want of it. So a send
that ends in another way goes just the same with a larger budget.

All that this asks of the timers is that a wait for the far future, which a larger budget may put
in the place of a shorter wait, is not over too soon.
-/

namespace TopicPublisher

def SendResult.IsExhausted (result : SendResult) : Prop :=
  ∃ attempts budget error, result = .failed (.retryBudgetExhausted attempts budget error)

namespace RetryPolicy

def withBudget (p : RetryPolicy) (budget : Duration) : RetryPolicy :=
  { p with totalTimeout := budget }

variable {p : RetryPolicy} {budget d : Duration} {started now number latency : Nat}

theorem withBudget_isSpent (le : p.totalTimeout ≤ budget)
    (unspent : p.isSpent started now = false) :
    (p.withBudget budget).isSpent started now = false := by
  rw [isSpent, decide_eq_false_iff_not, Duration.le_def] at unspent ⊢
  exact fun spent => unspent (Nat.le_trans le spent)

theorem withBudget_remaining (le : p.totalTimeout ≤ budget) (started now : Nat) :
    (p.remaining started now).nanos ≤ ((p.withBudget budget).remaining started now).nanos :=
  Nat.sub_le_sub_right le _

theorem withBudget_min (le : p.totalTimeout ≤ budget) (d : Duration) (started now : Nat) :
    (min d (p.remaining started now)).nanos ≤
      (min d ((p.withBudget budget).remaining started now)).nanos := by
  have more := withBudget_remaining le started now
  rw [Duration.nanos_min, Duration.nanos_min]
  omega

theorem withBudget_far (le : p.totalTimeout ≤ budget) (after : started ≤ now)
    (near : Clock.representable
      (Clock.instant now + (min d (p.remaining started now)).nanos) = true)
    (far : Clock.representable
      (Clock.instant now + (min d ((p.withBudget budget).remaining started now)).nanos) = false) :
    p.Bounded started ∧ ¬ (p.withBudget budget).Bounded started := by
  have more := withBudget_remaining le started now
  rw [Duration.nanos_min] at near far
  have longer : min d.nanos (p.remaining started now).nanos <
      min d.nanos ((p.withBudget budget).remaining started now).nanos := by
    refine Nat.lt_of_not_le fun shorter => Bool.eq_false_iff.mp far ?_
    exact Clock.representable_mono (Nat.add_le_add_left shorter _) near
  constructor
  · rw [Nat.min_eq_right (by omega)] at near
    exact Clock.representable_mono (le_instant_add_remaining after) near
  · refine fun bounded => Bool.eq_false_iff.mp far (Clock.representable_mono ?_ bounded)
    rw [← instant_add_remaining after (by omega)]
    exact Nat.add_le_add_left (Nat.min_le_right _ _) _

variable [Clock.Timers]

/-- If the clock can represent the end of the budget and not that of a larger one, a wait for the
far future lasts as long as the smaller budget, or as long as every reply takes. -/
def FarEnough (p : RetryPolicy) (budget : Duration) (started : Nat) (responses : Nat → Response) :
    Prop :=
  p.Bounded started → ¬ (p.withBudget budget).Bounded started →
    p.totalTimeout ≤ .ofMillis Clock.Timers.farFuture ∨
      ∀ number latency, (responses number).latency = some latency →
        latency ≤ Clock.Timers.farFuture

/-- A wait that was cut to what is left of the budget and does not use it up lasts as long with a
larger budget. -/
theorem withBudget_wakeAfter (le : p.totalTimeout ≤ budget) (after : started ≤ now)
    (unspent : p.isSpent started (Clock.wakeAfter now (min d (p.remaining started now))) = false) :
    Clock.wakeAfter now (min d ((p.withBudget budget).remaining started now)) =
      Clock.wakeAfter now (min d (p.remaining started now)) := by
  have more := withBudget_remaining le started now
  by_cases whole : d.nanos ≤ (p.remaining started now).nanos
  · have same : min d ((p.withBudget budget).remaining started now) =
        min d (p.remaining started now) := by
      refine congrArg Duration.mk ?_
      exact (Nat.min_eq_left (Nat.le_trans whole more)).trans (Nat.min_eq_left whole).symm
    rw [same]
  · -- The wait would have used up the budget if the clock could represent its end.
    have cut : (min d (p.remaining started now)).nanos = (p.remaining started now).nanos :=
      Nat.min_eq_right (Nat.le_of_not_le whole)
    have before := Clock.le_wakeAfter now (min d (p.remaining started now))
    have left : (p.remaining started now).nanos ≠ 0 := fun none =>
      Bool.eq_false_iff.mp unspent (isSpent_mono before ((isSpent_iff ..).mpr none))
    have far : Clock.representable
        (Clock.instant now + (min d (p.remaining started now)).nanos) = false := by
      refine Bool.eq_false_iff.mpr fun near => Bool.eq_false_iff.mp unspent ?_
      refine (isSpent_iff_limit_le (Nat.le_trans after before)).mpr (Nat.le_of_eq ?_)
      rw [Clock.wakeAfter_near near, cut, instant_add_remaining after left, limit]
    have farther := mt (Clock.representable_mono (Nat.add_le_add_left
      (withBudget_min le d started now) (Clock.instant now))) (Bool.eq_false_iff.mp far)
    rw [Clock.wakeAfter_far far, Clock.wakeAfter_far (Bool.eq_false_iff.mpr farther)]

theorem FarEnough.inTime {responses : Nat → Response}
    (farEnough : p.FarEnough budget started responses) (le : p.totalTimeout ≤ budget)
    (after : started ≤ now)
    (answers : (responses number).latency = some latency)
    (inTime : now + latency ≤ Clock.wakeAfter now (min d (p.remaining started now))) :
    now + latency ≤ Clock.wakeAfter now (min d ((p.withBudget budget).remaining started now)) := by
  have more := withBudget_min le d started now
  cases far : Clock.representable (Clock.instant now +
      (min d ((p.withBudget budget).remaining started now)).nanos) with
  | true =>
    have near := Clock.representable_mono (Nat.add_le_add_left more (Clock.instant now)) far
    rw [Clock.wakeAfter_near near] at inTime
    rw [Clock.wakeAfter_near far]
    exact Nat.le_trans inTime (Clock.ceilMillis_mono (Nat.add_le_add_left more _))
  | false =>
    rw [Clock.wakeAfter_far far]
    cases near : Clock.representable
        (Clock.instant now + (min d (p.remaining started now)).nanos) with
    | false =>
      rw [Clock.wakeAfter_far near] at inTime
      exact inTime
    | true =>
      obtain ⟨bounded, unbounded⟩ := withBudget_far le after near far
      rcases farEnough bounded unbounded with short | quick
      · rw [Clock.wakeAfter_near near] at inTime
        refine Nat.le_trans inTime ((Clock.ceilMillis_le_iff ..).mpr ?_)
        have left := p.remaining_le started now
        rw [Duration.le_def, Duration.nanos_ofMillis] at short
        rw [Duration.nanos_min]
        unfold Clock.instant
        omega
      · exact Nat.add_le_add_left (quick number latency answers) now

theorem withBudget_resumeAt (le : p.totalTimeout ≤ budget) (after : started ≤ now)
    (unspent : p.isSpent started (p.resumeAt started now number) = false) :
    (p.withBudget budget).resumeAt started now number = p.resumeAt started now number := by
  have left : (p.remaining started now).nanos ≠ 0 := fun none =>
    Bool.eq_false_iff.mp unspent
      (isSpent_mono (p.le_resumeAt started now number) ((isSpent_iff ..).mpr none))
  have more := withBudget_remaining le started now
  have pauses : p.resumeAt started now number =
      Clock.wakeAfter now (min (p.delays.value (number - 1)) (p.remaining started now)) :=
    if_neg fun zero => left ((Duration.isZero_iff _).mp zero)
  rw [pauses] at unspent ⊢
  rw [resumeAt, if_neg, pause]
  · exact withBudget_wakeAfter le after unspent
  · rw [Duration.isZero_iff]
    omega

end RetryPolicy

variable {p : RetryPolicy} {budget : Duration} {messages started number now fuel : Nat}
  {responses : Nat → Response} {result : SendResult} {a b : Attempt}

namespace Attempt

/-- What an attempt came to, apart from the timeout that it had. -/
def course (a : Attempt) : Nat × Nat × Nat × Option Reply := (a.number, a.started, a.ended, a.reply)

theorem reply_eq {a b : Attempt} (same : b.course = a.course) : b.reply = a.reply :=
  congrArg (fun course => course.2.2.2) same

theorem ended_eq {a b : Attempt} (same : b.course = a.course) : b.ended = a.ended :=
  congrArg (fun course => course.2.2.1) same

theorem run_cases [Clock.Timers] (p : RetryPolicy) (started number now : Nat) (r : Response) :
    (∃ latency, r.latency = some latency ∧
        now + latency ≤ Clock.wakeAfter now (p.attemptTimeout started now number) ∧
        (run p started number now r).course = (number, now, now + latency, some r.reply)) ∨
      (∀ latency, r.latency = some latency →
        ¬ now + latency ≤ Clock.wakeAfter now (p.attemptTimeout started now number)) ∧
        (run p started number now r).course =
          (number, now, Clock.wakeAfter now (p.attemptTimeout started now number), none) := by
  unfold run
  dsimp only
  cases answers : r.latency with
  | none => exact .inr ⟨nofun, rfl⟩
  | some latency =>
    dsimp only
    split
    · next inTime => exact .inl ⟨latency, rfl, inTime, rfl⟩
    · next late => exact .inr ⟨fun _ same => Option.some.inj same ▸ late, rfl⟩

theorem run_withBudget [Clock.Timers] (le : p.totalTimeout ≤ budget) (after : started ≤ now)
    (farEnough : p.FarEnough budget started responses)
    (unspent : (run p started number now (responses number)).reply = none →
      p.isSpent started (run p started number now (responses number)).ended = false) :
    (run (p.withBudget budget) started number now (responses number)).course =
      (run p started number now (responses number)).course := by
  rcases run_cases p started number now (responses number) with
    ⟨latency, answers, inTime, same⟩ | ⟨late, same⟩
  · have inTime := farEnough.inTime le after answers inTime
    rcases run_cases (p.withBudget budget) started number now (responses number) with
      ⟨other, again, -, longer⟩ | ⟨late, -⟩
    · obtain rfl := Option.some.inj (answers.symm.trans again)
      rw [same, longer]
    · exact absurd inTime (late latency answers)
  · have replied : (run p started number now (responses number)).reply = none :=
      congrArg (fun course => course.2.2.2) same
    have ended : (run p started number now (responses number)).ended = _ :=
      congrArg (fun course => course.2.2.1) same
    have timeout := RetryPolicy.withBudget_wakeAfter le after (ended ▸ unspent replied)
    rcases run_cases (p.withBudget budget) started number now (responses number) with
      ⟨latency, answers, inTime, -⟩ | ⟨-, longer⟩
    · exact absurd (Nat.le_trans inTime (Nat.le_of_eq timeout)) (late latency answers)
    · rw [same, longer]
      exact congrArg (fun limit => (number, now, limit, none)) timeout

theorem verdict_unanswered (none : a.reply = none) :
    a.verdict messages = .retry (.timedOut a.timeout) := by
  rw [verdict, none]
  rfl

/-- Attempts with the same reply are both the last one, or neither is. -/
theorem verdict_same (same : b.reply = a.reply) :
    (∀ result, a.verdict messages = .final result → b.verdict messages = .final result) ∧
      ∀ error, a.verdict messages = .retry error → ∃ other, b.verdict messages = .retry other := by
  cases replied : a.reply with
  | none =>
    rw [verdict_unanswered replied, verdict_unanswered (same.trans replied)]
    exact ⟨nofun, fun _ _ => ⟨_, rfl⟩⟩
  | some reply =>
    have equal : b.verdict messages = a.verdict messages := by
      rw [verdict, verdict, same, replied]
      rfl
    rw [equal]
    exact ⟨fun _ final => final, fun error again => ⟨error, again⟩⟩

end Attempt

namespace Transcript

section

variable [Clock.Timers]

theorem sendFrom_withBudget (le : p.totalTimeout ≤ budget)
    (farEnough : p.FarEnough budget started responses) (after : started ≤ now)
    (ends : (sendFrom p messages responses started fuel number now).result = some result)
    (decided : ¬ result.IsExhausted) :
    (sendFrom (p.withBudget budget) messages responses started fuel number now).result =
        some result ∧
      (sendFrom (p.withBudget budget) messages responses started fuel number now).ended =
        (sendFrom p messages responses started fuel number now).ended ∧
      (sendFrom (p.withBudget budget) messages responses started fuel number now).attempts.map
          Attempt.course =
        (sendFrom p messages responses started fuel number now).attempts.map Attempt.course := by
  induction fuel generalizing number now with
  | zero => cases ends
  | succ fuel ih =>
    unfold sendFrom at ends ⊢
    extract_lets a next rest at ends
    extract_lets b later longer
    have began := (Attempt.run_ended p started number now (responses number)).1
    cases verdict : a.verdict messages with
    | final last =>
      have course : b.course = a.course := by
        refine Attempt.run_withBudget le after farEnough fun none => ?_
        cases verdict.symm.trans (Attempt.verdict_unanswered none)
      rw [verdict] at ends
      rw [(Attempt.verdict_same (Attempt.reply_eq course)).1 last verdict]
      exact ⟨ends, Attempt.ended_eq course, congrArg (fun course => [course]) course⟩
    | retry error =>
      simp only [verdict] at ends ⊢
      by_cases spent : p.isSpent started next = true
      · -- The send is out of budget.
        rw [if_pos spent] at ends
        exact absurd ⟨_, _, _, (Option.some.inj ends).symm⟩ decided
      rw [if_neg spent] at ends ⊢
      have left : p.isSpent started next = false := Bool.eq_false_iff.mpr spent
      have resumes : a.ended ≤ next := p.le_resumeAt started a.ended number
      have course : b.course = a.course := Attempt.run_withBudget le after farEnough fun _ =>
        Bool.eq_false_iff.mpr fun early => spent (RetryPolicy.isSpent_mono resumes early)
      have same : later = next :=
        (congrArg (fun now => (p.withBudget budget).resumeAt started now number)
          (Attempt.ended_eq course)).trans
          (RetryPolicy.withBudget_resumeAt le (Nat.le_trans after began) left)
      have onward : longer =
          sendFrom (p.withBudget budget) messages responses started fuel (number + 1) next :=
        congrArg (sendFrom _ messages responses started fuel (number + 1)) same
      obtain ⟨other, again⟩ := (Attempt.verdict_same (Attempt.reply_eq course)).2 error verdict
      simp only [again]
      have longer_left := RetryPolicy.withBudget_isSpent le left
      rw [if_neg (same ▸ Bool.eq_false_iff.mp longer_left)]
      obtain ⟨result, stop, attempts⟩ :=
        ih (Nat.le_trans (Nat.le_trans after began) resumes) ends
      rw [← onward] at result stop attempts
      refine ⟨result, stop, ?_⟩
      rw [List.map_cons, List.map_cons, course]
      exact congrArg _ attempts

/-- A send that ends otherwise than for want of budget goes the same with a larger budget: its
handles have the same outcomes, and it makes as many attempts, which begin and end when they did.
This holds for every batch and all replies, on all timers that have the far future far enough
off. -/
theorem send_larger_budget (le : p.totalTimeout ≤ budget)
    (farEnough : p.FarEnough budget started responses)
    (ends : (send p messages responses started fuel).result = some result)
    (decided : ¬ result.IsExhausted) :
    (send (p.withBudget budget) messages responses started fuel).result = some result ∧
      (send (p.withBudget budget) messages responses started fuel).outcomes messages =
        (send p messages responses started fuel).outcomes messages ∧
      (send (p.withBudget budget) messages responses started fuel).attempts.length =
        (send p messages responses started fuel).attempts.length ∧
      ((send (p.withBudget budget) messages responses started fuel).attempts.map fun a =>
          (a.number, a.started, a.ended)) =
        (send p messages responses started fuel).attempts.map
          (fun a => (a.number, a.started, a.ended)) ∧
      (send (p.withBudget budget) messages responses started fuel).ended =
        (send p messages responses started fuel).ended := by
  obtain ⟨same, ended, attempts⟩ :=
    sendFrom_withBudget le farEnough (Nat.le_refl started) ends decided
  refine ⟨same, ?_, ?_, ?_, ended⟩
  · rw [outcomes, outcomes, ends, send, same]
  · have lengths := congrArg List.length attempts
    rw [List.length_map, List.length_map] at lengths
    exact lengths
  · have times := congrArg (List.map fun course => (course.1, course.2.1, course.2.2.1)) attempts
    rw [List.map_map, List.map_map] at times
    exact times

end

/-- Two calls, the first of which fails: the timeout of the second one is cut to what is left of
the smaller budget, and its reply comes in the millisecond in which this ends. -/
theorem send_larger_budget_two_calls :
    ∃ p : RetryPolicy, ∃ responses : Nat → Response, p.totalTimeout = ⟨100500000⟩ ∧
      ((send p 1 responses 7 5).attempts.map fun a => (a.started, a.timeout, a.ended)) =
        [(7, ⟨90000000⟩, 57), (97, ⟨10500000⟩, 108)] ∧
      ((send (p.withBudget .longest) 1 responses 7 5).attempts.map fun a => a.timeout) =
        [⟨90000000⟩, ⟨90000000⟩] ∧
      (send (p.withBudget .longest) 1 responses 7 5).result = some (.published ["id-a"]) ∧
      (send (p.withBudget .longest) 1 responses 7 5).ended = 108 := by
  let p : RetryPolicy := {
    totalTimeout := ⟨100500000⟩
    initialDelay := .ofMillis 40
    initialRpcTimeout := .ofMillis 90
    maxRpcTimeout := .ofMillis 90 }
  let responses : Nat → Response := fun number =>
    if number = 1 then ⟨some 50, .failure (.unavailable "a")⟩ else ⟨some 11, .ids ["id-a"]⟩
  have le : p.totalTimeout ≤ .longest := by decide
  have farEnough : p.FarEnough .longest 7 responses := fun _ _ => .inl (by decide)
  have ends : (send p 1 responses 7 5).result = some (.published ["id-a"]) := by decide
  have decided : ¬ (SendResult.published ["id-a"]).IsExhausted := nofun
  have ended : (send p 1 responses 7 5).ended = 108 := by decide
  obtain ⟨result, -, -, -, stop⟩ := send_larger_budget le farEnough ends decided
  exact ⟨p, responses, rfl, by decide, by decide, result, stop.trans ended⟩

end Transcript
end TopicPublisher
