import TopicPublisher.Proofs.Retry.Budget

/-!
How a send goes on. The attempts that were made so far decide where it stands, so a send by itself
that hears what they have heard makes the same attempts at the same times.
-/

namespace TopicPublisher

variable {p : RetryPolicy} {messages started number now fuel : Nat}
  {responses : Nat → Response} {as : List Attempt} {a : Attempt}

theorem number_le (numbers : as.map Attempt.number = List.range' 1 as.length) (ha : a ∈ as) :
    a.number ≤ as.length := by
  have there : a.number ∈ List.range' 1 as.length := numbers ▸ List.mem_map_of_mem ha
  have bounds := List.mem_range'_1.mp there
  omega

namespace Transcript

/-- The whole of a send that goes on after some attempts. -/
def after (as : List Attempt) (t : Transcript) : Transcript :=
  { t with attempts := as ++ t.attempts }

theorem after_after (as bs : List Attempt) (t : Transcript) :
    (t.after bs).after as = t.after (as ++ bs) := by
  simp [after]

/-- Nothing in a send is before this time. -/
structure Later (since : Nat) (t : Transcript) : Prop where
  attempts : ∀ a ∈ t.attempts, since ≤ a.started ∧ since ≤ a.ended
  ended : since ≤ t.ended

theorem Later.mono {since now : Nat} {t : Transcript} (le : since ≤ now) (h : t.Later now) :
    t.Later since :=
  ⟨fun a ha => ⟨Nat.le_trans le (h.attempts a ha).1, Nat.le_trans le (h.attempts a ha).2⟩,
    Nat.le_trans le h.ended⟩

end Transcript

variable [Clock.Timers]

namespace Attempt

/-- An attempt keeps to the clock: it has the timeout that is due to it, and ends with its reply
or, for want of one, with its timeout. -/
structure Runs (p : RetryPolicy) (started : Nat) (a : Attempt) : Prop where
  timeout : a.timeout = p.attemptTimeout started a.started a.number
  after : a.started ≤ a.ended
  inTime : a.ended ≤ Clock.wakeAfter a.started a.timeout
  unanswered : a.reply = none → Clock.wakeAfter a.started a.timeout ≤ a.ended

/-- The response is what the attempt has heard of it: a reply, after the time that the attempt
took, or none before the attempt ended. -/
def Hears (a : Attempt) (r : Response) : Prop :=
  match a.reply with
  | some reply => r = ⟨some (a.ended - a.started), reply⟩
  | none => ∀ latency ∈ r.latency, a.ended < a.started + latency

/-- How a send ends with its last attempt. -/
inductive Closes (p : RetryPolicy) (messages started : Nat) (a : Attempt) :
    Nat → SendResult → Prop where
  | final (result : SendResult) : a.verdict messages = .final result →
      Closes p messages started a a.ended result
  | exhausted (error : TransportError) : a.verdict messages = .retry error →
      p.isSpent started (p.resumeAt started a.ended a.number) = true →
      Closes p messages started a (p.resumeAt started a.ended a.number)
        (.failed (p.exhausted a.number error))

/-- An attempt is made again by a send that hears what it has heard. -/
theorem Runs.run_eq {r : Response} (h : a.Runs p started) (hears : a.Hears r) :
    run p started a.number a.started r = a := by
  obtain ⟨number, began, timeout, ended, reply⟩ := a
  obtain ⟨due, after, inTime, unanswered⟩ := h
  dsimp only at due after inTime unanswered
  subst due
  cases reply with
  | some reply =>
    obtain rfl : r = ⟨some (ended - began), reply⟩ := hears
    simp [run, Nat.add_sub_of_le after, inTime]
  | none =>
    have hears : ∀ latency ∈ r.latency, ended < began + latency := hears
    have limit := Nat.le_antisymm inTime (unanswered rfl)
    unfold run
    dsimp only
    split
    · next latency answers =>
      rw [if_neg (Nat.not_le.mpr (limit ▸ hears latency answers)), limit]
    · rw [limit]

end Attempt

/-- The attempts of a send before another one, which begins at `now`. -/
inductive Opens (p : RetryPolicy) (messages started : Nat) : List Attempt → Nat → Prop where
  | start : Opens p messages started [] started
  | again (as : List Attempt) (a : Attempt) (error : TransportError) :
      Opens p messages started as a.started → a.Runs p started → a.number = as.length + 1 →
      a.verdict messages = .retry error →
      p.isSpent started (p.resumeAt started a.ended a.number) = false →
      Opens p messages started (as ++ [a]) (p.resumeAt started a.ended a.number)

/-- An attempt of a send that comes after these ones. -/
structure Attempt.Follows (p : RetryPolicy) (messages started : Nat) (as : List Attempt)
    (a : Attempt) : Prop where
  opens : Opens p messages started as a.started
  runs : a.Runs p started
  number : a.number = as.length + 1

theorem Opens.numbers (h : Opens p messages started as now) :
    as.map Attempt.number = List.range' 1 as.length := by
  induction h with
  | start => rfl
  | again as a error before runs number verdict left ih =>
    rw [List.map_append, ih, List.length_append, List.length_singleton, List.range'_concat,
      List.map_singleton, number, Nat.one_mul, Nat.add_comm 1]

theorem Attempt.Follows.numbers (h : a.Follows p messages started as) :
    (as ++ [a]).map Attempt.number = List.range' 1 (as.length + 1) := by
  rw [List.map_append, h.opens.numbers, List.range'_concat, List.map_singleton, h.number,
    Nat.one_mul, Nat.add_comm 1]

namespace Transcript

theorem sendFrom_closes {ended : Nat} {result : SendResult} (runs : a.Runs p started)
    (hears : a.Hears (responses a.number)) (closes : a.Closes p messages started ended result) :
    sendFrom p messages responses started (fuel + 1) a.number a.started =
      ⟨[a], ended, some result⟩ := by
  unfold sendFrom
  dsimp only
  rw [runs.run_eq hears]
  cases closes with
  | final result verdict => rw [verdict]
  | exhausted error verdict spent =>
    rw [verdict]
    exact if_pos spent

theorem sendFrom_again {error : TransportError} (runs : a.Runs p started)
    (hears : a.Hears (responses a.number)) (verdict : a.verdict messages = .retry error)
    (left : p.isSpent started (p.resumeAt started a.ended a.number) = false) :
    sendFrom p messages responses started (fuel + 1) a.number a.started =
      (sendFrom p messages responses started fuel (a.number + 1)
        (p.resumeAt started a.ended a.number)).after [a] := by
  conv_lhs => unfold sendFrom
  dsimp only
  rw [runs.run_eq hears, verdict]
  exact if_neg (Bool.eq_false_iff.mp left)

/-- A send that hears what the first attempts have heard makes them again. -/
theorem send_opens (opens : Opens p messages started as now)
    (hears : ∀ a ∈ as, a.Hears (responses a.number)) (fuel : Nat) :
    send p messages responses started (as.length + fuel) =
      (sendFrom p messages responses started fuel (as.length + 1) now).after as := by
  induction opens generalizing fuel with
  | start =>
    rw [List.length_nil, Nat.zero_add]
    rfl
  | again as a error before runs number verdict left ih =>
    obtain ⟨older, last⟩ := List.forall_mem_append.mp hears
    have last := List.forall_mem_singleton.mp last
    have length : (as ++ [a]).length = a.number := by rw [List.length_append, number]; rfl
    have more : (as ++ [a]).length + fuel = as.length + (fuel + 1) := by
      rw [length, number]
      omega
    rw [more, ih older, ← number, sendFrom_again runs last verdict left, after_after, length]

theorem send_closes {ended : Nat} {result : SendResult} (follows : a.Follows p messages started as)
    (hears : ∀ b ∈ as ++ [a], b.Hears (responses b.number))
    (closes : a.Closes p messages started ended result) (fuel : Nat) :
    send p messages responses started (as.length + (fuel + 1)) =
      ⟨as ++ [a], ended, some result⟩ := by
  obtain ⟨older, last⟩ := List.forall_mem_append.mp hears
  have last := List.forall_mem_singleton.mp last
  rw [send_opens follows.opens older, ← follows.number, sendFrom_closes follows.runs last closes]
  rfl

/-! What is to come -/

/-- After its next attempt a send is over, or goes on when that attempt has ended. -/
theorem sendFrom_rest (later : ∀ number now,
      (sendFrom p messages responses started fuel number now).Later now) (number now : Nat) :
    ∃ rest : Transcript, rest.Later (Attempt.run p started number now (responses number)).ended ∧
      sendFrom p messages responses started (fuel + 1) number now =
        rest.after [Attempt.run p started number now (responses number)] := by
  conv in sendFrom _ _ _ _ (fuel + 1) _ _ => unfold sendFrom
  extract_lets a next rest
  have resumes : a.ended ≤ next := p.le_resumeAt started a.ended number
  split
  · next result verdict =>
    exact ⟨⟨[], a.ended, some result⟩, ⟨nofun, Nat.le_refl _⟩, rfl⟩
  · next error verdict =>
    split
    · exact ⟨⟨[], next, _⟩, ⟨nofun, resumes⟩, rfl⟩
    · exact ⟨rest, (later _ _).mono resumes, rfl⟩

theorem sendFrom_later (p : RetryPolicy) (messages : Nat) (responses : Nat → Response)
    (started fuel number now : Nat) :
    (sendFrom p messages responses started fuel number now).Later now := by
  induction fuel generalizing number now with
  | zero => exact ⟨nofun, Nat.le_refl _⟩
  | succ fuel ih =>
    obtain ⟨rest, later, same⟩ := sendFrom_rest ih number now
    have after := (Attempt.run_ended p started number now (responses number)).1
    have began := Attempt.run_started p started number now (responses number)
    rw [same]
    refine ⟨List.forall_mem_append.mpr ⟨?_, (later.mono after).attempts⟩, (later.mono after).ended⟩
    exact List.forall_mem_singleton.mpr ⟨Nat.le_of_eq began.symm, after⟩

end Transcript
end TopicPublisher
