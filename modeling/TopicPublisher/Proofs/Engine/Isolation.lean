import TopicPublisher.Proofs.Engine.Delivery
import TopicPublisher.Proofs.Engine.Replay

/-!
The isolation of batches. Main statement: on a virtual clock, what happens to a batch is what
happens when it is sent by itself to a service that gives its calls the same responses.
-/

namespace TopicPublisher

section Replay

variable {τ : Type} {p : RetryPolicy} {messages started now fuel n k t : Nat} {b : Batch}
  {responses : Nat → Response} {as : List Attempt} {a : Attempt} {xs : List Message}
  {sending : Option (Sending τ)} {course : List (Nat × Happening)} {result : SendResult}

/-- Responses that agree with what the calls of a batch have heard by now. A call that was answered
had this reply after just that time, and a call without an answer, whether its timeout has ended it
or it still waits, has had none so far. -/
structure Heard (course : List (Nat × Happening)) (now : Nat) (responses : Nat → Response) :
    Prop where
  replied : ∀ {since ended n k xs reply}, (since, .called n k xs) ∈ course →
    (ended, .answered n k (some reply)) ∈ course → responses k = ⟨some (ended - since), reply⟩
  timedOut : ∀ {since ended n k xs}, (since, .called n k xs) ∈ course →
    (ended, .answered n k none) ∈ course →
      ∀ latency ∈ (responses k).latency, ended < since + latency
  waiting : ∀ {since n k xs}, (since, .called n k xs) ∈ course →
    (∀ ended reply, (ended, .answered n k reply) ∉ course) →
      ∀ latency ∈ (responses k).latency, now ≤ since + latency

/-! The attempts of a batch -/

theorem mem_called {m number : Nat} {ys : List Message} :
    (t, .called m number ys) ∈ as.flatMap (·.happenings n xs) ↔
      ∃ a ∈ as, a.started = t ∧ n = m ∧ a.number = number ∧ xs = ys := by
  simp [Attempt.happenings, eq_comm]

theorem mem_answered {m number : Nat} {reply : Option Reply} :
    (t, .answered m number reply) ∈ as.flatMap (·.happenings n xs) ↔
      ∃ a ∈ as, a.ended = t ∧ n = m ∧ a.number = number ∧ a.reply = reply := by
  simp [Attempt.happenings, eq_comm]

theorem not_mem_sendEnded {m : Nat} :
    (t, .sendEnded m result) ∉ as.flatMap (·.happenings n xs) := by
  simp [Attempt.happenings]

/-- The number of calls that were made for a batch. -/
def callsIn (course : List (Nat × Happening)) : Nat := course.countP (·.2.called?.isSome)

theorem callsIn_append (xs ys : List (Nat × Happening)) :
    callsIn (xs ++ ys) = callsIn xs + callsIn ys :=
  List.countP_append

theorem callsIn_attempts (as : List Attempt) (n : Nat) (xs : List Message) :
    callsIn (as.flatMap (·.happenings n xs)) = as.length := by
  induction as with
  | nil => rfl
  | cons a rest ih =>
    rw [List.flatMap_cons, callsIn_append, ih]
    exact Nat.add_comm 1 _

theorem Heard.hears (heard : Heard course now responses)
    (there : as.flatMap (·.happenings n xs) ⊆ course) :
    ∀ a ∈ as, a.Hears (responses a.number) := by
  intro a ha
  have called : (a.started, .called n a.number xs) ∈ course :=
    there (mem_called.mpr ⟨a, ha, rfl, rfl, rfl, rfl⟩)
  have answered : (a.ended, .answered n a.number a.reply) ∈ course :=
    there (mem_answered.mpr ⟨a, ha, rfl, rfl, rfl, rfl⟩)
  unfold Attempt.Hears
  split
  · next reply same => exact heard.replied called (same ▸ answered)
  · next same => exact heard.timedOut called (same ▸ answered)

/-- The response that an attempt has heard, if any. -/
def Attempt.heard (a : Attempt) : Response :=
  ⟨a.reply.map fun _ => a.ended - a.started, a.reply.getD .crash⟩

def heardBy (as : List Attempt) (number : Nat) : Response :=
  match as.find? (·.number == number) with
  | some a => a.heard
  | none => ⟨none, .crash⟩

/-- What attempts have heard agrees with them, and with calls after them that still wait. -/
theorem heardBy_heard {rest : List (Nat × Happening)}
    (numbers : as.map Attempt.number = List.range' 1 as.length)
    (later : ∀ t m number ys, (t, .called m number ys) ∈ rest → as.length < number)
    (unanswered : ∀ t m number reply, (t, .answered m number reply) ∉ rest) :
    Heard (as.flatMap (·.happenings n xs) ++ rest) now (heardBy as) := by
  have once : (as.map Attempt.number).Nodup := numbers ▸ List.nodup_range'
  have find {a : Attempt} (ha : a ∈ as) : heardBy as a.number = a.heard := by
    have found : as.find? (·.number == a.number) = some a := find?_key once ha
    rw [heardBy, found]
  -- The call and the answer of one number belong to one attempt.
  have both {since ended m number ys reply}
      (called : (since, .called m number ys) ∈ as.flatMap (·.happenings n xs) ++ rest)
      (answered : (ended, .answered m number reply) ∈ as.flatMap (·.happenings n xs) ++ rest) :
      ∃ a ∈ as, a.started = since ∧ a.ended = ended ∧ a.number = number ∧ a.reply = reply := by
    rcases List.mem_append.mp answered with answered | new
    · obtain ⟨a, ha, ended, -, number, reply⟩ := mem_answered.mp answered
      rcases List.mem_append.mp called with called | new
      · obtain ⟨a', ha', since, -, same, -⟩ := mem_called.mp called
        obtain rfl := List.inj_on_of_nodup_map once ha' ha (same.trans number.symm)
        exact ⟨a', ha, since, ended, number, reply⟩
      · exact absurd (later _ _ _ _ new) (Nat.not_lt.mpr (number ▸ number_le numbers ha))
    · exact absurd new (unanswered _ _ _ _)
  refine ⟨fun called answered => ?_, fun called answered => ?_, fun called none => ?_⟩
  · obtain ⟨a, ha, rfl, rfl, rfl, reply⟩ := both called answered
    rw [find ha, Attempt.heard, reply]
    rfl
  · obtain ⟨a, ha, rfl, rfl, rfl, reply⟩ := both called answered
    rw [find ha, Attempt.heard, reply]
    nofun
  · unfold heardBy
    split
    · next a found =>
      have ha := List.mem_of_find?_eq_some found
      have number := List.find?_some found
      rw [beq_iff_eq] at number
      rcases List.mem_append.mp called with called | new
      · obtain ⟨a', ha', -, rfl, same, -⟩ := mem_called.mp called
        exact absurd (List.mem_append_left _
          (mem_answered.mpr ⟨a', ha', rfl, rfl, same, rfl⟩)) (none _ _)
      · exact absurd (later _ _ _ _ new) (Nat.not_lt.mpr (number ▸ number_le numbers ha))
    · nofun

theorem Track.heard (track : Track p n b started now sending course) :
    ∃ responses, Heard course now responses := by
  cases track with
  | ready s as serves opens =>
    have heard : Heard (as.flatMap (·.happenings n b.messages) ++ []) now (heardBy as) :=
      heardBy_heard opens.numbers (by simp) (by simp)
    exact ⟨_, List.append_nil _ ▸ heard⟩
  | calling s as since answerAt call serves opens later =>
    refine ⟨_, heardBy_heard opens.numbers (fun t m number ys there => ?_) (by simp)⟩
    cases List.mem_singleton.mp there
    exact Nat.lt_succ_self _
  | pausing s as a error serves follows verdict =>
    have heard : Heard ((as ++ [a]).flatMap (·.happenings n b.messages) ++ []) now
        (heardBy (as ++ [a])) :=
      heardBy_heard (by rw [follows.numbers, List.length_append]; rfl) (by simp) (by simp)
    exact ⟨_, List.append_nil _ ▸ heard⟩
  | ended as a ended result follows closes =>
    exact ⟨_, heardBy_heard (by rw [follows.numbers, List.length_append]; rfl) (by simp) (by simp)⟩

/-! Replaying a batch -/

theorem happenings_after (t : Transcript) (as : List Attempt) (n : Nat) (xs : List Message) :
    (t.after as).happenings n xs = as.flatMap (·.happenings n xs) ++ t.happenings n xs := by
  simp [Transcript.after, Transcript.happenings]

theorem Transcript.Later.happenings {t : Transcript} (h : t.Later now) (n : Nat)
    (xs : List Message) : ∀ h ∈ t.happenings n xs, now ≤ h.1 := by
  intro x hx
  rcases List.mem_append.mp hx with attempt | last
  · obtain ⟨a, ha, hx⟩ := List.mem_flatMap.mp attempt
    obtain ⟨began, ended⟩ := h.attempts a ha
    rcases List.mem_pair.mp hx with rfl | rfl
    · exact began
    · exact ended
  · obtain ⟨result, -, rfl⟩ := Option.map_eq_some_iff.mp (Option.mem_toList.mp last)
    exact h.ended

/-- What a send by itself goes on to do is to come. -/
theorem Opens.replay {since : Nat} (opens : Opens p messages started as since)
    (hears : ∀ a ∈ as, a.Hears (responses a.number)) (later : now ≤ since)
    (enough : as.length ≤ fuel) (n : Nat) (xs : List Message) :
    ∃ rest, (send p messages responses started fuel).happenings n xs =
        as.flatMap (·.happenings n xs) ++ rest ∧ ∀ h ∈ rest, now ≤ h.1 := by
  obtain ⟨more, rfl⟩ := Nat.exists_eq_add_of_le enough
  refine ⟨_, ?_, ((Transcript.sendFrom_later p messages responses started more (as.length + 1)
    since).mono later).happenings n xs⟩
  rw [Transcript.send_opens opens hears, happenings_after]

/-- A call that waits will not end before now. -/
theorem Attempt.le_run_ended {since number : Nat} {r : Response}
    (unheard : ∀ latency ∈ r.latency, now ≤ since + latency)
    (inTime : now ≤ Clock.wakeAfter since (p.attemptTimeout started since number)) :
    now ≤ (Attempt.run p started number since r).ended := by
  unfold Attempt.run
  dsimp only
  split
  · next latency answers =>
    split
    · exact unheard latency answers
    · exact inTime
  · exact inTime

/-- So is the rest of a send whose next call waits. -/
theorem Opens.replay_call {since : Nat} (opens : Opens p messages started as since)
    (hears : ∀ a ∈ as, a.Hears (responses a.number))
    (unheard : ∀ latency ∈ (responses (as.length + 1)).latency, now ≤ since + latency)
    (inTime : now ≤ Clock.wakeAfter since (p.attemptTimeout started since (as.length + 1)))
    (enough : as.length + 1 ≤ fuel) (n : Nat) (xs : List Message) :
    ∃ rest, (send p messages responses started fuel).happenings n xs =
        as.flatMap (·.happenings n xs) ++ [(since, .called n (as.length + 1) xs)] ++ rest ∧
      ∀ h ∈ rest, now ≤ h.1 := by
  obtain ⟨more, rfl⟩ := Nat.exists_eq_add_of_le enough
  obtain ⟨rest, after, same⟩ := Transcript.sendFrom_rest
    (Transcript.sendFrom_later p messages responses started more) (as.length + 1) since
  have ends := Attempt.le_run_ended unheard inTime
  refine ⟨(_, .answered n (as.length + 1) (Attempt.run p started (as.length + 1) since
    (responses (as.length + 1))).reply) :: rest.happenings n xs, ?_,
    List.forall_mem_cons.mpr ⟨ends, (after.mono ends).happenings n xs⟩⟩
  rw [Nat.add_assoc, Nat.add_comm 1, Transcript.send_opens opens hears, same, happenings_after,
    happenings_after, List.append_assoc, List.flatMap_singleton, Attempt.happenings,
    Attempt.run_started, Attempt.run_number]
  rfl

theorem Attempt.Closes.outcomes_length {ended : Nat}
    (closes : a.Closes p messages started ended result) :
    (result.outcomes messages).length = messages := by
  cases closes with
  | final result verdict => exact Engine.outcomes_length verdict
  | exhausted error _ _ => exact List.length_replicate

/-- The whole send of a batch whose sending has ended. -/
theorem Track.finished (track : Track p n b started now sending course)
    (ending : (t, .sendEnded n result) ∈ course) (heard : Heard course now responses)
    (enough : callsIn course ≤ fuel) :
    (send p b.size responses started fuel).happenings n b.messages = course ∧
      (send p b.size responses started fuel).ended = t ∧
      (send p b.size responses started fuel).result = some result ∧
      (send p b.size responses started fuel).attempts.length = callsIn course ∧
      (result.outcomes b.size).length = b.size := by
  cases track with
  | ready s as serves opens => exact absurd ending not_mem_sendEnded
  | pausing s as a error serves follows verdict => exact absurd ending not_mem_sendEnded
  | calling s as since answerAt call serves opens later =>
    rcases List.mem_append.mp ending with old | new
    · exact absurd old not_mem_sendEnded
    · cases List.mem_singleton.mp new
  | ended as a ended result follows closes =>
    rw [callsIn_append, callsIn_attempts, List.length_append] at enough ⊢
    have enough : as.length + 1 ≤ fuel := enough
    obtain ⟨more, rfl⟩ := Nat.exists_eq_add_of_le enough
    have last := (List.mem_append.mp ending).resolve_left not_mem_sendEnded
    cases List.mem_singleton.mp last
    have hears := heard.hears (List.subset_append_left _ _)
    rw [Nat.add_assoc, Nat.add_comm 1, Transcript.send_closes follows hears closes]
    exact ⟨rfl, rfl, rfl, List.length_append, closes.outcomes_length⟩

/-- A send by itself that hears what the calls of a batch have heard has done the same by now, and
what it does otherwise is to come. -/
theorem Track.replay (track : Track p n b started now sending course)
    (punctual : ∀ s ∈ sending, s.Punctual p now) (heard : Heard course now responses)
    (enough : callsIn course ≤ fuel) :
    ∃ rest, (send p b.size responses started fuel).happenings n b.messages = course ++ rest ∧
      ∀ h ∈ rest, now ≤ h.1 := by
  cases track with
  | ready s as serves opens =>
    rw [callsIn_attempts] at enough
    exact opens.replay (heard.hears (List.Subset.refl _)) (Nat.le_refl _) enough n b.messages
  | calling s as since answerAt call serves opens later =>
    rw [callsIn_append, callsIn_attempts] at enough
    have waits := congrArg SendPhase.wake? serves.phase
    have inTime := Nat.le_trans ((punctual s rfl).early _ waits) (Nat.min_le_left _ _)
    refine opens.replay_call (heard.hears (List.subset_append_left _ _)) ?_ inTime enough n
      b.messages
    refine heard.waiting List.mem_concat_self fun ended reply answered => ?_
    rcases List.mem_append.mp answered with old | new
    · obtain ⟨a, ha, -, -, number, -⟩ := mem_answered.mp old
      have below := number_le opens.numbers ha
      omega
    · cases List.mem_singleton.mp new
  | pausing s as a error serves follows verdict =>
    rw [callsIn_attempts] at enough
    have hears := heard.hears (List.Subset.refl _)
    have later := (punctual s rfl).early _ (congrArg SendPhase.wake? serves.phase)
    cases left : p.isSpent started (p.resumeAt started a.ended a.number) with
    | false =>
      have opens := Opens.again as a error follows.opens follows.runs follows.number verdict left
      exact opens.replay hears later enough n b.messages
    | true =>
      rw [List.length_append] at enough
      obtain ⟨more, rfl⟩ := Nat.exists_eq_add_of_le enough
      have closes := Attempt.Closes.exhausted error verdict left
      refine ⟨[(p.resumeAt started a.ended a.number,
        .sendEnded n (.failed (p.exhausted a.number error)))], ?_,
        List.forall_mem_singleton.mpr later⟩
      rw [List.length_singleton, Nat.add_assoc, Nat.add_comm 1,
        Transcript.send_closes follows hears closes]
      rfl
  | ended as a ended result follows closes =>
    have track : Track p n b started now (none : Option (Sending τ)) _ :=
      .ended as a ended result follows closes
    obtain ⟨same, -⟩ := track.finished List.mem_concat_self heard enough
    exact ⟨[], same.trans (List.append_nil _).symm, List.forall_mem_nil _⟩

end Replay

namespace Engine

variable {σ τ : Type} {v : Service σ τ} {c : Config} {e : Engine σ τ} {n started : Nat}
  {b : Batch} {result : SendResult}

/-- What has happened to a batch in its calls, oldest first. -/
def course (e : Engine σ τ) (n : Nat) : List (Nat × Happening) :=
  e.history.reverse.filter (·.2.concerns n)

theorem transit_course (e : Engine σ τ) (n : Nat) : e.transit.course n = e.course n := by
  unfold Transit.course transit course
  rw [List.filter_filter]
  refine List.filter_congr fun h _ => ?_
  cases h.2 <;> simp [Happening.concerns, Happening.inTransit]

theorem mem_course {h : Nat × Happening} :
    h ∈ e.course n ↔ h ∈ e.history ∧ h.2.concerns n = true := by
  rw [course, List.mem_filter, List.mem_reverse]

theorem callsIn_course (e : Engine σ τ) (n : Nat) :
    callsIn (e.course n) = (e.callsOf n).length := by
  rw [callsOf, List.length_map, ← List.countP_eq_length_filter, calls, events, ← List.map_reverse,
    List.countP_filterMap, List.countP_map, callsIn, course, List.countP_filter]
  refine List.countP_congr fun h _ => ?_
  obtain ⟨t, h⟩ := h
  cases h <;> simp [Happening.concerns]

theorem mem_resultsOf :
    result ∈ e.resultsOf n ↔ ∃ t, (t, .sendEnded n result) ∈ e.course n := by
  have there : result ∈ e.resultsOf n ↔ (n, result) ∈ e.results := by
    simp [resultsOf]
  rw [there, mem_results]
  simp [mem_course, Happening.concerns]

/-- A send by itself is how a batch is sent: so far the same calls were made for the batch, at the
same readings and with the same ends, and what else the send does is to come. Once the sending of
the batch has ended nothing is to come, and all its handles have the outcomes of the send from the
reading at which the send ends; before, they have none. -/
structure Replays (e : Engine σ τ) (n : Nat) (b : Batch) (t : Transcript) : Prop where
  course : ∃ rest, t.happenings n b.messages = e.course n ++ rest ∧ ∀ h ∈ rest, e.now ≤ h.1
  underway : e.resultsOf n = [] → ∀ call ∈ b.ids, e.deliveriesOf call = []
  finished : ∀ result ∈ e.resultsOf n, t.happenings n b.messages = e.course n ∧
    t.result = some result ∧ t.attempts.length = (e.callsOf n).length ∧
    b.ids.map e.deliveriesOf = (t.outcomes b.size).map fun o => [(t.ended, o)]

/-- The handles of a batch have no outcome before its sending has ended. -/
theorem Reachable.undelivered (h : Reachable v c e) (dispatched : (n, b) ∈ e.dispatches)
    (none : e.resultsOf n = []) : ∀ call ∈ b.ids, e.deliveriesOf call = [] := by
  have counted : n ∈ List.range e.dispatched :=
    h.numbered ▸ List.mem_map_of_mem (f := Prod.fst) dispatched
  have there := h.tallied.numbers.mem_iff.mpr counted
  rw [transit_results] at there
  rcases List.mem_append.mp there with sending | ended
  · obtain ⟨s, hs, rfl⟩ := List.mem_map.mp sending
    obtain rfl := h.dispatched_once (h.sending_dispatched hs) dispatched
    intro call hc
    obtain ⟨x, hx, rfl⟩ := List.mem_map.mp hc
    have underway : x ∈ e.custody.underway := by
      refine List.mem_append_right _ (List.mem_append_left _ (List.mem_append_left _ ?_))
      exact List.mem_flatMap.mpr ⟨_, List.mem_map_of_mem hs, hx⟩
    exact deliveriesOf_eq_nil (h.sound.kept.unresolved x underway).1
  · obtain ⟨r, hr, rfl⟩ := List.mem_map.mp ended
    have there : r.2 ∈ e.resultsOf r.1 :=
      List.mem_map_of_mem (List.mem_filter.mpr ⟨hr, beq_self_eq_true _⟩)
    rw [none] at there
    cases there

/-- On a virtual clock, with any number of batches in flight and whatever happens to other batches,
to publish calls and to shutdown calls: each batch is sent just as by a send by itself that begins
when the batch is dispatched, to any service that gives each call the response that the call of the
same number had for the batch, and there are such services. -/
theorem batch_isolated (h : PromptlyReachable v c e)
    (dispatched : (started, .dispatched n b) ∈ e.history) :
    (∃ responses, Heard (e.course n) e.now responses) ∧
      ∀ responses, Heard (e.course n) e.now responses →
        ∀ fuel, (e.callsOf n).length ≤ fuel →
          e.Replays n b (send c.retries b.size responses started fuel) := by
  obtain ⟨-, track⟩ := h.tracked.tracks started n b (mem_log.mpr ⟨dispatched, rfl⟩)
  unfold Transit.OnTrack at track
  rw [transit_course] at track
  have punctual : ∀ s ∈ e.transit.sending? n, s.Punctual c.retries e.now :=
    fun s hs => h.punctual s (List.mem_of_find?_eq_some hs)
  have there : (n, b) ∈ e.dispatches := mem_dispatches.mpr ⟨started, dispatched⟩
  refine ⟨track.heard, fun responses heard fuel enough => ?_⟩
  rw [← callsIn_course] at enough
  refine ⟨track.replay punctual heard enough, h.reachable.undelivered there, ?_⟩
  intro result ended
  obtain ⟨t, ended⟩ := mem_resultsOf.mp ended
  obtain ⟨course, atEnd, outcome, attempts, parallel⟩ := track.finished ended heard enough
  refine ⟨course, outcome, attempts.trans (callsIn_course e n), ?_⟩
  have delivered := h.reachable.delivered there (mem_course.mp ended).1
  have outcomes : (send c.retries b.size responses started fuel).outcomes b.size =
      result.outcomes b.size := by
    unfold Transcript.outcomes
    rw [outcome]
  rw [outcomes, atEnd]
  refine map_eq_map_of_zip ((List.length_map _).trans parallel.symm) fun o ho => ?_
  exact deliveriesOf_eq h.reachable.sound.kept (delivered o ho)

/-- Two batches are in flight. The first call of one is never answered and times out after the other
batch is published; its second call publishes it. -/
theorem batch_isolated_one_timeout :
    ∃ (v : Service Nat Nat) (c : Config) (e : Engine Nat Nat) (b : Batch),
      PromptlyReachable v c e ∧ (0, .dispatched 0 b) ∈ e.history ∧ e.now = 75 ∧
      e.results = [(1, .published ["7"]), (0, .published ["8"])] ∧ (e.callsOf 0).length ≤ 2 ∧
      b.ids.map e.deliveriesOf = [[(75, .ok "8")]] ∧
      ∃ responses, Heard (e.course 0) e.now responses ∧
        e.Replays 0 b (send c.retries b.size responses 0 2) := by
  have started : PromptlyReachable
      (⟨fun n _ => (if n = 0 then none else if n = 1 then some 20 else some 5, n, n + 1),
        fun n call => (.ids [if call = 1 then "7" else "8"], n)⟩ : Service Nat Nat)
      { topic := ⟨"project", "topic"⟩, thresholds := ⟨1, 10, ⟨5000000⟩⟩
        retries := {
          totalTimeout := ⟨100500000⟩
          initialDelay := .ofMillis 40
          initialRpcTimeout := .ofMillis 30
          maxRpcTimeout := .ofMillis 30 } } _ := .init 0
  have first := started.step
    (.publish ⟨0, ⟨⟨#[1, 2]⟩, []⟩⟩ (by decide) (by decide) (by decide))
  have second := first.step
    (.publish ⟨1, ⟨⟨#[3]⟩, []⟩⟩ (by decide +kernel) (by decide +kernel) (by decide +kernel))
  have one := second.step (.turn .batching (by decide +kernel))
  have two := one.step (.turn .batching (by decide +kernel))
  have idle := two.step (.turn .batching (by decide +kernel))
  have called := idle.step (.turn (.sending 0) (by decide +kernel))
  have waits := called.step (.turn (.sending 0) (by decide +kernel))
  have other := waits.step (.turn (.sending 1) (by decide +kernel))
  have both := other.step (.turn (.sending 1) (by decide +kernel))
  have later := both.step (.pass (by decide +kernel) (by decide +kernel)
    (by decide +kernel : ∀ wake ∈ _, 20 ≤ wake))
  have published := later.step (.turn (.sending 1) (by decide +kernel))
  have late := published.step (.pass (by decide +kernel) (by decide +kernel)
    (by decide +kernel : ∀ wake ∈ _, 30 ≤ wake))
  have failed := late.step (.turn (.sending 0) (by decide +kernel))
  have pauses := failed.step (.turn (.sending 0) (by decide +kernel))
  have elapsed := pauses.step (.pass (by decide +kernel) (by decide +kernel)
    (by decide +kernel : ∀ wake ∈ _, 70 ≤ wake))
  have resumed := elapsed.step (.turn (.sending 0) (by decide +kernel))
  have again := resumed.step (.turn (.sending 0) (by decide +kernel))
  have calling := again.step (.turn (.sending 0) (by decide +kernel))
  have answered := calling.step (.pass (by decide +kernel) (by decide +kernel)
    (by decide +kernel : ∀ wake ∈ _, 75 ≤ wake))
  have ended := answered.step (.turn (.sending 0) (by decide +kernel))
  have picks (h : Happening) (d : Nat × Batch) := Happening.dispatched?_eq_some (h := h) (d := d)
  obtain ⟨⟨responses, heard⟩, replays⟩ := batch_isolated ended
    ((mem_picked (p := (0, 0, ⟨[⟨0, ⟨⟨#[1, 2]⟩, []⟩⟩], 2⟩)) picks).mp (by decide +kernel))
  exact ⟨_, _, _, _, ended,
    (mem_picked (p := (0, 0, ⟨[⟨0, ⟨⟨#[1, 2]⟩, []⟩⟩], 2⟩)) picks).mp (by decide +kernel),
    by decide +kernel, by decide +kernel, by decide +kernel, by decide +kernel, responses, heard,
    replays responses heard 2 (by decide +kernel)⟩

end Engine
end TopicPublisher
