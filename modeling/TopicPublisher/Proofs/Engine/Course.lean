import TopicPublisher.Proofs.Engine.Moves.Sending
import TopicPublisher.Proofs.Engine.Trail
import Mathlib.Data.List.Basic

/-!
The course of the sending of a batch: calls with the same messages, one after the other, for as
long as they end in failures that may pass and the budget lasts. Main statement: when the sending
ends, the end of its last call decides the outcome of every handle of the batch.
-/

namespace TopicPublisher

/-- Elements with their numbers, counted from one. -/
def numbered {α : Type} (xs : List α) : List (Nat × α) := xs.mapIdx fun i x => (i + 1, x)

theorem numbered_concat {α : Type} (xs : List α) (x : α) :
    numbered (xs ++ [x]) = numbered xs ++ [(xs.length + 1, x)] :=
  List.mapIdx_concat

/-- The ends of a call after which there may be another one: a failure that may pass, or no
answer in time. -/
def mayPass : Option Reply → Bool
  | none => true
  | some (.failure error) => error.isRetryable
  | some _ => false

/-- How the sending of a batch ends with the call of this number, which had this reply, or none
within its timeout. -/
def RetryPolicy.lastResult (p : RetryPolicy) (messages number : Nat) (timeout : Duration) :
    Option Reply → SendResult
  | some (.ids ids) =>
    if ids.length = messages then .published ids
    else .failed (.idCountMismatch messages ids.length)
  | some (.failure error) =>
    if error.isRetryable then .failed (.retryBudgetExhausted number p.totalTimeout error)
    else .failed (.terminalSendFailure error)
  | some .crash => .crashed
  | none => .failed (.retryBudgetExhausted number p.totalTimeout (.timedOut timeout))

/-- The trails that the sending of a batch can leave. All calls had the messages of the batch, and
all that have ended, apart from the last one of a sending that is over, had ends that may pass. -/
inductive Course {τ : Type} (p : RetryPolicy) (b : Batch) : Trail τ → Prop where
  | ready (s : Sending τ) (replies : List (Option Reply)) :
      s.batch = b → s.phase = .ready → s.attempts = replies.length → (∀ r ∈ replies, mayPass r) →
      Course p b ⟨some s, numbered (replies.map fun _ => b.messages), numbered replies, []⟩
  | calling (s : Sending τ) (replies : List (Option Reply)) (timeout : Duration) (limit : Nat)
      (answerAt : Option Nat) (call : τ) :
      s.batch = b → s.phase = .calling timeout limit answerAt call →
      s.attempts = replies.length + 1 → (∀ r ∈ replies, mayPass r) →
      Course p b ⟨some s, numbered (replies.map (fun _ => b.messages) ++ [b.messages]),
        numbered replies, []⟩
  | pausing (s : Sending τ) (replies : List (Option Reply)) (last : Option Reply)
      (timeout : Duration) (wake : Nat) (error : TransportError) :
      s.batch = b → s.phase = .pausing wake error → s.attempts = replies.length + 1 →
      (∀ r ∈ replies, mayPass r) → mayPass last → replyOr timeout last = .failure error →
      Course p b ⟨some s, numbered (replies.map (fun _ => b.messages) ++ [b.messages]),
        numbered (replies ++ [last]), []⟩
  | ended (replies : List (Option Reply)) (last : Option Reply) (timeout : Duration) :
      (∀ r ∈ replies, mayPass r) →
      Course p b ⟨none, numbered (replies.map (fun _ => b.messages) ++ [b.messages]),
        numbered (replies ++ [last]),
        [p.lastResult b.size (UInt32.ofNat (replies.length + 1)).toNat timeout last]⟩

/-! Verdicts -/

theorem lastResult_final {reply : Reply} {messages : Nat} {result : SendResult}
    (h : reply.verdict messages = .final result) (p : RetryPolicy) (number : Nat)
    (timeout : Duration) : p.lastResult messages number timeout (some reply) = result := by
  unfold Reply.verdict at h
  split at h
  · split at h
    · next same =>
      cases h
      simp [RetryPolicy.lastResult, same]
    · next differs =>
      cases h
      simp [RetryPolicy.lastResult, differs]
  · split at h
    · cases h
    · next final =>
      cases h
      simp [RetryPolicy.lastResult, final]
  · cases h
    rfl

theorem verdict_retry {reply : Reply} {messages : Nat} {error : TransportError}
    (h : reply.verdict messages = .retry error) : reply = .failure error ∧ error.isRetryable := by
  unfold Reply.verdict at h
  split at h
  · split at h <;> cases h
  · split at h
    · next passes =>
      cases h
      exact ⟨rfl, passes⟩
    · cases h
  · cases h

/-- A sending whose budget is used up ends with the failure of its last call. -/
theorem lastResult_exhausted {last : Option Reply} {timeout : Duration} {error : TransportError}
    (passes : mayPass last) (h : replyOr timeout last = .failure error) (p : RetryPolicy)
    (messages calls : Nat) :
    p.lastResult messages (UInt32.ofNat calls).toNat timeout last =
      .failed (p.exhausted calls error) := by
  cases last with
  | none =>
    cases h
    rfl
  | some reply =>
    obtain rfl : reply = .failure error := h
    have retryable : error.isRetryable = true := passes
    simp [RetryPolicy.lastResult, RetryPolicy.exhausted, retryable]

/-! The course at a phase -/

variable {τ : Type} {p : RetryPolicy} {b : Batch} {t : Trail τ} {s : Sending τ}

/-- A sending that is about to make a call has seen its calls end with failures that may pass. -/
theorem Course.begun (course : Course p b t) (here : t.sending = some s)
    (phase : s.phase = .ready) :
    ∃ replies, s.batch = b ∧ s.attempts = replies.length ∧ (∀ r ∈ replies, mayPass r) ∧
      t = ⟨some s, numbered (replies.map fun _ => b.messages), numbered replies, []⟩ := by
  cases course with
  | ready s' replies hb _ attempts passed =>
    cases here
    exact ⟨replies, hb, attempts, passed, rfl⟩
  | calling s' _ _ _ _ _ _ other | pausing s' _ _ _ _ _ _ other =>
    cases here
    exact nomatch other.symm.trans phase
  | ended => cases here

/-- A sending that only waits keeps its course. -/
theorem Course.waits (course : Course p b t)
    (here : t.sending = some s) (alarm : Nat) :
    Course p b { t with sending := some { s with alarm := alarm } } ∧ t.results = [] := by
  cases course with
  | ready s' replies hb phase attempts passed =>
    cases here
    exact ⟨.ready _ replies hb phase attempts passed, rfl⟩
  | calling s' replies timeout limit answerAt call hb phase attempts passed =>
    cases here
    exact ⟨.calling _ replies timeout limit answerAt call hb phase attempts passed, rfl⟩
  | pausing s' replies last timeout wake error hb phase attempts passed passes failure =>
    cases here
    exact ⟨.pausing _ replies last timeout wake error hb phase attempts passed passes failure, rfl⟩
  | ended => cases here

/-- So has one that is in a call, up to this call. -/
theorem Course.answered (course : Course p b t)
    (here : t.sending = some s) {timeout : Duration} {limit : Nat} {answerAt : Option Nat}
    {call : τ} (phase : s.phase = .calling timeout limit answerAt call) :
    ∃ replies, s.batch = b ∧ s.attempts = replies.length + 1 ∧ (∀ r ∈ replies, mayPass r) ∧
      t = ⟨some s, numbered (replies.map (fun _ => b.messages) ++ [b.messages]),
        numbered replies, []⟩ := by
  cases course with
  | calling s' replies _ _ _ _ hb _ attempts passed =>
    cases here
    exact ⟨replies, hb, attempts, passed, rfl⟩
  | ready s' _ _ other | pausing s' _ _ _ _ _ _ other =>
    cases here
    exact nomatch other.symm.trans phase
  | ended => cases here

/-- A sending that pauses has just failed in a way that may pass. -/
theorem Course.paused (course : Course p b t)
    (here : t.sending = some s) {wake : Nat} {error : TransportError}
    (phase : s.phase = .pausing wake error) :
    ∃ replies last timeout, s.batch = b ∧ s.attempts = replies.length + 1 ∧
      (∀ r ∈ replies, mayPass r) ∧ mayPass last ∧ replyOr timeout last = .failure error ∧
      t = ⟨some s, numbered (replies.map (fun _ => b.messages) ++ [b.messages]),
        numbered (replies ++ [last]), []⟩ := by
  cases course with
  | pausing s' replies last timeout wake' error' hb other attempts passed passes failure =>
    cases here
    cases other.symm.trans phase
    exact ⟨replies, last, timeout, hb, attempts, passed, passes, failure, rfl⟩
  | ready s' _ _ other | calling s' _ _ _ _ _ _ other =>
    cases here
    exact nomatch other.symm.trans phase
  | ended => cases here

namespace Engine

variable {σ τ : Type} {v : Service σ τ} {c : Config} {e f : Engine σ τ} {n : Nat} {b : Batch}
  {s t : Sending τ}

/-! Turns of the task that sends the batch -/

theorem trail_called (e : Engine σ τ) (event : LogEvent) (attempt : Nat)
    (messages : List Message) :
    (e.note [.logged (some n) event, .called n attempt messages]).trail n =
      { e.trail n with calls := e.callsOf n ++ [(attempt, messages)] } := by
  simp only [trail, callsOf, answersOf, resultsOf, calls_note, answers_note, results_note]
  simp [List.filterMap_cons]
  rfl

theorem trail_answered (e : Engine σ τ) (attempt : Nat) (reply : Option Reply) :
    (e.note [.answered n attempt reply]).trail n =
      { e.trail n with answers := e.answersOf n ++ [(attempt, reply)] } := by
  simp only [trail, callsOf, answersOf, resultsOf, calls_note, answers_note, results_note]
  simp [List.filterMap_cons]
  rfl

theorem trail_sendEnded (e : Engine σ τ) (result : SendResult) :
    (e.note [.sendEnded n result]).trail n =
      { e.trail n with results := e.resultsOf n ++ [result] } := by
  simp only [trail, callsOf, answersOf, resultsOf, calls_note, answers_note, results_note]
  simp [List.filterMap_cons]
  rfl

theorem trail_logs (e : Engine σ τ) (events : List LogEvent) :
    (e.note (events.map (.logged (some n)))).trail n = e.trail n :=
  trail_note (List.forall_mem_map.mpr fun _ _ => rfl)

theorem trail_setSending {k : Trail τ} (here : e.trail s.id = k) (sends : k.sending = some t) :
    (e.setSending s).trail s.id = { k with sending := some s } := by
  subst here
  rw [trail, sending?_setSending_self sends]
  rfl

theorem trail_endSending_self (e : Engine σ τ) (s : Sending τ) (result : SendResult) :
    (e.endSending s result).trail s.id =
      { e.trail s.id with sending := none, results := e.resultsOf s.id ++ [result] } := by
  have gone (counters : Counters) :
      trail { e with counters := counters, sends := e.sends.filter (·.id != s.id) } s.id =
        { e.trail s.id with sending := none } := by
    have none : (e.sends.filter (·.id != s.id)).find? (·.id == s.id) = none :=
      find?_remove_key e.sends s.id
    rw [trail, sending?, none]
    rfl
  have ended (f : Engine σ τ) : (f.note (endOf s result)).trail s.id =
      { f.trail s.id with results := f.resultsOf s.id ++ [result] } := by
    have logged := trail_logs (n := s.id) f (result.log s.attempts s.batch.size)
    rw [endOf, ← note_note, trail_sendEnded, logged]
    exact congrArg (fun results : List SendResult => { f.trail s.id with
      results := results ++ [result] }) (congrArg Trail.results logged)
  rw [endSending_eq, wakeShutdowns_eq, resolveAll_eq]
  exact (trail_note fun h hh => (inner_resolutionsOf _ h hh).2 s.id).trans
    ((ended _).trans (congrArg (fun t : Trail τ => { t with results := t.results ++ [result] })
      (gone _)))

theorem filterMap_resolutionsOf (os : List (Nat × Outcome)) :
    (resolutionsOf os).filterMap Happening.resolved? = os ∧
      (resolutionsOf os).filterMap Happening.released? = os.map Prod.fst ∧
      (resolutionsOf os).filterMap Happening.ended? = [] := by
  unfold resolutionsOf
  induction os with
  | nil => exact ⟨rfl, rfl, rfl⟩
  | cons o rest ih =>
    obtain ⟨resolved, released, ended⟩ := ih
    rw [List.flatMap_cons, List.filterMap_append, List.filterMap_append, List.filterMap_append,
      resolved, released, ended]
    exact ⟨rfl, rfl, rfl⟩

theorem filterMap_endOf (s : Sending τ) (result : SendResult) :
    (endOf s result).filterMap Happening.resolved? = [] ∧
      (endOf s result).filterMap Happening.released? = [] ∧
      (endOf s result).filterMap Happening.ended? = [(s.id, result)] := by
  simp [endOf, List.filterMap_append, List.filterMap_map, Function.comp_def, List.filterMap_cons]

theorem endSending_handles (e : Engine σ τ) (s : Sending τ) (result : SendResult) :
    (e.endSending s result).resolved =
        e.resolved ++ s.batch.ids.zip (result.outcomes s.batch.size) ∧
      (e.endSending s result).released =
        e.released ++ (s.batch.ids.zip (result.outcomes s.batch.size)).map Prod.fst ∧
      (e.endSending s result).results = e.results ++ [(s.id, result)] := by
  obtain ⟨outcomes, calls, none⟩ :=
    filterMap_resolutionsOf (s.batch.ids.zip (result.outcomes s.batch.size))
  obtain ⟨unresolved, unreleased, ended⟩ := filterMap_endOf s result
  have events : (e.endSending s result).events = (e.note _).events :=
    events_congr (endSending_history e s result)
  refine ⟨(congrArg (·.filterMap Happening.resolved?) events).trans ?_,
    (congrArg (·.filterMap Happening.released?) events).trans ?_,
    (congrArg (·.filterMap Happening.ended?) events).trans ?_⟩
  · rw [events_note, List.filterMap_append, List.filterMap_append, unresolved, outcomes]
    rfl
  · rw [events_note, List.filterMap_append, List.filterMap_append, unreleased, calls]
    rfl
  · rw [events_note, List.filterMap_append, List.filterMap_append, ended, none]
    rfl

/-- A batch is being sent, or was sent and all its handles have the outcomes that its last call
decided. -/
structure Sent (p : RetryPolicy) (b : Batch) (n : Nat) (e : Engine σ τ) : Prop where
  course : Course p b (e.trail n)
  settled : ∀ result ∈ (e.trail n).results, (result.outcomes b.size).length = b.size ∧
    ∀ o ∈ b.ids.zip (result.outcomes b.size), o ∈ e.resolved ∧ o.1 ∈ e.released

theorem Course.sent {p : RetryPolicy} {t : Trail τ} (course : Course p b t) (none : t.results = [])
    (ht : e.trail n = t) : Sent p b n e := by
  subst ht
  exact ⟨course, by simp [none]⟩

variable {replies : List (Option Reply)} {calls : List (Nat × List Message)} {timeout : Duration}

/-- The sending is over, and the end of its last call has decided how. -/
theorem endSending_sent (timeout : Duration) {last : Option Reply} {result : SendResult}
    (hb : s.batch = b) (passed : ∀ r ∈ replies, mayPass r)
    (ht : e.trail s.id = ⟨some s, numbered (replies.map (fun _ => b.messages) ++ [b.messages]),
      numbered (replies ++ [last]), []⟩)
    (decided : c.retries.lastResult b.size (UInt32.ofNat (replies.length + 1)).toNat timeout last =
      result)
    (parallel : (result.outcomes b.size).length = b.size) :
    Sent c.retries b s.id (e.endSending s result) := by
  have after : (e.endSending s result).trail s.id =
      ⟨none, numbered (replies.map (fun _ => b.messages) ++ [b.messages]),
        numbered (replies ++ [last]), [result]⟩ := by
    rw [trail_endSending_self, show e.resultsOf s.id = [] from congrArg Trail.results ht, ht]
    rfl
  obtain ⟨resolved, released, -⟩ := endSending_handles e s result
  refine ⟨?_, ?_⟩
  · rw [after, ← decided]
    exact .ended replies last timeout passed
  · rw [after]
    intro r hr
    obtain rfl := List.mem_singleton.mp hr
    refine ⟨parallel, fun o ho => ?_⟩
    rw [resolved, released, hb]
    exact ⟨List.mem_append_right _ ho, List.mem_append_right _ (List.mem_map_of_mem ho)⟩

/-- The next call is entered behind those before it. -/
theorem trail_calls_next {replies : List (Option Reply)} {messages : List Message}
    (attempts : s.attempts = replies.length) (ht : e.trail s.id =
      ⟨some s, numbered (replies.map fun _ => messages), numbered replies, []⟩)
    (counters : Counters) (service : σ) (event : LogEvent) :
    ({ e with counters := counters, service := service }.note
      [.logged (some s.id) event, .called s.id (s.attempts + 1) messages]).trail s.id =
        ⟨some s, numbered (replies.map (fun _ => messages) ++ [messages]), numbered replies,
          []⟩ := by
  have before : trail { e with counters := counters, service := service } s.id =
    e.trail s.id := rfl
  rw [trail_called, before, ht, numbered_concat, List.length_map, attempts,
    show callsOf { e with counters := _, service := service } s.id = _ from
      congrArg Trail.calls ht]

theorem trail_answers_last {replies : List (Option Reply)} {calls : List (Nat × List Message)}
    (attempts : s.attempts = replies.length + 1)
    (ht : e.trail s.id = ⟨some s, calls, numbered replies, []⟩) (service : σ)
    (last : Option Reply) :
    ({ e with service := service }.note [.answered s.id s.attempts last]).trail s.id =
      ⟨some s, calls, numbered (replies ++ [last]), []⟩ := by
  have before : trail { e with service := service } s.id = e.trail s.id := rfl
  rw [trail_answered, before, ht, numbered_concat replies, attempts,
    show answersOf { e with service := service } s.id = numbered replies from
      congrArg Trail.answers ht]

theorem SendingTurn.sent {again : Bool} (turn : SendingTurn v c e s (again, f))
    (here : e.sending? s.id = some s) (h : Sent c.retries b s.id e) :
    Sent c.retries b s.id f := by
  have course := h.course
  have there : (e.trail s.id).sending = some s := here
  cases turn with
  | call timeout latency call service ready _ _ =>
    obtain ⟨replies, rfl, attempts, passed, ht⟩ := course.begun there ready
    have called := trail_calls_next attempts ht e.counters.countAttempt service
      (.sendAttempt (.ofNat (s.attempts + 1)) s.batch.size)
    refine Course.sent ?_ ?_ (trail_setSending called rfl)
    · exact .calling _ replies _ _ _ _ rfl rfl (by rw [attempts]) passed
    · rfl
  | wait wake _ _ =>
    obtain ⟨waits, none⟩ := course.waits there e.alarms
    exact Course.sent waits none (trail_setSending (s := { s with alarm := e.alarms }) rfl there)
  | settle timeout limit answerAt call reply service result phase _ final =>
    obtain ⟨replies, rfl, attempts, passed, ht⟩ := course.answered there phase
    refine endSending_sent timeout rfl passed (trail_answers_last attempts ht service reply) ?_
      (outcomes_length final)
    cases reply with
    | none => cases final
    | some reply => exact lastResult_final final c.retries _ timeout
  | fail timeout limit answerAt call reply service error phase _ passes =>
    obtain ⟨replies, hb, attempts, passed, ht⟩ := course.answered there phase
    obtain ⟨failure, retryable⟩ := verdict_retry passes
    have mayGoOn : mayPass reply = true := by
      cases reply with
      | none => rfl
      | some reply =>
        obtain rfl : reply = .failure error := failure
        exact retryable
    have noted := (trail_logs
      ({ e with service := service }.note [.answered s.id s.attempts reply])
      (c.retries.retryLog s.started e.now s.attempts error)).trans
        (trail_answers_last attempts ht service reply)
    rw [note_note] at noted
    refine Course.sent ?_ ?_ (trail_setSending noted rfl)
    · exact .pausing _ replies reply timeout _ error hb rfl attempts passed mayGoOn failure
    · rfl
  | resume wake error phase _ _ =>
    obtain ⟨replies, last, timeout, hb, attempts, passed, passes, failure, ht⟩ :=
      course.paused there phase
    have again : (replies ++ [last]).map (fun _ => b.messages) =
        replies.map (fun _ => b.messages) ++ [b.messages] := List.map_append
    have counted : trail { e with counters := e.counters.countRetry } s.id = _ := ht
    rw [← again] at counted
    refine Course.sent ?_ ?_ (trail_setSending (s := { s with phase := .ready }) counted rfl)
    · refine .ready _ (replies ++ [last]) hb rfl (by simp [attempts]) ?_
      exact List.forall_mem_append.mpr ⟨passed, List.forall_mem_singleton.mpr passes⟩
    · rfl
  | exhaust wake error phase _ _ =>
    obtain ⟨replies, last, timeout, hb, attempts, passed, passes, failure, ht⟩ :=
      course.paused there phase
    refine endSending_sent timeout hb passed ht ?_ (by simp [SendResult.outcomes])
    rw [attempts]
    exact lastResult_exhausted passes failure c.retries _ _

end Engine
end TopicPublisher
