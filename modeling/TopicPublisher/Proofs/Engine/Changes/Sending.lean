import TopicPublisher.Proofs.Engine.Changes.Batching
import TopicPublisher.Proofs.Keyed

/-!
What the task that sends a batch changes. In a turn it makes a call, waits, takes the reply or the
timeout of the call, goes on after a pause, or ends the sending of its batch. It deals with no other
batch, and with no call of the users but for the outcomes that it gives.
-/

namespace TopicPublisher

/-- The ends of a call: it is answered, or its timeout comes first. -/
inductive Service.Ends {σ τ : Type} (v : Service σ τ) (state : σ) (now limit : Nat)
    (answerAt : Option Nat) (call : τ) : Option Reply → σ → Prop where
  | answered : answerAt.any (· ≤ now) = true →
      Ends v state now limit answerAt call (some (v.answer state call).1) (v.answer state call).2
  | timedOut : answerAt.any (· ≤ now) = false → limit ≤ now →
      Ends v state now limit answerAt call none state

namespace Engine

variable {σ τ : Type} {v : Service σ τ} {c : Config} {e f g : Engine σ τ} {s t : Sending τ}
  {n : Nat}

/-- How a turn of the task that sends a batch goes; `true` asks for another turn. -/
inductive SendingTurn (v : Service σ τ) (c : Config) (e : Engine σ τ) (s : Sending τ) :
    Bool × Engine σ τ → Prop where
  | call (timeout : Duration) (latency : Option Nat) (call : τ) (service : σ) :
      s.phase = .ready → timeout = c.retries.attemptTimeout s.started e.now (s.attempts + 1) →
      v.start e.service s.batch.messages = (latency, call, service) →
      SendingTurn v c e s (true,
        ({ e with counters := e.counters.countAttempt, service := service }.note
          [.logged (some s.id) (.sendAttempt (.ofNat (s.attempts + 1)) s.batch.size),
            .called s.id (s.attempts + 1) s.batch.messages]).setSending
          { s with
            attempts := s.attempts + 1
            phase := .calling timeout (Clock.wakeAfter e.now timeout) (latency.map (e.now + ·))
              call })
  | wait (wake : Nat) : s.phase.wake? = some wake → e.now < wake →
      SendingTurn v c e s (false,
        { e.setSending { s with alarm := e.alarms } with alarms := e.alarms + 1 })
  | settle (timeout : Duration) (limit : Nat) (answerAt : Option Nat) (call : τ)
      (reply : Option Reply) (service : σ) (result : SendResult) :
      s.phase = .calling timeout limit answerAt call →
      v.Ends e.service e.now limit answerAt call reply service →
      (replyOr timeout reply).verdict s.batch.size = .final result →
      SendingTurn v c e s (false,
        ({ e with service := service }.note [.answered s.id s.attempts reply]).endSending s result)
  | fail (timeout : Duration) (limit : Nat) (answerAt : Option Nat) (call : τ)
      (reply : Option Reply) (service : σ) (error : TransportError) :
      s.phase = .calling timeout limit answerAt call →
      v.Ends e.service e.now limit answerAt call reply service →
      (replyOr timeout reply).verdict s.batch.size = .retry error →
      SendingTurn v c e s (true,
        ({ e with service := service }.note (.answered s.id s.attempts reply ::
          (c.retries.retryLog s.started e.now s.attempts error).map
            (.logged (some s.id)))).setSending
          { s with phase := .pausing (c.retries.resumeAt s.started e.now s.attempts) error })
  | resume (wake : Nat) (error : TransportError) : s.phase = .pausing wake error → wake ≤ e.now →
      c.retries.isSpent s.started e.now = false →
      SendingTurn v c e s (true,
        { e with counters := e.counters.countRetry }.setSending { s with phase := .ready })
  | exhaust (wake : Nat) (error : TransportError) : s.phase = .pausing wake error →
      wake ≤ e.now → c.retries.isSpent s.started e.now = true →
      SendingTurn v c e s (false,
        e.endSending s (.failed (c.retries.exhausted s.attempts error)))

theorem settleCall_goes {timeout : Duration} {limit : Nat} {answerAt : Option Nat} {call : τ}
    {reply : Option Reply} {service : σ} (phase : s.phase = .calling timeout limit answerAt call)
    (ends : v.Ends e.service e.now limit answerAt call reply service) :
    SendingTurn v c e s ({ e with service := service }.settleCall c s timeout reply) := by
  unfold settleCall
  cases verdict : (replyOr timeout reply).verdict s.batch.size with
  | final result =>
    exact .settle timeout limit answerAt call reply service result phase ends verdict
  | retry error =>
    have fails : SendingTurn v c e s _ :=
      .fail timeout limit answerAt call reply service error phase ends verdict
    rw [conclude, record_eq, logSendAll_eq, note_note]
    exact fails

theorem sendingTurn_goes (v : Service σ τ) (c : Config) (e : Engine σ τ) (s : Sending τ) :
    SendingTurn v c e s (e.sendingTurn v c s) := by
  unfold sendingTurn
  split
  · next ready => exact .call _ _ _ _ ready rfl rfl
  · next timeout limit answerAt call phase =>
    split
    · next answered => exact settleCall_goes phase (.answered answered)
    next unanswered =>
    split
    · next late =>
      exact settleCall_goes phase (.timedOut (Bool.eq_false_iff.mpr unanswered) late)
    next inTime =>
    have early : e.now < limit := Nat.lt_of_not_le inTime
    refine .wait _ (congrArg SendPhase.wake? phase) (Nat.lt_min.mpr ⟨early, ?_⟩)
    cases answerAt with
    | none => exact early
    | some answer => simpa using unanswered
  · next wake error phase =>
    split
    · next early => exact .wait wake (congrArg SendPhase.wake? phase) early
    next late =>
    have late : wake ≤ e.now := Nat.le_of_not_lt late
    split
    · next spent => exact .exhaust wake error phase late spent
    · next left => exact .resume wake error phase late (Bool.eq_false_iff.mpr left)

/-! What a task that sends leaves as it is -/

/-- The second engine differs from the first only in what the task that sends one batch deals with:
what the calls of the users and the batching task deal with is the same, as are the other batches
that are sent, and nothing is entered about calls of the users or about the calls for other
batches. -/
structure BySending (n : Nat) (e f : Engine σ τ) : Prop where
  front : f.front = e.front
  bench : f.bench = e.bench
  sends : ∀ m, m ≠ n → f.sending? m = e.sending? m
  enters : ∃ hs, (∀ h ∈ hs, Happening.IsInner h ∧ ∀ m, m ≠ n → Happening.concerns m h = false) ∧
    f.history = (e.note hs).history

theorem BySending.of_same (front : f.front = e.front) (bench : f.bench = e.bench)
    (sends : f.sends = e.sends) (history : f.history = e.history) : BySending n e f :=
  ⟨front, bench, fun m _ => congrArg (·.find? (·.id == m)) sends, [], nofun, history⟩

theorem BySending.trans (first : BySending n e f) (second : BySending n f g) :
    BySending n e g := by
  obtain ⟨hs, apart, history⟩ := first.enters
  obtain ⟨more, apart', history'⟩ := second.enters
  refine ⟨second.front.trans first.front, second.bench.trans first.bench,
    fun m other => (second.sends m other).trans (first.sends m other), hs ++ more,
    List.forall_mem_append.mpr ⟨apart, apart'⟩, ?_⟩
  rw [history', note_history (congrArg Workbench.now first.bench) history]

theorem BySending.note {hs : List Happening} (h : BySending n e f)
    (apart : ∀ h ∈ hs, Happening.IsInner h ∧ ∀ m, m ≠ n → Happening.concerns m h = false) :
    BySending n e (f.note hs) :=
  h.trans ⟨rfl, rfl, fun _ _ => rfl, hs, apart, rfl⟩

theorem apart_logged (n : Nat) (events : List LogEvent) :
    ∀ h ∈ events.map (Happening.logged (some n)),
      h.IsInner ∧ ∀ m, m ≠ n → h.concerns m = false :=
  List.forall_mem_map.mpr fun _ _ => ⟨⟨rfl, rfl, rfl⟩, fun _ _ => rfl⟩

theorem apart_own {h : Happening} (inner : h.IsInner) (own : ∀ m, h.concerns m = (n == m)) :
    h.IsInner ∧ ∀ m, m ≠ n → h.concerns m = false :=
  ⟨inner, fun m other => (own m).trans (beq_false_of_ne other.symm)⟩

theorem sending?_setSending (e : Engine σ τ) (s : Sending τ) :
    (e.setSending s).sending? n =
      (e.sending? n).map fun t => if t.id == s.id then s else t :=
  find?_replace_key e.sends s n

theorem sending?_setSending_self (h : e.sending? s.id = some t) :
    (e.setSending s).sending? s.id = some s := by
  have hid : t.id = s.id := by simpa using List.find?_some h
  rw [sending?_setSending, h, Option.map_some, hid]
  simp

theorem sending?_setSending_other (other : n ≠ s.id) :
    (e.setSending s).sending? n = e.sending? n := by
  rw [sending?_setSending]
  cases h : e.sending? n with
  | none => rfl
  | some t =>
    have hid : t.id = n := by simpa using List.find?_some h
    rw [Option.map_some, if_neg (by simpa [hid] using other)]

theorem BySending.setSending (h : BySending n e f) (own : s.id = n) :
    BySending n e (f.setSending s) :=
  h.trans ⟨rfl, rfl, fun _ other => sending?_setSending_other (own ▸ other), [], nofun, rfl⟩

theorem resolveAll_bySending (e : Engine σ τ) (outcomes : List (Nat × Outcome)) :
    BySending n e (e.resolveAll outcomes) := by
  have front := e.resolveAll_front outcomes
  rw [resolveAll_eq] at front ⊢
  exact ⟨front, rfl, fun _ _ => rfl, _,
    fun h hh => (inner_resolutionsOf outcomes h hh).imp_right fun apart m _ => apart m, rfl⟩

theorem wakeShutdowns_bySending (e : Engine σ τ) : BySending n e e.wakeShutdowns := by
  rw [wakeShutdowns_eq]
  exact .of_same rfl rfl rfl rfl

/-- The end of a sending is entered before the outcomes that follow from it. -/
theorem endSending_history (e : Engine σ τ) (s : Sending τ) (result : SendResult) :
    (e.endSending s result).history = (e.note (endOf s result ++
      resolutionsOf (s.batch.ids.zip (result.outcomes s.batch.size)))).history := by
  rw [endSending_eq, wakeShutdowns_eq, resolveAll_eq]
  simp only [note, List.map_append, List.reverse_append, List.append_assoc]

theorem endSending_bySending (e : Engine σ τ) (s : Sending τ) (result : SendResult) :
    BySending s.id e (e.endSending s result) := by
  rw [endSending_eq]
  refine .trans ?_ (wakeShutdowns_bySending _)
  refine .trans (.note ?_ ?_) (resolveAll_bySending _ _)
  · exact ⟨rfl, rfl, fun m other => find?_remove_other e.sends other.symm, [], nofun, rfl⟩
  · exact List.forall_mem_append.mpr ⟨apart_logged s.id _,
      List.forall_mem_singleton.mpr (apart_own ⟨rfl, rfl, rfl⟩ fun _ => rfl)⟩

theorem SendingTurn.bySending {again : Bool} (turn : SendingTurn v c e s (again, f)) :
    BySending s.id e f := by
  have answered {service : σ} {reply : Option Reply} {more : List Happening}
      (apart : ∀ h ∈ more, h.IsInner ∧ ∀ m, m ≠ s.id → h.concerns m = false) :
      BySending s.id e ({ e with service := service }.note
        (.answered s.id s.attempts reply :: more)) :=
    .note (.of_same rfl rfl rfl rfl)
      (List.forall_mem_cons.mpr ⟨apart_own ⟨rfl, rfl, rfl⟩ fun _ => rfl, apart⟩)
  cases turn with
  | call timeout latency call service _ _ _ =>
    refine .setSending (.note (.of_same rfl rfl rfl rfl) ?_) rfl
    exact List.forall_mem_cons.mpr ⟨⟨⟨rfl, rfl, rfl⟩, fun _ _ => rfl⟩,
      List.forall_mem_singleton.mpr (apart_own ⟨rfl, rfl, rfl⟩ fun _ => rfl)⟩
  | wait wake _ _ =>
    have set : BySending s.id e (e.setSending { s with alarm := e.alarms }) :=
      .setSending (.of_same rfl rfl rfl rfl) rfl
    exact set.trans (.of_same rfl rfl rfl rfl)
  | settle timeout limit answerAt call reply service result _ _ _ =>
    exact (answered (List.forall_mem_nil _)).trans (endSending_bySending _ s result)
  | fail timeout limit answerAt call reply service error _ _ _ =>
    exact (answered (apart_logged s.id _)).setSending rfl
  | resume wake error _ _ _ => exact .setSending (.of_same rfl rfl rfl rfl) rfl
  | exhaust wake error _ _ _ => exact endSending_bySending e s _

end Engine
end TopicPublisher
