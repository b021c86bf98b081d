import TopicPublisher.Proofs.Engine.Course
import TopicPublisher.Proofs.Engine.Moves.Steps
import TopicPublisher.Proofs.Keyed

/-!
The outcome of a batch. Main statement: when its sending has ended, every handle of the batch has
exactly one outcome, which the last call decided, and every reservation was released once.
-/

namespace TopicPublisher
namespace Engine

variable {σ τ : Type} {v : Service σ τ} {c : Config} {e : Engine σ τ} {n : Nat} {b : Batch}

/-! Runs -/

theorem Sent.congr {p : RetryPolicy} {f : Engine σ τ} (h : Sent p b n e)
    (same : f.trail n = e.trail n) (resolved : e.resolved ⊆ f.resolved)
    (released : e.released ⊆ f.released) : Sent p b n f := by
  refine ⟨same ▸ h.course, fun result ended => ?_⟩
  obtain ⟨parallel, given⟩ := h.settled result (same ▸ ended)
  exact ⟨parallel, fun o ho => ⟨resolved (given o ho).1, released (given o ho).2⟩⟩

/-- A turn of the task with the number of the batch, if there still is such a task. -/
theorem run_sent (h : Sent c.retries b n e) : Sent c.retries b n (e.run v c (.sending n)) := by
  rcases run_sending v c e n with ⟨ready, same, -⟩ | ⟨s, again, f, ready, same, here, rfl, turn⟩
  · rw [same]
    exact h.congr rfl (.refl _) (.refl _)
  · have sent := turn.sent here (h.congr rfl (.refl _) (.refl _))
    rw [same]
    exact sent.congr rfl (.refl _) (.refl _)

theorem Step.sent {f : Engine σ τ} (sound : e.custody.Sound c) (old : n < e.dispatched)
    (h : Sent c.retries b n e) (step : Step v c e f) :
    n < f.dispatched ∧ Sent c.retries b n f := by
  obtain ⟨resolved, released, dispatched⟩ := (step.moves sound).grows
  refine ⟨Nat.lt_of_lt_of_le old dispatched, ?_⟩
  rcases step.trail old with same | rfl
  · exact h.congr same resolved released
  · exact run_sent h

theorem Run.sent {f : Engine σ τ} (sound : e.custody.Sound c) (old : n < e.dispatched)
    (h : Sent c.retries b n e) (run : Run v c e f) : Sent c.retries b n f := by
  -- The number stays below the count of batches, so no later batch can take it over.
  have both : n < f.dispatched ∧ Sent c.retries b n f := by
    induction run with
    | refl => exact ⟨old, h⟩
    | tail before step ih => exact step.sent (Run.sound sound before) ih.1 ih.2
  exact both.2

/-! Beginnings -/

/-- The sending of a batch is about to begin. -/
def Begins (e : Engine σ τ) (n : Nat) (b : Batch) : Prop :=
  ∃ s, e.trail n = ⟨some s, [], [], []⟩ ∧ s.batch = b ∧ s.attempts = 0 ∧ s.phase = .ready

theorem Begins.sent (begins : e.Begins n b) (p : RetryPolicy) : Sent p b n e := by
  obtain ⟨s, trail, batch, attempts, phase⟩ := begins
  exact Course.sent (.ready s [] batch phase attempts (by simp)) rfl trail

theorem Begins.sends (begins : e.Begins n b) : (n, b) ∈ e.custody.sends := by
  obtain ⟨s, trail, rfl, -⟩ := begins
  have here : e.sending? n = some s := congrArg Trail.sending trail
  obtain rfl : s.id = n := by simpa using List.find?_some here
  exact List.mem_map.mpr ⟨s, List.mem_of_find?_eq_some here, rfl⟩

/-- An engine without ceilings in which the sending of some batch is about to begin. -/
def hosting (b : Batch) (service : σ) : Engine σ τ where
  service := service
  admission := { Admission.ofCeilings {} with
    ledger := .ofLive (b.entries.map Entry.reservation)
    live := .ofList (b.entries.map Entry.reservation) }
  dispatched := 1
  sends := [{ id := 0, batch := b, started := 0 }]
  ready := [.sending 0]
  history := b.ids.map fun call => (0, .returned call)

theorem hosting_begins (b : Batch) (service : σ) :
    (hosting b service : Engine σ τ).Begins 0 b := by
  have quiet {α : Type} (f : Happening → Option α) (none : ∀ call, f (.returned call) = none) :
      (hosting b service : Engine σ τ).events.filterMap f = [] := by
    rw [List.filterMap_eq_nil_iff]
    intro h hm
    simp only [events, hosting, List.map_map, List.mem_reverse, List.mem_map] at hm
    obtain ⟨call, -, rfl⟩ := hm
    exact none call
  refine ⟨{ id := 0, batch := b, started := 0 }, ?_, rfl, rfl, rfl⟩
  rw [trail, callsOf, answersOf, resultsOf, calls, answers, results, quiet _ fun _ => rfl,
    quiet _ fun _ => rfl, quiet _ fun _ => rfl]
  rfl

/-- So the sending of any batch can begin, under any policy, as long as the publish calls of its
entries have numbers of their own. -/
theorem hosting_sound (distinct : b.ids.Nodup) (unlimited : c.ceilings = {}) (service : σ) :
    (hosting b service : Engine σ τ).custody.Sound c := by
  have underway : (hosting b service : Engine σ τ).custody.underway = b.entries := by
    simp [Custody.underway, Custody.outstanding, custody, hosting]
  have live : (hosting b service : Engine σ τ).admission.live.toList =
      b.entries.map Entry.reservation :=
    Fifo.toList_ofList _
  have returned : ∀ x ∈ b.entries, x.id ∈ (hosting b service : Engine σ τ).custody.returned := by
    intro x hx
    have call : x.id ∈ b.ids := List.mem_map_of_mem hx
    simpa [custody, Engine.returned, events, hosting, Function.comp_def] using call
  have released : (hosting b service : Engine σ τ).custody.released = [] := by
    simp [custody, Engine.released, events, hosting, Function.comp_def]
  have resolved : (hosting b service : Engine σ τ).custody.resolved = [] := by
    simp [custody, Engine.resolved, events, hosting, Function.comp_def]
  refine ⟨⟨?_, .refl _, .nil, ?_, ?_, ?_, ?_, ?_, ?_, ?_, ?_, ?_, ?_⟩, ?_⟩
  · rw [underway]
    exact live ▸ .refl _
  · exact underway ▸ distinct
  · simp [custody, hosting]
  · simp [Custody.unreturned, custody, hosting]
  · exact underway ▸ returned
  · simp [released, resolved]
  · simp [released, resolved]
  · simp [resolved]
  · simp [released]
  · simp [custody, hosting]
  · simp [custody, hosting]
  · rw [unlimited]
    refine ⟨rfl, .unbounded, .unbounded, ?_, ?_⟩
    · exact congrArg Ledger.ofLive live.symm
    · have ids : (hosting b service : Engine σ τ).admission.live.toList.map Reservation.id =
          b.ids := by
        rw [live, List.map_map]
        rfl
      exact ids ▸ distinct

/-! Outcomes -/

def outcomesOf (e : Engine σ τ) (call : Nat) : List Outcome :=
  (e.resolved.filter (·.1 == call)).map Prod.snd

theorem outcomesOf_eq (kept : e.custody.Kept) {o : Nat × Outcome} (ho : o ∈ e.resolved) :
    e.outcomesOf o.1 = [o.2] := by
  rw [outcomesOf, filter_key (l := e.resolved) kept.resolvedOnce ho, List.map_singleton]

/-- Every handle of a batch that was sent has its outcome, and nothing else. -/
theorem Sent.outcomes {p : RetryPolicy} {result : SendResult} (kept : e.custody.Kept)
    (h : Sent p b n e) (ended : result ∈ e.resultsOf n) :
    b.ids.map e.outcomesOf = (result.outcomes b.size).map fun o => [o] := by
  obtain ⟨parallel, given⟩ := h.settled result ended
  refine map_eq_map_of_zip ((List.length_map _).trans parallel.symm) fun o ho => ?_
  exact outcomesOf_eq kept (given o ho).1

theorem Sent.released {p : RetryPolicy} {result : SendResult} (kept : e.custody.Kept)
    (h : Sent p b n e) (ended : result ∈ e.resultsOf n) :
    ∀ call ∈ b.ids, e.released.count call = 1 := by
  obtain ⟨parallel, given⟩ := h.settled result ended
  have length : b.ids.length = b.size := List.length_map _
  have ids : (b.ids.zip (result.outcomes b.size)).map Prod.fst = b.ids :=
    List.map_fst_zip (by omega)
  intro call hc
  obtain ⟨o, ho, rfl⟩ := List.mem_map.mp (ids ▸ hc)
  exact List.count_eq_one_of_mem kept.releasedOnce (given o ho).2

/-- When the sending of a batch ends, in whatever order the steps of the engine came, all its calls
had the messages of the batch, all but the last one ended in failures that may pass or in timeouts,
and the end of the last one decides: every handle of the batch has the outcome that this end means
for it and no other, and every reservation was released once. If the batch is published there is an
identifier for each of its messages. A spent budget is told with the number of calls in 32 bits,
which is the number itself for fewer than `2 ^ 32` calls. -/
theorem send_outcome {f : Engine σ τ} {result : SendResult} (sound : e.custody.Sound c)
    (begins : e.Begins n b) (run : Run v c e f) (ended : result ∈ f.resultsOf n) :
    ∃ (replies : List (Option Reply)) (last : Option Reply) (timeout : Duration),
      (∀ reply ∈ replies, mayPass reply) ∧
      f.callsOf n = numbered (List.replicate (replies.length + 1) b.messages) ∧
      f.answersOf n = numbered (replies ++ [last]) ∧
      f.resultsOf n = [result] ∧
      result = c.retries.lastResult b.size (UInt32.ofNat (replies.length + 1)).toNat timeout last ∧
      (replies.length + 1 < Nat.pow 2 32 →
        result = c.retries.lastResult b.size (replies.length + 1) timeout last) ∧
      (∀ ids, result = .published ids → ids.length = b.size) ∧
      b.ids.map f.outcomesOf = (result.outcomes b.size).map (fun outcome => [outcome]) ∧
      ∀ call ∈ b.ids, f.released.count call = 1 := by
  have old : n < e.dispatched := sound.kept.numbers _ begins.sends
  have kept := (Run.sound sound run).kept
  have sent := Run.sent sound old (begins.sent c.retries) run
  have course := sent.course
  have parallel := (sent.settled result ended).1
  have outcomes := sent.outcomes kept ended
  have released := sent.released kept ended
  have published : ∀ ids, result = .published ids → ids.length = b.size := by
    rintro ids rfl
    simpa [SendResult.outcomes] using parallel
  cases ht : f.trail n with
  | mk sending calls answers results =>
    rw [ht] at course
    have hc : f.callsOf n = calls := congrArg Trail.calls ht
    have ha : f.answersOf n = answers := congrArg Trail.answers ht
    have hr : f.resultsOf n = results := congrArg Trail.results ht
    rw [hr] at ended ⊢
    rw [hc, ha]
    cases course with
    | ready | calling | pausing => cases ended
    | ended replies last timeout passed =>
      obtain rfl := List.mem_singleton.mp ended
      have number (fits : replies.length + 1 < Nat.pow 2 32) :
          (UInt32.ofNat (replies.length + 1)).toNat = replies.length + 1 :=
        UInt32.toNat_ofNat_of_lt' fits
      refine ⟨replies, last, timeout, passed, ?_, rfl, rfl, rfl, fun fits => ?_, published,
        outcomes, released⟩
      · rw [List.map_const', ← List.replicate_succ']
      · rw [number fits]

/-- A batch of two messages that its first call publishes. -/
theorem send_outcome_both_published :
    ∃ (v : Service Unit Unit) (c : Config) (e f : Engine Unit Unit) (b : Batch),
      e.custody.Sound c ∧ e.Begins 0 b ∧ Run v c e f ∧ b.ids = [0, 1] ∧
      f.resultsOf 0 = [.published ["7", "8"]] ∧
      b.ids.map f.outcomesOf = [[.ok "7"], [.ok "8"]] ∧
      ∀ call ∈ b.ids, f.released.count call = 1 := by
  have started : Reachable
      (⟨fun _ _ => (some 0, (), ()), fun _ _ => (.ids ["7", "8"], ())⟩ : Service Unit Unit)
      { topic := ⟨"project", "topic"⟩, thresholds := ⟨2, 10, ⟨1⟩⟩ } _ := .init ()
  have first := started.step (.publish ⟨0, ⟨⟨#[1, 2]⟩, []⟩⟩ (by decide) (by decide) (by decide))
  have second := first.step
    (.publish ⟨1, ⟨⟨#[3, 4, 5]⟩, []⟩⟩ (by decide) (by decide) (by decide))
  have opened := second.step (.run .batching (by decide))
  have full := opened.step (.run .batching (by decide))
  have run {v : Service Unit Unit} {c : Config} {e : Engine Unit Unit} (_ : Reachable v c e) :
      Run v c e e := .refl
  have called := (run full).tail (.run (.sending 0) (by decide))
  have answered := called.tail (.run (.sending 0) (by decide))
  obtain ⟨_, _, _, -, -, -, once, -, -, -, outcomes, released⟩ :=
    send_outcome (n := 0) full.sound ⟨_, rfl, rfl, rfl, rfl⟩ answered
      (List.mem_singleton_self (SendResult.published ["7", "8"]))
  exact ⟨_, _, _, _, _, full.sound, ⟨_, rfl, rfl, rfl, rfl⟩, answered, rfl, once, outcomes,
    released⟩

end Engine
end TopicPublisher
