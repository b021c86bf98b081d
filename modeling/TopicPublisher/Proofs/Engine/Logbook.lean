import TopicPublisher.Proofs.Engine.Pages
import TopicPublisher.Proofs.Engine.Refusal
import TopicPublisher.Proofs.Engine.Tally

/-!
The logbook of an engine: all lines that it has logged, oldest first. Main statement: the lines
agree with the counters, with each batch and its attempts, and with the calls that were turned away.
-/

namespace TopicPublisher

@[simp] def Happening.logged? : Happening → Option LogEvent
  | .logged _ event => some event
  | _ => none

def titled (text : String) (lines : List LogEvent) : List LogEvent := lines.filter (·.text == text)

theorem titled_append (text : String) (xs ys : List LogEvent) :
    titled text (xs ++ ys) = titled text xs ++ titled text ys :=
  List.filter_append ..

/-! Publish calls -/

/-- The publish calls that return in a list of happenings, each with the error that it was turned
away with if it was not admitted. -/
structure Answers (hs : List Happening) (answers : List (Nat × Option PublishError)) : Prop where
  returned : hs.filterMap Happening.returned? = answers.map Prod.fst
  admitted : (hs.filterMap Happening.admitted?).map Entry.id =
    (answers.filter (·.2.isNone)).map Prod.fst
  logged : titled "Message rejected before batching." (hs.filterMap Happening.logged?) =
    (answers.filterMap Prod.snd).map .messageRejected
  resolved : ∀ a ∈ answers, ∀ error, a.2 = some error → .resolved a.1 (.error error) ∈ hs

theorem Answers.append {xs ys : List Happening} {as bs : List (Nat × Option PublishError)}
    (first : Answers xs as) (second : Answers ys bs) : Answers (xs ++ ys) (as ++ bs) where
  returned := by simp [first.returned, second.returned]
  admitted := by simp [first.admitted, second.admitted]
  logged := by simp [titled_append, first.logged, second.logged]
  resolved := List.forall_mem_append.mpr
    ⟨fun a ha error turned => List.mem_append_left _ (first.resolved a ha error turned),
      fun a ha error turned => List.mem_append_right _ (second.resolved a ha error turned)⟩

/-- If no call returns twice, those that were turned away are those that were not admitted. -/
theorem Answers.filter_returned {hs : List Happening} {answers : List (Nat × Option PublishError)}
    (h : Answers hs answers) (once : (hs.filterMap Happening.returned?).Nodup) :
    (hs.filterMap Happening.returned?).filter
        (· ∉ (hs.filterMap Happening.admitted?).map Entry.id) =
      (answers.filter (·.2.isSome)).map Prod.fst := by
  rw [h.returned] at once
  rw [h.returned, h.admitted, List.filter_map]
  congr 1
  refine List.filter_congr fun a ha => ?_
  rw [Function.comp_apply, Bool.eq_iff_iff, decide_eq_true_eq]
  constructor
  · intro out
    by_contra accepted
    refine out (List.mem_map_of_mem (List.mem_filter.mpr ⟨ha, ?_⟩))
    rwa [Option.isNone_iff_eq_none, ← Option.not_isSome_iff_eq_none]
  · rintro turned there
    obtain ⟨b, hb, same⟩ := List.mem_map.mp there
    obtain ⟨hb, accepted⟩ := List.mem_filter.mp hb
    obtain rfl := List.inj_on_of_nodup_map once hb ha same
    rw [Option.isNone_iff_eq_none] at accepted
    rw [accepted] at turned
    cases turned

theorem Answers.map_turned {answers : List (Nat × Option PublishError)} {α : Type} {f : Nat → α}
    {g : PublishError → α} (same : ∀ a ∈ answers, ∀ error, a.2 = some error → f a.1 = g error) :
    ((answers.filter (·.2.isSome)).map Prod.fst).map f = (answers.filterMap Prod.snd).map g := by
  induction answers with
  | nil => rfl
  | cons a rest ih =>
    obtain ⟨first, others⟩ := List.forall_mem_cons.mp same
    obtain ⟨call, turned⟩ := a
    cases turned with
    | none => exact ih others
    | some error => exact congrArg₂ List.cons (first error rfl) (ih others)

/-! Lines -/

/-- The lines in a list of happenings are those that its other entries account for. -/
structure Reconciled (hs : List Happening) : Prop where
  closed : titled "Closed batch for sending." (hs.filterMap Happening.logged?) =
    (hs.filterMap Happening.dispatched?).map fun d => .batchClosed d.2.size d.2.bytes
  attempts : (titled "Sending batch..." (hs.filterMap Happening.logged?)).length =
    (hs.filterMap Happening.called?).length
  acknowledged :
    (titled "Batch acknowledged by server." (hs.filterMap Happening.logged?)).length =
      (hs.filterMap Happening.ended?).countP (·.2.isPublished)
  failed : (titled "Failed to publish batch." (hs.filterMap Happening.logged?)).length =
    (hs.filterMap Happening.ended?).countP (·.2.isFailed)
  answers : ∃ answers, Answers hs answers

theorem Reconciled.append {xs ys : List Happening} (first : Reconciled xs)
    (second : Reconciled ys) : Reconciled (xs ++ ys) where
  closed := by simp [titled_append, first.closed, second.closed]
  attempts := by simp [titled_append, first.attempts, second.attempts]
  acknowledged := by simp [titled_append, first.acknowledged, second.acknowledged]
  failed := by simp [titled_append, first.failed, second.failed]
  answers := by
    obtain ⟨as, earlier⟩ := first.answers
    obtain ⟨bs, later⟩ := second.answers
    exact ⟨as ++ bs, earlier.append later⟩

namespace Diary

variable {τ : Type} {c : Config} {k l : Diary τ}

theorem Writes.reconciled (writes : Writes c k l) :
    ∃ hs, l.events = k.events ++ hs ∧ Reconciled hs := by
  cases writes with
  | accept x => exact ⟨_, rfl, rfl, rfl, rfl, rfl, [(x.id, none)], rfl, rfl, rfl, by simp⟩
  | refuse call error =>
    exact ⟨_, rfl, rfl, rfl, rfl, rfl, [(call, some error)], rfl, rfl, rfl, by simp⟩
  | settle s timeout limit answerAt call reply result here phase verdict =>
    refine ⟨_, List.append_assoc .., ?_⟩
    cases result <;> exact ⟨rfl, rfl, rfl, rfl, [], rfl, rfl, rfl, nofun⟩
  | fail s timeout limit answerAt call reply wake error here phase verdict =>
    refine ⟨_, rfl, ?_⟩
    unfold RetryPolicy.retryLog
    split <;> exact ⟨rfl, rfl, rfl, rfl, [], rfl, rfl, rfl, nofun⟩
  | wait | resume | pass =>
    exact ⟨[], (List.append_nil _).symm, rfl, rfl, rfl, rfl, [], rfl, rfl, rfl, nofun⟩
  | release | resolve | announce | complete | dispatch | call | exhaust =>
    exact ⟨_, rfl, rfl, rfl, rfl, rfl, [], rfl, rfl, rfl, nofun⟩

end Diary

namespace Engine

variable {σ τ : Type} {v : Service σ τ} {c : Config} {e f : Engine σ τ}

def logged (e : Engine σ τ) : List LogEvent := e.events.filterMap Happening.logged?

/-- The publish calls that returned without their messages being admitted. -/
def turnedAway (e : Engine σ τ) : List Nat :=
  e.returned.filter (· ∉ e.admitted.map Entry.id)

theorem Reachable.reconciled (h : Reachable v c e) (alive : e.batching ≠ .killed) :
    Reconciled e.events :=
  h.writes (motive := fun k => Reconciled k.events)
    (fun _ => ⟨rfl, rfl, rfl, rfl, [], rfl, rfl, rfl, nofun⟩)
    (fun before writes => by
      obtain ⟨hs, same, more⟩ := writes.reconciled
      exact same ▸ before.append more) alive

theorem Reachable.returned_nodup (h : Reachable v c e) : e.returned.Nodup := by
  obtain ⟨service, run⟩ := h
  induction run with
  | refl => exact .nil
  | @tail f g before step ih =>
    have reached : Reachable v c f := ⟨service, before⟩
    have more {x : Entry} (new : x.id ∉ f.returned) : (f.returned ++ [x.id]).Nodup :=
      List.nodup_append.mpr ⟨ih, List.nodup_singleton _, fun a ha b hb same =>
        new (List.mem_singleton.mp hb ▸ same ▸ ha)⟩
    rcases (reached.visit step).ending reached.sound.kept with ⟨-, same⟩ | ⟨x, new, ending⟩
    · exact same ▸ ih
    cases ending with
    | unreturned _ same _ => exact same ▸ ih
    | admitted _ same _ | refused _ _ _ same _ => exact same ▸ more new

/-- The rejections in the log are those of the calls that were turned away, one for each. -/
theorem Reachable.rejections (h : Reachable v c e) (alive : e.batching ≠ .killed) :
    ∃ errors : List PublishError,
      titled "Message rejected before batching." e.logged = errors.map .messageRejected ∧
      e.turnedAway.map e.outcomeOf = errors.map fun error => some (.error error) := by
  obtain ⟨answers, all⟩ := (h.reconciled alive).answers
  refine ⟨answers.filterMap Prod.snd, all.logged, ?_⟩
  have away : e.turnedAway = (answers.filter (·.2.isSome)).map Prod.fst :=
    all.filter_returned h.returned_nodup
  rw [away]
  refine Answers.map_turned fun a ha error turned => outcomeOf_eq_some h.sound.kept ?_
  exact List.mem_filterMap.mpr ⟨_, all.resolved a ha error turned, rfl⟩

/-- Whatever the service does, in every reachable engine, in whatever phases its batches are, the
log shows what has happened. Each dispatch has its line, with the length of the batch and its bytes.
What is logged for a batch after that follows the calls that were made for it: attempts numbered
from one, in 32 bits, between any two of them the warning with the number of the first, and in the
end one line for the result, with a warning right before it only if the budget was spent. In sum,
the lines number what the counters show, and those on rejected messages tell, one for each and in
their order, with which errors publish calls were turned away. Only a call that brings down the task
that made it leaves a sending without a last line. -/
theorem log_reconciles (h : Reachable v c e)
    (near : Clock.representable (Clock.instant e.now + c.thresholds.delay.nanos) = true) :
    titled "Closed batch for sending." e.logged =
        e.dispatches.map (fun d => .batchClosed d.2.size d.2.bytes) ∧
      (∀ d ∈ e.dispatches, ∃ result lines, e.resultsOf d.1 = Option.toList result ∧
        e.linesOf d.1 = .batchClosed d.2.size d.2.bytes :: lines ∧
        SendLog d.2.size (e.callsOf d.1).length result lines ∧
        ((e.callsOf d.1).length < Nat.pow 2 32 →
          (lines.filterMap LogEvent.attempt?).map UInt32.toNat =
            List.range' 1 (e.callsOf d.1).length)) ∧
      e.counters.sendAttempts = UInt64.ofNat (titled "Sending batch..." e.logged).length ∧
      e.counters.batchesSent =
        UInt64.ofNat (titled "Batch acknowledged by server." e.logged).length ∧
      e.counters.batchesFailed =
        UInt64.ofNat (titled "Failed to publish batch." e.logged).length ∧
      (∃ errors : List PublishError, titled "Message rejected before batching." e.logged =
          errors.map .messageRejected ∧
        e.turnedAway.map e.outcomeOf = errors.map fun error => some (.error error)) ∧
      (¬ v.MayCrash → ∀ r ∈ e.results, r.2.isDecided = true) := by
  have alive : e.batching ≠ .killed := fun dead =>
    Bool.false_ne_true ((h.ordered.killed dead).symm.trans near)
  have log := h.reconciled alive
  have tallied := h.tallied
  refine ⟨log.closed, fun d hd => ?_, ?_, ?_, ?_, h.rejections alive, h.decided⟩
  · obtain ⟨result, lines, ended, all, sendLog⟩ := h.sendLog alive hd
    exact ⟨result, lines, ended, all, sendLog, sendLog.numbered⟩
  · rw [show (titled "Sending batch..." e.logged).length = e.calls.length from log.attempts,
      ← transit_calls]
    exact tallied.attempts
  · rw [show (titled "Batch acknowledged by server." e.logged).length =
      e.results.countP (·.2.isPublished) from log.acknowledged, ← transit_results]
    exact tallied.sent
  · rw [show (titled "Failed to publish batch." e.logged).length =
      e.results.countP (·.2.isFailed) from log.failed, ← transit_results]
    exact tallied.failed

/-- A batch that is published by its second call, and a publish call after shutdown has begun. -/
theorem log_reconciles_one_retry :
    ∃ (v : Service Nat Nat) (c : Config) (e : Engine Nat Nat), ¬ v.MayCrash ∧ Reachable v c e ∧
      Clock.representable (Clock.instant e.now + c.thresholds.delay.nanos) = true ∧
      e.linesOf 0 = [.batchClosed 1 2, .sendAttempt 1 1,
        .retryScheduled 1 ⟨5000000⟩ ⟨.unavailable, ""⟩, .sendAttempt 2 1,
        .batchAcknowledged 2 1] ∧
      e.turnedAway = [1] ∧
      titled "Message rejected before batching." e.logged = [.messageRejected .engineShutdown] ∧
      e.counters.sendAttempts = UInt64.ofNat (titled "Sending batch..." e.logged).length ∧
      e.counters.sendAttempts = 2 := by
  have started : Reachable
      (⟨fun n _ => (some 0, n, n + 1), fun n call =>
        (if call = 0 then .failure ⟨.unavailable, ""⟩ else .ids ["7"], n)⟩ : Service Nat Nat)
      { topic := ⟨"project", "topic"⟩, thresholds := ⟨1, 10, ⟨1⟩⟩ } _ := .init 0
  have calm : ¬ Service.MayCrash (⟨fun n _ => (some 0, n, n + 1), fun n call =>
      (if call = 0 then .failure ⟨.unavailable, ""⟩ else .ids ["7"], n)⟩ : Service Nat Nat) := by
    rintro ⟨_, call, crash⟩
    by_cases first : call = 0 <;> simp [first] at crash
  have published := started.step
    (.publish ⟨0, ⟨⟨#[1, 2]⟩, []⟩⟩ (by decide) (by decide) (by decide))
  have dispatched := published.step (.run .batching (by decide))
  have waits := dispatched.step (.run .batching (by decide))
  have called := waits.step (.run (.sending 0) (by decide))
  have failed := called.step (.run (.sending 0) (by decide))
  have pauses := failed.step (.run (.sending 0) (by decide))
  have later := pauses.step (.pass 1000 (by decide))
  have resumed := later.step (.run (.sending 0) (by decide +kernel))
  have again := resumed.step (.run (.sending 0) (by decide +kernel))
  have answered := again.step (.run (.sending 0) (by decide +kernel))
  have asked := answered.step
    (.shutdown 9 (by decide +kernel) (by decide +kernel) (mem_finished.not.mp (by decide +kernel)))
  have refused := asked.step
    (.publish ⟨1, ⟨⟨#[3]⟩, []⟩⟩ (by decide +kernel) (by decide +kernel) (by decide +kernel))
  obtain ⟨-, -, attempts, -⟩ := log_reconciles refused (by decide +kernel)
  exact ⟨_, _, _, calm, refused, by decide +kernel, by decide +kernel, by decide +kernel,
    by decide +kernel, attempts, by decide +kernel⟩

end Engine
end TopicPublisher
