import TopicPublisher.Proofs.Engine.Survival

/-!
The diary of an engine: what it enters into its history, lines of the log included, beside the
batches that are being sent. Whatever an engine does, it goes on writing in one of a few ways, and
what these keep is true of every diary.
-/

namespace TopicPublisher

/-- What an engine has written so far, oldest first, and what it is sending. -/
structure Diary (τ : Type) where
  now : Nat
  dispatched : Nat
  sends : List (Sending τ)
  events : List Happening

namespace Diary

variable {τ : Type}

def note (k : Diary τ) (hs : List Happening) : Diary τ := { k with events := k.events ++ hs }

@[simp] theorem note_nil (k : Diary τ) : k.note [] = k := by
  simp [note]

theorem note_append (k : Diary τ) (xs ys : List Happening) :
    k.note (xs ++ ys) = (k.note xs).note ys := by
  simp [note]

def sending? (k : Diary τ) (n : Nat) : Option (Sending τ) := k.sends.find? (·.id == n)

def set (k : Diary τ) (s : Sending τ) : Diary τ :=
  { k with sends := k.sends.map fun t => if t.id == s.id then s else t }

def dispatch (k : Diary τ) (b : Batch) : Diary τ :=
  note { k with
      dispatched := k.dispatched + 1
      sends := k.sends ++ [{ id := k.dispatched, batch := b, started := k.now }] }
    [.logged (some k.dispatched) (.batchClosed b.size b.bytes), .dispatched k.dispatched b]

/-- Lines that are logged for a batch. -/
def linesFor (n : Nat) (events : List LogEvent) : List Happening := events.map (.logged (some n))

/-- The sending of a batch is over, and logged. -/
def finish (k : Diary τ) (s : Sending τ) (result : SendResult) : Diary τ :=
  note { k with sends := k.sends.filter (·.id != s.id) }
    (linesFor s.id (result.log s.attempts s.batch.size) ++ [.sendEnded s.id result])

/-- The ways to go on writing. -/
inductive Writes (c : Config) (k : Diary τ) : Diary τ → Prop where
  | accept (x : Entry) : Writes c k (k.note [.admitted x, .returned x.id])
  | refuse (call : Nat) (error : PublishError) : Writes c k (k.note
      [.logged none (.messageRejected error), .returned call, .resolved call (.error error)])
  | release (call : Nat) : Writes c k (k.note [.released call])
  | resolve (call : Nat) (outcome : Outcome) :
      Writes c k (k.note [.released call, .resolved call outcome])
  | announce : Writes c k (k.note [.logged none (.shutdownStarted c.topic)])
  | complete (call : Nat) : Writes c k (k.note
      [.logged none (.shutdownComplete c.topic), .shutdownReturned call])
  | dispatch (b : Batch) : Writes c k (k.dispatch b)
  | call (s : Sending τ) (timeout : Duration) (limit : Nat) (answerAt : Option Nat) (call : τ) :
      k.sending? s.id = some s → s.phase = .ready →
      Writes c k ((k.note
        [.logged (some s.id) (.sendAttempt (.ofNat (s.attempts + 1)) s.batch.size),
          .called s.id (s.attempts + 1) s.batch.messages]).set
        { s with attempts := s.attempts + 1, phase := .calling timeout limit answerAt call })
  | wait (s : Sending τ) (alarm : Nat) : k.sending? s.id = some s →
      Writes c k (k.set { s with alarm := alarm })
  | settle (s : Sending τ) (timeout : Duration) (limit : Nat) (answerAt : Option Nat) (call : τ)
      (reply : Option Reply) (result : SendResult) :
      k.sending? s.id = some s → s.phase = .calling timeout limit answerAt call →
      (replyOr timeout reply).verdict s.batch.size = .final result →
      Writes c k ((k.note [.answered s.id s.attempts reply]).finish s result)
  | fail (s : Sending τ) (timeout : Duration) (limit : Nat) (answerAt : Option Nat) (call : τ)
      (reply : Option Reply) (wake : Nat) (error : TransportError) :
      k.sending? s.id = some s → s.phase = .calling timeout limit answerAt call →
      (replyOr timeout reply).verdict s.batch.size = .retry error →
      Writes c k ((k.note (.answered s.id s.attempts reply ::
          linesFor s.id (c.retries.retryLog s.started k.now s.attempts error))).set
        { s with phase := .pausing wake error })
  | resume (s : Sending τ) (wake : Nat) (error : TransportError) : k.sending? s.id = some s →
      s.phase = .pausing wake error → c.retries.isSpent s.started k.now = false →
      Writes c k (k.set { s with phase := .ready })
  | exhaust (s : Sending τ) (wake : Nat) (error : TransportError) : k.sending? s.id = some s →
      s.phase = .pausing wake error → c.retries.isSpent s.started k.now = true →
      Writes c k (k.finish s (.failed (c.retries.exhausted s.attempts error)))
  | pass (now : Nat) : k.now ≤ now → Writes c k { k with now := now }

abbrev Written (c : Config) : Diary τ → Diary τ → Prop := Relation.ReflTransGen (Writes c)

theorem Written.keeps {c : Config} {motive : Diary τ → Prop}
    (writes : ∀ {k l : Diary τ}, motive k → Writes c k l → motive l) {k l : Diary τ}
    (h : motive k) (written : Written c k l) : motive l := by
  induction written with
  | refl => exact h
  | tail _ more ih => exact writes ih more

end Diary

namespace Engine

open Diary (Writes Written)

variable {σ τ : Type} {v : Service σ τ} {c : Config} {e f : Engine σ τ} {x : Entry}
  {s : Sending τ}

def diary (e : Engine σ τ) : Diary τ := ⟨e.now, e.dispatched, e.sends, e.events⟩

theorem diary_note (e : Engine σ τ) (hs : List Happening) :
    (e.note hs).diary = e.diary.note hs := by
  rw [diary, events_note]
  rfl

theorem diary_wakeAll (e : Engine σ τ) (ts : List Task) : (e.wakeAll ts).diary = e.diary := by
  rw [wakeAll_eq]
  rfl

theorem diary_wake (e : Engine σ τ) (t : Task) : (e.wake t).diary = e.diary :=
  e.diary_wakeAll [t]

theorem diary_wakeShutdowns (e : Engine σ τ) : e.wakeShutdowns.diary = e.diary := by
  rw [wakeShutdowns_eq]
  rfl

/-! Outcomes -/

theorem diary_releaseCall (e : Engine σ τ) (call : Nat) :
    (e.releaseCall call).diary = e.diary.note [.released call] := by
  rw [releaseCall_eq, diary_note]
  rfl

theorem diary_resolve (e : Engine σ τ) (call : Nat) (outcome : Outcome) :
    (e.resolve call outcome).diary = e.diary.note [.released call, .resolved call outcome] := by
  rw [resolve_eq, diary_note]
  rfl

theorem resolveAll_written (outcomes : List (Nat × Outcome)) (e : Engine σ τ) :
    Written c e.diary (e.resolveAll outcomes).diary := by
  unfold resolveAll
  induction outcomes generalizing e with
  | nil => exact .refl
  | cons o rest ih =>
    have first : Written c e.diary (e.resolve o.1 o.2).diary := by
      rw [diary_resolve]
      exact .single (.resolve o.1 o.2)
    exact first.trans (ih _)

theorem refuse_written (e : Engine σ τ) (call : Nat) (error : PublishError) :
    Written c e.diary (e.refuse call error).diary := by
  rw [refuse_eq, diary_note]
  exact .single (.refuse call error)

/-! Publish calls -/

/-- While the engine lives, or is closing, a call that is turned away is logged. -/
theorem Decided.written {d : Decision} (decided : Decided e x d f)
    (alive : e.closing = true ∨ e.batching = .running) : Written c e.diary f.diary := by
  cases decided with
  | waits => exact .refl
  | refused error => exact refuse_written { e with counters := _ } x.id error
  | accepted _ _ =>
    rw [diary_note, diary_wake]
    exact .single (.accept x)
  | late _ =>
    refine .trans (.single (.release x.id)) ?_
    rw [← diary_releaseCall]
    exact refuse_written _ x.id _
  | orphaned opened stopped =>
    exact absurd (alive.resolve_left (Bool.eq_false_iff.mp opened)) stopped

/-- Admission may change, with the calls that wait for it. -/
theorem Decided.looked_written {a : Admission} {b : List Entry} {calls : List Nat}
    {d : Decision}
    (decided : Decided ({ e with admission := a, blocked := b }.wakeCalls calls) x d f)
    (alive : e.closing = true ∨ e.batching = .running) : Written c e.diary f.diary := by
  have woken : ({ e with admission := a, blocked := b }.wakeCalls calls).diary = e.diary :=
    diary_wakeAll _ _
  rw [← woken]
  refine decided.written ?_
  rw [wakeCalls_eq]
  exact alive

theorem publish_written (alive : e.closing = true ∨ e.batching = .running) :
    Written c e.diary (e.publish x).diary := by
  have arrives := publish_arrives e x
  generalize e.publish x = f at arrives ⊢
  cases arrives with
  | tooLarge _ | late _ _ => exact refuse_written e x.id _
  | asks _ _ decided => exact Decided.looked_written (b := e.blocked) decided alive

theorem publishingTurn_written {call : Nat}
    (alive : e.blocked ≠ [] → e.closing = true ∨ e.batching = .running) :
    Written c e.diary (e.publishingTurn call).diary := by
  have looks := publishingTurn_looks e call
  generalize e.publishingTurn call = f at looks ⊢
  cases looks with
  | gone _ => exact .refl
  | asks x found decided =>
    exact decided.looked_written (alive (List.ne_nil_of_mem (List.mem_of_find?_eq_some found)))

theorem shutdown_written (e : Engine σ τ) (call : Nat) :
    Written c e.diary (e.shutdown c call).diary := by
  have written : (e.shutdown c call).diary = e.diary.note (e.announced c) := by
    rw [shutdown_eq, ← diary_note]
    rfl
  rw [written, announced]
  split
  · rw [Diary.note_nil]
  · exact .single .announce

theorem shutdownTurn_written (e : Engine σ τ) (call : Nat) :
    Written c e.diary (e.shutdownTurn c call).diary := by
  rcases shutdownTurn_eq e c call with ⟨-, same⟩ | ⟨-, -, same⟩
  · rw [same]
  · rw [same, diary_note]
    exact .single (.complete call)

/-! Turns of the batching task -/

theorem diary_dispatch (e : Engine σ τ) (b : Batch) :
    (e.dispatch b).diary = e.diary.dispatch b := by
  rw [dispatch_eq, diary_note]
  rfl

theorem dispatchAll_written (bs : List Batch) (e : Engine σ τ) :
    Written c e.diary (e.dispatchAll bs).diary := by
  unfold dispatchAll
  induction bs generalizing e with
  | nil => exact .refl
  | cons b rest ih =>
    have first : Written c e.diary (e.dispatch b).diary := by
      rw [diary_dispatch]
      exact .single (.dispatch b)
    exact first.trans (ih _)

theorem Taken.written (taken : Taken c e x f) (fits : x.size ≤ maxBatchBytes) :
    Written c e.diary f.diary := by
  cases taken with
  | added closed batcher _ => exact dispatchAll_written closed { e with batcher := batcher }
  | refused size large => exact absurd large (Nat.not_lt.mpr fits)
  | killed _ =>
    rw [killBatching, diary_wakeShutdowns]
    exact resolveAll_written _ { e with batching := .killed, batcher := {}, queue := {} }

theorem Batches.written (batches : Batches c e f)
    (fits : ∀ x ∈ e.queue.toList, x.size ≤ maxBatchBytes) : Written c e.diary f.diary := by
  cases batches with
  | take x rest _ queued taken =>
    exact taken.written (e := { e with queue := rest }) (fits x (queued ▸ List.mem_cons_self ..))
  | flush _ => exact dispatchAll_written _ { e with batcher := (e.batcher.flushExpired _).2 }
  | retire _ _ =>
    rw [diary_wakeShutdowns]
    exact dispatchAll_written _ { e with batcher := e.batcher.drain.2, batching := .ended }
  | wait _ => exact .refl

theorem batchingTurn_written (sound : e.custody.Sound c) :
    Written c e.diary (e.batchingTurn c).2.diary := by
  have turn := batchingTurn_batches c e
  generalize (e.batchingTurn c).2 = f at turn ⊢
  -- The custody of the engine stays sound along the turn, so what is taken still fits.
  have both : f.custody.Sound c ∧ Written c e.diary f.diary := by
    induction turn with
    | refl => exact ⟨sound, .refl⟩
    | tail _ batches ih =>
      have moves : Custody.Moves c False _ _ := batches.moves ih.1
      exact ⟨ih.1.moves moves, ih.2.trans (batches.written ih.1.kept.queued)⟩
  exact both.2

/-! Turns of the tasks that send -/

theorem diary_setSending (e : Engine σ τ) (s : Sending τ) :
    (e.setSending s).diary = e.diary.set s :=
  rfl

/-- The end of a sending is written before the outcomes that follow from it. -/
theorem endSending_written (e : Engine σ τ) (s : Sending τ) (result : SendResult) :
    Written c (e.diary.finish s result) (e.endSending s result).diary := by
  have ended (counters : Counters) : ({ e with
        counters := counters
        sends := e.sends.filter (·.id != s.id) }.note (endOf s result)).diary =
      e.diary.finish s result :=
    diary_note { e with counters := _, sends := _ } _
  rw [endSending_eq, diary_wakeShutdowns, ← ended]
  exact resolveAll_written _ _

theorem SendingTurn.written {again : Bool} (turn : SendingTurn v c e s (again, f))
    (here : e.sending? s.id = some s) : Written c e.diary f.diary := by
  have noted (service : σ) (hs : List Happening) :
      ({ e with service := service }.note hs).diary = e.diary.note hs :=
    diary_note { e with service := service } hs
  cases turn with
  | call timeout latency call service ready _ _ =>
    have called : ({ e with
        counters := e.counters.countAttempt
        service := service }.note
          [.logged (some s.id) (.sendAttempt (.ofNat (s.attempts + 1)) s.batch.size),
            .called s.id (s.attempts + 1) s.batch.messages]).diary = e.diary.note _ :=
      diary_note _ _
    rw [diary_setSending, called]
    exact .single (.call s _ _ _ _ here ready)
  | wait wake _ _ => exact .single (.wait s e.alarms here)
  | settle timeout limit answerAt call reply service result phase _ final =>
    have ended := endSending_written (c := c)
      ({ e with service := service }.note [.answered s.id s.attempts reply]) s result
    rw [noted] at ended
    exact .head (.settle s timeout limit answerAt call reply result here phase final) ended
  | fail timeout limit answerAt call reply service error phase _ passes =>
    rw [diary_setSending, noted]
    exact .single (.fail s timeout limit answerAt call reply _ error here phase passes)
  | resume wake error phase _ left => exact .single (.resume s wake error here phase left)
  | exhaust wake error phase _ spent =>
    exact .head (.exhaust s wake error here phase spent) (endSending_written e s _)

/-! Steps -/

theorem turn_written (sound : e.custody.Sound c)
    (alive : e.blocked ≠ [] → e.closing = true ∨ e.batching = .running) (t : Task) :
    Written c e.diary (e.turn v c t).2.diary := by
  have turn := turn_goes v c e t
  generalize e.turn v c t = result at turn ⊢
  cases turn with
  | batching => exact batchingTurn_written sound
  | ended _ _ => exact .refl
  | sending s here turn => exact turn.written here
  | publishing call => exact publishingTurn_written alive
  | shutdown call => exact shutdownTurn_written e call

theorem diary_run (e : Engine σ τ) (v : Service σ τ) (c : Config) (t : Task) :
    (e.run v c t).diary = ({ e with ready := e.ready.erase t }.turn v c t).2.diary := by
  obtain ⟨ready, same⟩ := run_eq (v := v) (c := c) e t
  rw [same]
  rfl

/-- As long as the batching task is not killed, every step goes on writing. -/
theorem Step.written (h : Reachable v c e) (alive : e.batching ≠ .killed) (step : Step v c e f) :
    Written c e.diary f.diary := by
  cases step with
  | publish x clones _ _ => exact publish_written (h.live alive (Nat.ne_of_gt clones))
  | cancel call _ =>
    rw [cancel_eq]
    exact .refl
  | clone _ => exact .refl
  | dropClone _ _ =>
    rw [dropClone_eq]
    exact .refl
  | shutdown call _ _ _ => exact shutdown_written e call
  | run t _ =>
    rw [diary_run]
    refine turn_written (e := { e with ready := e.ready.erase t }) h.sound (fun waits => ?_) t
    exact h.live alive fun none => waits (h.orderly.alone none).1
  | pass now later =>
    rw [moveTo, diary_wakeAll]
    exact .single (.pass now later)

/-- What is true of the diary at the start, and kept by all that is written, is true of every
reachable engine whose batching task was not killed. -/
theorem Reachable.writes {motive : Diary τ → Prop}
    (init : ∀ service : σ, motive (start c service : Engine σ τ).diary)
    (writes : ∀ {k l : Diary τ}, motive k → Writes c k l → motive l) (h : Reachable v c e)
    (alive : e.batching ≠ .killed) : motive e.diary := by
  obtain ⟨service, run⟩ := h
  induction run with
  | refl => exact init service
  | @tail g f before step ih =>
    have reached : Reachable v c g := ⟨service, before⟩
    have living : g.batching ≠ .killed := fun dead =>
      alive (Run.killed reached dead (.single step))
    exact Diary.Written.keeps writes (ih living) (step.written reached living)

end Engine
end TopicPublisher
