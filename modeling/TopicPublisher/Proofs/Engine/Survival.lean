import TopicPublisher.Draft
import TopicPublisher.Proofs.Engine.Course
import TopicPublisher.Proofs.Engine.Reception

/-!
What an engine survives. Main statement: as long as every deadline can be represented, nothing is
dropped, and nobody who published before the first shutdown call is told of a shutdown. A delay
that is accepted although no deadline with it can be represented kills an engine.
-/

namespace TopicPublisher

/-- The outcome neither was lost nor blames a shutdown. -/
def Spares (outcome : Outcome) : Prop :=
  outcome ≠ .error .resultDropped ∧ outcome ≠ .error .engineShutdown

theorem SendResult.spares_failed {error : PublishError} (spares : Spares (.error error))
    (messages : Nat) : ∀ outcome ∈ (SendResult.failed error).outcomes messages, Spares outcome :=
  fun _ ho => List.eq_of_mem_replicate ho ▸ spares

/-- What a reply decides at once, unless it brings down the task that made the call. -/
theorem Reply.spares {reply : Reply} {messages : Nat} {result : SendResult}
    (h : reply.verdict messages = .final result) (calm : reply ≠ .crash) :
    ∀ outcome ∈ result.outcomes messages, Spares outcome := by
  unfold Reply.verdict at h
  split at h
  · split at h
    · cases h
      intro outcome ho
      obtain ⟨id, -, rfl⟩ := List.mem_map.mp ho
      exact ⟨nofun, nofun⟩
    · cases h
      refine SendResult.spares_failed ?_ messages
      exact ⟨nofun, nofun⟩
  · split at h
    · cases h
    · cases h
      refine SendResult.spares_failed ?_ messages
      exact ⟨nofun, nofun⟩
  · exact absurd rfl calm

namespace Engine

variable {σ τ : Type} {v : Service σ τ} {c : Config} {e f : Engine σ τ} {x : Entry} {s : Sending τ}

/-! Outcomes from the batching task -/

theorem resolved_dispatchAll (bs : List Batch) (e : Engine σ τ) :
    (e.dispatchAll bs).resolved = e.resolved := by
  unfold dispatchAll
  induction bs generalizing e with
  | nil => rfl
  | cons b rest ih =>
    have one := congrArg Custody.resolved (custody_dispatch e b)
    rw [Custody.note_dispatched] at one
    rw [List.foldl_cons, ih]
    exact one

theorem resolved_resolveAll (e : Engine σ τ) (outcomes : List (Nat × Outcome)) :
    (e.resolveAll outcomes).resolved = e.resolved ++ outcomes := by
  rw [resolveAll_eq, resolved_note, (filterMap_resolutionsOf outcomes).1]
  rfl

/-- The handles that were given outcomes failed, and none was unless the batching task is killed. -/
def Drops (e f : Engine σ τ) : Prop :=
  ∃ lost, f.resolved = e.resolved ++ lost ∧ (∀ o ∈ lost, o.2.isOk = false) ∧
    (f.batching ≠ .killed → lost = [])

theorem Drops.of_same (same : f.resolved = e.resolved) : e.Drops f :=
  ⟨[], same.trans (List.append_nil _).symm, nofun, fun _ => rfl⟩

theorem Taken.drops (taken : Taken c e x f) (fits : x.size ≤ maxBatchBytes) : e.Drops f := by
  cases taken with
  | added closed batcher _ => exact .of_same (resolved_dispatchAll _ _)
  | refused size large => exact absurd large (Nat.not_lt.mpr fits)
  | killed _ =>
    have given : (e.killBatching x).resolved = e.resolved ++
        (e.batcher.current.entries ++ x :: e.queue.toList).map fun y =>
          (y.id, .error .resultDropped) := by
      rw [killBatching, wakeShutdowns_eq]
      exact resolved_resolveAll { e with batching := .killed, batcher := {}, queue := {} } _
    exact ⟨_, given, List.forall_mem_map.mpr fun _ _ => rfl,
      fun alive => absurd (killBatching_batching e x) alive⟩

theorem Batches.drops (batches : Batches c e f)
    (fits : ∀ x ∈ e.queue.toList, x.size ≤ maxBatchBytes) : e.Drops f := by
  cases batches with
  | take x rest _ queued taken =>
    exact taken.drops (e := { e with queue := rest }) (fits x (queued ▸ List.mem_cons_self ..))
  | flush _ => exact .of_same (resolved_dispatchAll _ _)
  | retire _ _ =>
    rw [wakeShutdowns_eq]
    exact .of_same (resolved_dispatchAll _ _)
  | wait _ => exact .of_same rfl

theorem Batches.running (batches : Batches c e f) : e.batching = .running := by
  cases batches with
  | take _ _ running _ _ | flush running | retire running _ | wait running => exact running

/-- The batching task gives no outcomes unless it is killed, and then it gives errors. -/
theorem batchingTurn_drops (sound : e.custody.Sound c) : e.Drops (e.batchingTurn c).2 := by
  have turn := batchingTurn_batches c e
  generalize (e.batchingTurn c).2 = f at turn ⊢
  have both : f.custody.Sound c ∧ e.Drops f := by
    induction turn with
    | refl => exact ⟨sound, .of_same rfl⟩
    | tail _ batches ih =>
      obtain ⟨sound, early, given, -, none⟩ := ih
      have moves : Custody.Moves c False _ _ := batches.moves sound
      -- The task was not killed before, or it would have done nothing more.
      have alive := none (batches.running ▸ nofun)
      rw [alive, List.append_nil] at given
      obtain ⟨late, added, errors, killed⟩ := batches.drops sound.kept.queued
      exact ⟨sound.moves moves, late, given ▸ added, errors, killed⟩
  exact both.2

/-- The batching task ends only if a shutdown call was made or no user is left. -/
theorem batchingTurn_ended (ended : (e.batchingTurn c).2.batching = .ended) :
    e.batching = .ended ∨ e.closing = true ∨ e.clones = 0 := by
  have turn := batchingTurn_goes c e
  generalize e.branch? = branch at turn
  generalize e.batchingTurn c = result at turn ended
  cases turn with
  | stopped _ => exact .inl ended
  | leaves _ _ _ why => exact .inr (why.imp_right And.right)
  | flushes _ running _ _ =>
    rw [(dispatchAll_same _ _).2.2] at ended
    exact nomatch running.symm.trans ended
  | takes x rest running _ taken =>
    have alive : _ ≠ BatchingLife.killed := fun dead => nomatch ended.symm.trans dead
    exact nomatch ended.symm.trans (taken.running running alive)
  | waits running _ _ _ _ => exact nomatch running.symm.trans ended

/-! Outcomes from the tasks that send -/

/-- What a turn of the task that sends a batch gives: nothing, or for every handle of the batch an
outcome that it was told, or that follows from its failures. -/
theorem SendingTurn.gives {again : Bool} (turn : SendingTurn v c e s (again, f)) :
    f.results = e.results ∧ f.resolved = e.resolved ∨
      ∃ result, (result.outcomes s.batch.size).length = s.batch.size ∧
        (¬ v.MayCrash → ∀ outcome ∈ result.outcomes s.batch.size, Spares outcome) ∧
        f.results = e.results ++ [(s.id, result)] ∧
        f.resolved = e.resolved ++ s.batch.ids.zip (result.outcomes s.batch.size) := by
  have noted (service : σ) (counters : Counters) (hs : List Happening)
      (ends : hs.filterMap Happening.ended? = []) (gives : hs.filterMap Happening.resolved? = []) :
      ({ e with service := service, counters := counters }.note hs).results = e.results ∧
        ({ e with service := service, counters := counters }.note hs).resolved = e.resolved := by
    rw [results_note, resolved_note, ends, gives, List.append_nil, List.append_nil]
    exact ⟨rfl, rfl⟩
  cases turn with
  | call timeout latency call service _ _ _ => exact .inl (noted service _ _ rfl rfl)
  | wait wake _ _ | resume wake error _ _ _ => exact .inl ⟨rfl, rfl⟩
  | settle timeout limit answerAt call reply service result _ ends final =>
    obtain ⟨before, unresolved⟩ :=
      noted service e.counters [.answered s.id s.attempts reply] rfl rfl
    obtain ⟨given, -, ended⟩ := endSending_handles
      ({ e with service := service }.note [.answered s.id s.attempts reply]) s result
    refine .inr ⟨result, outcomes_length final, fun calm => ?_, ?_, ?_⟩
    · exact Reply.spares final fun crash => calm (ends.mayCrash crash)
    · rw [ended, before]
    · rw [given, unresolved]
  | fail timeout limit answerAt call reply service error _ _ _ =>
    exact .inl (noted service e.counters _ (by simp) (by simp))
  | exhaust wake error _ _ _ =>
    obtain ⟨given, -, ended⟩ := endSending_handles e s
      (.failed (c.retries.exhausted s.attempts error))
    have spares : Spares (.error (c.retries.exhausted s.attempts error)) := by
      simp [Spares, RetryPolicy.exhausted]
    exact .inr ⟨.failed _, List.length_replicate, fun _ => SendResult.spares_failed spares _, ended,
      given⟩

/-- So its turns tell of no shutdown, and lose nothing unless it may crash. -/
theorem SendingTurn.spares {again : Bool} (turn : SendingTurn v c e s (again, f))
    (calm : ¬ v.MayCrash) : ∀ o ∈ f.resolved, o ∈ e.resolved ∨ Spares o.2 := by
  intro o ho
  rcases turn.gives with ⟨-, same⟩ | ⟨result, -, spares, -, given⟩
  · exact .inl (same ▸ ho)
  · rw [given] at ho
    exact (List.mem_append.mp ho).imp_right fun there => spares calm _ (List.of_mem_zip there).2

/-! Steps -/

/-- What can become of the handle of a publish call by a step: an outcome from the service, or a
refusal, which mentions a shutdown only after a shutdown call. -/
structure Told (e : Engine σ τ) (o : Nat × Outcome) : Prop where
  kept : o.2 ≠ .error .resultDropped
  shutdown : o.2 = .error .engineShutdown → e.closing = true ∧ o.1 ∉ e.returned

theorem Told.of_spares {o : Nat × Outcome} (spares : Spares o.2) : e.Told o :=
  ⟨spares.1, fun same => absurd same spares.2⟩

theorem Handled.told (handled : e.Handled x f) (new : x.id ∉ e.returned)
    (alive : e.closing = true ∨ e.batching = .running) :
    ∀ o ∈ f.resolved, o ∈ e.resolved ∨ e.Told o := by
  intro o ho
  cases handled with
  | admitted _ _ _ same => exact .inl (same ▸ ho)
  | waiting _ _ same => exact .inl (same ▸ ho)
  | refused error refuses _ given =>
    rw [given] at ho
    refine (List.mem_append.mp ho).imp_right fun there => ?_
    obtain rfl := List.mem_singleton.mp there
    cases refuses with
    | tooLarge _ => exact ⟨nofun, nofun⟩
    | noRoom limit _ => exact ⟨nofun, nofun⟩
    | stopped why =>
      refine ⟨nofun, fun _ => ⟨alive.elim id fun running => ?_, new⟩⟩
      exact why.resolve_right (not_not.mpr running)

theorem Visit.clones_zero (visit : Visit v c e f) (none : e.clones = 0) : f.clones = 0 := by
  cases visit with
  | inner _ same | cancel _ same _ | finish _ _ _ same _ =>
    exact (congrArg Desk.clones same).trans none
  | arrive _ clones _ _ | clones _ clones _ _ _ | shutdown _ clones _ _ _ =>
    exact absurd none (Nat.ne_of_gt clones)
  | resume x _ handled =>
    obtain ⟨blocked, returned, admitted, same⟩ := handled.desk
    exact (congrArg Desk.clones same).trans none

theorem Visit.returned (visit : Visit v c e f) : e.returned ⊆ f.returned := by
  cases visit with
  | inner _ same | cancel _ same _ | clones _ _ _ same _ | shutdown _ _ _ same _
  | finish _ _ _ same _ =>
    have kept : f.returned = e.returned := congrArg Desk.returned same
    exact kept ▸ .refl _
  | arrive x _ _ handled | resume x _ handled =>
    cases handled with
    | waiting _ same _ =>
      have kept : f.returned = e.returned := congrArg Desk.returned same
      exact kept ▸ .refl _
    | admitted _ _ same _ | refused _ _ same _ =>
      rw [show f.returned = e.returned ++ [x.id] from congrArg Desk.returned same]
      exact List.subset_append_left _ _

/-- The batching task ends only if a shutdown call was made or no user is left. -/
theorem Reachable.ended (h : Reachable v c e) (ended : e.batching = .ended) :
    e.closing = true ∨ e.clones = 0 := by
  obtain ⟨service, run⟩ := h
  induction run with
  | refl => cases ended
  | @tail g f before step ih =>
    have reached : Reachable v c g := ⟨service, before⟩
    have visit := reached.visit step
    have kept (was : g.closing = true ∨ g.clones = 0) : f.closing = true ∨ f.clones = 0 :=
      was.imp visit.closing visit.clones_zero
    rcases step.bench with same | rfl | ⟨now, -, rfl⟩
    · exact kept (ih ((congrArg Workbench.batching same).symm.trans ended))
    · obtain ⟨ready, same⟩ := run_eq (v := v) (c := c) g .batching
      rw [same] at ended
      have was := batchingTurn_ended (e := { g with ready := g.ready.erase .batching }) ended
      exact kept (was.elim ih id)
    · rw [moveTo, wakeAll_eq] at ended
      exact kept (ih ended)

/-- A publish call is looked at only while the engine lives or is closing. -/
theorem Reachable.live (h : Reachable v c e) (alive : e.batching ≠ .killed) (held : e.clones ≠ 0) :
    e.closing = true ∨ e.batching = .running := by
  cases life : e.batching with
  | running => exact .inr rfl
  | killed => exact absurd life alive
  | ended => exact .inl ((h.ended life).resolve_right held)

theorem Run.killed (h : Reachable v c e) (dead : e.batching = .killed) (run : Run v c e f) :
    f.batching = .killed :=
  Run.keeps (motive := fun k => k.batching = .killed)
    (fun _ dead move => not_not.mp fun alive => move.alive alive dead) h.sound dead run

theorem Step.told (calm : ¬ v.MayCrash) (h : Reachable v c e) (step : Step v c e f)
    (alive : f.batching ≠ .killed) : ∀ o ∈ f.resolved, o ∈ e.resolved ∨ e.Told o := by
  have living : e.batching ≠ .killed := fun dead => alive (Run.killed h dead (.single step))
  cases h.visit step with
  | inner which same =>
    rcases which with rfl | ⟨id, rfl⟩ | same
    · obtain ⟨ready, same⟩ := run_eq (v := v) (c := c) e .batching
      rw [same] at alive ⊢
      obtain ⟨lost, given, -, none⟩ := batchingTurn_drops (c := c)
        (e := { e with ready := e.ready.erase .batching }) h.sound
      rw [none alive, List.append_nil] at given
      exact fun o ho => .inl (given ▸ ho)
    · rcases run_sending v c e id with ⟨ready, same, -⟩ | ⟨s, again, g, ready, same, -, -, turn⟩
      · rw [same]
        exact fun o ho => .inl ho
      · rw [same]
        exact fun o ho => (turn.spares calm o ho).imp_right .of_spares
    · exact fun o ho => .inl (same ▸ ho)
  | arrive x clones new handled =>
    exact handled.told new (h.live living (Nat.ne_of_gt clones))
  | resume x hx handled =>
    have held : e.clones ≠ 0 := fun none =>
      List.ne_nil_of_mem hx (h.orderly.alone none).1
    have new := h.sound.kept.unreturned x (List.mem_append_right _ hx)
    exact fun o ho => (handled.told new (h.live living held) o ho).imp_right
      fun told => ⟨told.kept, told.shutdown⟩
  | cancel _ _ same | clones _ _ _ _ same | shutdown _ _ _ _ same | finish _ _ _ _ same =>
    exact fun o ho => .inl (same ▸ ho)

/-! Runs -/

theorem Run.returned (h : Reachable v c e) (run : Run v c e f) : e.returned ⊆ f.returned := by
  induction run with
  | refl => exact .refl _
  | tail before step ih => exact List.Subset.trans ih ((h.run before).visit step).returned

theorem Run.told (calm : ¬ v.MayCrash) (h : Reachable v c e) (run : Run v c e f)
    (alive : f.batching ≠ .killed) : ∀ o ∈ f.resolved, o ∈ e.resolved ∨
      o.2 ≠ .error .resultDropped ∧
        (o.2 = .error .engineShutdown → f.closing = true ∧ o.1 ∉ e.returned) := by
  induction run with
  | refl => exact fun o ho => .inl ho
  | @tail g f before step ih =>
    have reached := h.run before
    have visit := reached.visit step
    have returned := Run.returned h before
    intro o ho
    rcases step.told calm reached alive o ho with there | told
    · have living : g.batching ≠ .killed := fun dead =>
        alive (Run.killed reached dead (.single step))
      refine (ih living o there).imp_right (And.imp_right fun blames shutdown => ?_)
      exact (blames shutdown).imp_left visit.closing
    · refine .inr ⟨told.kept, fun shutdown => ?_⟩
      obtain ⟨closing, new⟩ := told.shutdown shutdown
      exact ⟨visit.closing closing, fun old => new (returned old)⟩

theorem start_resolved (c : Config) (service : σ) :
    (start c service : Engine σ τ).resolved = [] := by
  simp [resolved, events, start]

/-- With a service that answers calls as it likes but brings nobody down, and as long as the time
threshold can be added to the time: the batching task was not killed and no entry would kill it, no
handle says that its outcome was lost, and no handle that a publish call had returned before the
first shutdown call says that the engine was shut down. -/
theorem engine_survives (calm : ¬ v.MayCrash) (h : Reachable v c e)
    (representable :
      Clock.representable (Clock.instant e.now + c.thresholds.delay.nanos) = true) :
    e.batching ≠ .killed ∧
      (∀ (b : Batcher) (x : Entry),
        b.add c.thresholds (Clock.instant e.now) x ≠ .error .deadlineOverflow) ∧
      (∀ call, e.outcomeOf call ≠ some (.error .resultDropped)) ∧
      ∀ d, Reachable v c d → Run v c d e → d.closing = false →
        ∀ call ∈ d.returned, e.outcomeOf call ≠ some (.error .engineShutdown) := by
  have doomed (overflows :
      Clock.representable (Clock.instant e.now + c.thresholds.delay.nanos) = false) : False :=
    nomatch representable.symm.trans overflows
  have alive : e.batching ≠ .killed := fun dead => doomed (h.ordered.killed dead)
  -- Whatever was told to anyone so far, seen from the beginning of the run.
  have told {d : Engine σ τ} (hd : Reachable v c d) (living : d.batching ≠ .killed) :
      ∀ o ∈ d.resolved, o.2 ≠ .error .resultDropped ∧
        (o.2 = .error .engineShutdown → d.closing = true) := by
    obtain ⟨service, run⟩ := hd
    intro o ho
    rcases Run.told calm (.init service) run living o ho with there | ⟨kept, shutdown⟩
    · rw [start_resolved] at there
      cases there
    · exact ⟨kept, fun same => (shutdown same).1⟩
  refine ⟨alive, fun b x overflows => doomed (Batcher.add_deadlineOverflow overflows),
    fun call lost => (told h alive _ (mem_resolved lost)).1 rfl,
    fun d hd run opened call returned blamed => ?_⟩
  have living : d.batching ≠ .killed := fun dead => alive (Run.killed hd dead run)
  rcases Run.told calm hd run alive _ (mem_resolved blamed) with there | ⟨-, shutdown⟩
  · exact nomatch opened.symm.trans ((told hd living _ there).2 rfl)
  · exact (shutdown rfl).2 returned

/-- The publish call that returned before the shutdown call is not told of it, the other is. -/
theorem engine_survives_shutdown :
    ∃ (v : Service Unit Unit) (c : Config) (d e : Engine Unit Unit), ¬ v.MayCrash ∧
      Reachable v c d ∧ d.closing = false ∧ d.returned = [0] ∧ Run v c d e ∧
      Clock.representable (Clock.instant e.now + c.thresholds.delay.nanos) = true ∧
      e.batching ≠ .killed ∧ e.outcomeOf 0 ≠ some (.error .engineShutdown) ∧
      e.outcomeOf 1 = some (.error .engineShutdown) := by
  have started : Reachable
      (⟨fun _ _ => (some 0, (), ()), fun _ _ => (.ids ["7"], ())⟩ : Service Unit Unit)
      { topic := ⟨"project", "topic"⟩, thresholds := ⟨10, 10, ⟨5000000⟩⟩ } _ := .init ()
  have first := started.step (.publish ⟨0, ⟨⟨#[1, 2]⟩, []⟩⟩ (by decide) (by decide) (by decide))
  have run {v : Service Unit Unit} {c : Config} {e : Engine Unit Unit} (_ : Reachable v c e) :
      Run v c e e := .refl
  have asked := (run first).tail
    (.shutdown 9 (by decide) (by decide) (mem_finished.not.mp (by decide)))
  have second := asked.tail (.publish ⟨1, ⟨⟨#[3]⟩, []⟩⟩ (by decide) (by decide) (by decide))
  have calm : ¬ Service.MayCrash
      (⟨fun _ _ => (some 0, (), ()), fun _ _ => (.ids ["7"], ())⟩ : Service Unit Unit) := by
    rintro ⟨_, _, crash⟩
    cases crash
  obtain ⟨alive, -, -, untold⟩ := engine_survives calm (first.run second) (by decide)
  exact ⟨_, _, _, _, calm, first, by decide, by decide, second, by decide, alive,
    untold _ first second (by decide) 0 (by decide), by decide⟩

/-- The longest delay is accepted, and no deadline with it can be represented: the first message
kills the engine and is lost, and the next publish call is told of a shutdown that nobody asked
for. -/
theorem longest_delay_kills :
    ∃ (v : Service Unit Unit) (draft : Draft) (c : Config) (e : Engine Unit Unit) (x : Entry),
      ¬ v.MayCrash ∧ draft.build true = .ok c ∧ Reachable v c e ∧ e.closing = false ∧
      Batcher.add c.thresholds (Clock.instant e.now) x {} = .error .deadlineOverflow ∧
      e.returned = [0, 1] ∧ e.outcomeOf 0 = some (.error .resultDropped) ∧
      e.outcomeOf 1 = some (.error .engineShutdown) := by
  have started : Reachable
      (⟨fun _ _ => (none, (), ()), fun _ _ => (.ids [], ())⟩ : Service Unit Unit)
      { topic := ⟨"acmeco", "stocks"⟩, thresholds := ⟨10, 10, Duration.longest⟩ } _ := .init ()
  have first := started.step (.publish ⟨0, ⟨⟨#[1, 2]⟩, []⟩⟩ (by decide) (by decide) (by decide))
  have killed := first.step (.run .batching (by decide))
  have second := killed.step (.publish ⟨1, ⟨⟨#[3]⟩, []⟩⟩ (by decide) (by decide) (by decide))
  have accepted : ({
      topic := "projects/acmeco/topics/stocks"
      thresholds := ⟨10, 10, Duration.longest⟩ } : Draft).build true = .ok _ := rfl
  refine ⟨_, _, _, _, ⟨0, ⟨⟨#[1, 2]⟩, []⟩⟩, ?_, accepted, second, by decide, by decide, by decide,
    by decide, by decide⟩
  rintro ⟨_, _, crash⟩
  cases crash

end Engine
end TopicPublisher
