import TopicPublisher.Proofs.Engine.Prompt
import TopicPublisher.Proofs.Engine.Progress
import TopicPublisher.Proofs.Engine.Survival

/-!
The loop of the batching task. It turns only to take an entry from the queue, to close the open
batch at its deadline, or to be left. Main statement: the turns that come round again at one reading
of the clock are as many as the entries received and the batches closed at that reading, and once
the loop is left nothing remains in the queue or in the open batch.
-/

namespace TopicPublisher

namespace Engine

variable {σ τ : Type}

/-- A turn of the loop: the batching task is ready and takes the branch that is open to it. -/
structure Lap (v : Service σ τ) (c : Config) where
  before : Engine σ τ
  branch : Branch
  ready : .batching ∈ before.ready
  taken : before.branch? = some branch

namespace Lap

variable {v : Service σ τ} {c : Config}

def after (lap : Lap v c) : Engine σ τ := lap.before.run v c .batching

/-- The entry that the turn takes from the queue. -/
def received (lap : Lap v c) : List Entry :=
  match lap.branch with
  | .entry x => [x]
  | _ => []

/-- The batch that the turn closes at its deadline, with the number of its dispatch. -/
def flushed (lap : Lap v c) : List (Nat × Batch) :=
  match lap.branch with
  | .timer =>
    (lap.before.batcher.flushExpired (Clock.instant lap.before.now)).1.toList.map
      (lap.before.dispatched, ·)
  | _ => []

/-- What a turn has to show. By the timer it dispatches a batch with entries and disarms the
deadline, by the queue it takes the oldest entry, and if it leaves the loop nothing remains. -/
structure Progress (lap : Lap v c) : Prop where
  timer : lap.branch = .timer → ∃ batch,
    lap.before.batcher.flushExpired (Clock.instant lap.before.now) = (some batch, {}) ∧
      batch.entries ≠ [] ∧
      lap.after.dispatches = lap.before.dispatches ++ [(lap.before.dispatched, batch)] ∧
      lap.after.batcher.deadline = none ∧ lap.after.queue = lap.before.queue ∧
      lap.after.batching = .running
  entry : ∀ x, lap.branch = .entry x →
    lap.before.queue.toList = x :: lap.after.queue.toList ∧ lap.after.batching = .running
  leaves : lap.branch.leaves = true →
    lap.after.batching = .ended ∧ lap.after.queue.toList = [] ∧
      lap.after.batcher.current.entries = [] ∧ lap.after.batcher.deadline = none

end Lap

/-- A run with all the turns of the loop in it, in their order. No other step of the run is a turn
of the loop. -/
inductive Looped (v : Service σ τ) (c : Config) : List (Lap v c) → Engine σ τ → Prop where
  | start (service : σ) : Looped v c [] (start c service)
  | turn {laps : List (Lap v c)} (lap : Lap v c) : Looped v c laps lap.before →
      Looped v c (laps ++ [lap]) lap.after
  | aside {laps : List (Lap v c)} {e f : Engine σ τ} : Looped v c laps e → Step v c e f →
      (∀ lap : Lap v c, lap.before = e → lap.after ≠ f) → Looped v c laps f

variable {v : Service σ τ} {c : Config} {e f : Engine σ τ} {laps : List (Lap v c)} {lap : Lap v c}
  {x : Entry}

/-! One turn of the task -/

/-- With no branch open the task asks for no other turn, and nothing happens at the bench. -/
theorem batchingTurn_waits (none : e.branch? = none) :
    (e.batchingTurn c).1 = false ∧ (e.batchingTurn c).2.bench = e.bench := by
  have turn := batchingTurn_goes c e
  rw [none] at turn
  generalize e.batchingTurn c = result at turn ⊢
  cases turn with
  | stopped | waits => exact ⟨rfl, rfl⟩

theorem branch?_ready (e : Engine σ τ) (ready : List Task) :
    { e with ready := ready }.branch? = e.branch? :=
  rfl

theorem Lap.turns (lap : Lap v c) :
    ∃ again ready f, BatchingTurn c { lap.before with ready := lap.before.ready.erase .batching }
      (some lap.branch) (again, f) ∧ lap.after = { f with ready := ready } := by
  obtain ⟨ready, same⟩ := run_eq (v := v) (c := c) lap.before .batching
  have turn := batchingTurn_goes c { lap.before with ready := lap.before.ready.erase .batching }
  rw [branch?_ready, lap.taken] at turn
  exact ⟨_, ready, _, turn, same⟩

theorem dispatches_dispatch (e : Engine σ τ) (b : Batch) :
    (e.dispatch b).dispatches = e.dispatches ++ [(e.dispatched, b)] :=
  congrArg Custody.dispatches (custody_dispatch e b)

/-- A batching task that has stopped, and was not killed, has left nothing behind. -/
theorem Reachable.nothing_left (h : Reachable v c e) (alive : e.batching ≠ .killed)
    (stopped : e.batching ≠ .running) :
    e.batching = .ended ∧ e.queue.toList = [] ∧ e.batcher.current.entries = [] ∧
      e.batcher.deadline = none := by
  have ended : e.batching = .ended := by
    cases life : e.batching with
    | running => exact absurd life stopped
    | ended => rfl
    | killed => exact absurd life alive
  obtain ⟨current, queue⟩ := h.ordered.ended ended
  exact ⟨ended, queue, current, h.armed.mpr current⟩

theorem Lap.progress (reached : Reachable v c lap.before)
    (alive : lap.after.batching ≠ .killed) : lap.Progress := by
  have after : Reachable v c lap.after := reached.step (.run .batching lap.ready)
  obtain ⟨again, ready, f, turn, same⟩ := lap.turns
  constructor
  · intro timer
    rw [timer] at turn
    cases turn with
    | leaves _ leaves _ _ => cases leaves
    | flushes deadline running armed past =>
      obtain ⟨flushed, some⟩ := Batcher.flushExpired_past reached.armed armed past
      rw [flushed] at same
      obtain ⟨batcher, queue, batching⟩ := dispatchAll_same [lap.before.batcher.current]
        { lap.before with ready := lap.before.ready.erase .batching, batcher := {} }
      rw [same]
      exact ⟨_, flushed, some, dispatches_dispatch _ _, congrArg Batcher.deadline batcher, queue,
        batching.trans running⟩
  · intro x entry
    rw [entry] at turn
    cases turn with
    | leaves _ leaves _ _ => cases leaves
    | takes _ rest running queued taken =>
      rw [same] at alive ⊢
      have still := taken.running running alive
      exact ⟨by rw [taken.queue still]; exact queued, still⟩
  · intro leaves
    refine after.nothing_left alive ?_
    generalize lap.branch = branch at turn leaves
    cases turn with
    | leaves _ _ _ _ =>
      rw [same]
      exact endBatching_stops c _
    | flushes | takes => cases leaves

/-! Whole runs -/

theorem idle_branch? (idle : e.Idle .batching) : e.branch? = none := by
  unfold branch?
  split
  · rfl
  next running =>
  obtain ⟨opened, clones, queue, early⟩ := idle (not_not.mp running)
  have waits : ¬ e.batchingWake?.any (· ≤ e.now) = true := fun due =>
    have ⟨wake, wakes, past⟩ := (Option.any_eq_true ..).mp due
    Nat.not_lt.mpr (of_decide_eq_true past) (early wake wakes)
  rw [if_neg (Bool.eq_false_iff.mp opened), if_neg waits, (Fifo.pop?_eq_none_iff _).mpr queue]
  exact if_neg clones

/-- A step that is no turn of the loop leaves the bench as it is, up to the time. -/
theorem Step.beside (reached : Reachable v c e) (step : Step v c e f)
    (aside : ∀ lap : Lap v c, lap.before = e → lap.after ≠ f) :
    f.batcher = e.batcher ∧ f.batching = e.batching ∧ f.dispatched = e.dispatched := by
  rcases step.bench with same | rfl | ⟨now, -, rfl⟩
  · exact ⟨congrArg Workbench.batcher same, congrArg Workbench.batching same,
      congrArg Workbench.dispatched same⟩
  · -- With a branch open the task would be ready, and the step would be a turn of the loop.
    have none : e.branch? = none := by
      cases taken : e.branch? with
      | none => rfl
      | some branch =>
        rcases reached.heeds .batching with ready | idle
        · exact absurd rfl (aside ⟨e, branch, ready, taken⟩ rfl)
        · exact taken.symm.trans (idle_branch? idle)
    obtain ⟨ready, same⟩ := run_eq (v := v) (c := c) e .batching
    obtain ⟨-, waits⟩ := batchingTurn_waits (c := c)
      (e := { e with ready := e.ready.erase .batching }) none
    rw [same]
    exact ⟨congrArg Workbench.batcher waits, congrArg Workbench.batching waits,
      congrArg Workbench.dispatched waits⟩
  · rw [moveTo, wakeAll_eq]
    exact ⟨rfl, rfl, rfl⟩

theorem Looped.reachable (looped : Looped v c laps e) : Reachable v c e := by
  induction looped with
  | start service => exact .init service
  | turn lap _ ih => exact ih.step (.run .batching lap.ready)
  | aside _ step _ ih => exact ih.step step

/-- Every run is one of the loop's turns and of other steps. -/
theorem Reachable.looped (h : Reachable v c e) : ∃ laps, Looped v c laps e := by
  obtain ⟨service, run⟩ := h
  induction run with
  | refl => exact ⟨[], .start service⟩
  | @tail e f _ step ih =>
    obtain ⟨laps, looped⟩ := ih
    by_cases turn : ∃ lap : Lap v c, lap.before = e ∧ lap.after = f
    · obtain ⟨lap, rfl, rfl⟩ := turn
      exact ⟨_, looped.turn lap⟩
    · exact ⟨laps, looped.aside step fun lap before after => turn ⟨lap, before, after⟩⟩

/-- Where no branch is open, no step is a turn of the loop. -/
theorem Looped.wait (looped : Looped v c laps e) (step : Step v c e f) (none : e.branch? = none) :
    Looped v c laps f := by
  refine looped.aside step fun lap before _ => ?_
  obtain rfl := before
  exact nomatch none.symm.trans lap.taken

theorem Lap.running (lap : Lap v c) : lap.before.batching = .running := by
  by_contra stopped
  have none : lap.before.branch? = none := if_pos stopped
  exact nomatch none.symm.trans lap.taken

theorem Lap.admitted_after (lap : Lap v c) : lap.after.admitted = lap.before.admitted :=
  congrArg Desk.admitted (desk_run_batching lap.before)

/-- A turn that stays in the loop receives an entry or closes a batch. -/
theorem Lap.Progress.counts (h : lap.Progress) :
    lap.received.length + lap.flushed.length = if !lap.branch.leaves then 1 else 0 := by
  unfold Lap.received Lap.flushed
  cases branch : lap.branch with
  | timer =>
    obtain ⟨batch, flushed, -⟩ := h.timer branch
    rw [flushed]
    rfl
  | closing | entry | deserted => rfl

theorem Lap.Progress.queue (h : lap.Progress) (stays : lap.branch.leaves = false) :
    lap.before.queue.toList = lap.received ++ lap.after.queue.toList := by
  unfold Lap.received
  cases branch : lap.branch with
  | timer =>
    obtain ⟨_, -, -, -, -, queue, -⟩ := h.timer branch
    rw [queue]
    rfl
  | entry x => exact (h.entry x branch).1
  | closing | deserted =>
    rw [branch] at stays
    cases stays

theorem Lap.Progress.received (h : lap.Progress) : lap.received <+: lap.before.queue.toList := by
  unfold Lap.received
  cases branch : lap.branch with
  | entry x =>
    rw [(h.entry x branch).1]
    exact List.prefix_append [x] _
  | closing | timer | deserted => exact List.nil_prefix

theorem Lap.Progress.flushed (h : lap.Progress) :
    lap.before.dispatches ++ lap.flushed <+: lap.after.dispatches := by
  have step : Step v c lap.before lap.after := .run .batching lap.ready
  have more : lap.before.dispatches <+: lap.after.dispatches := step.events_prefix.filterMap _
  unfold Lap.flushed
  cases branch : lap.branch with
  | timer =>
    obtain ⟨batch, flushed, -, dispatches, -⟩ := h.timer branch
    rw [flushed, dispatches]
    exact List.prefix_rfl
  | closing | entry | deserted =>
    rw [List.append_nil]
    exact more

theorem Reachable.order_running (h : Reachable v c e) (running : e.batching = .running) :
    e.admitted =
      e.dispatches.flatMap (·.2.entries) ++ e.batcher.current.entries ++ e.queue.toList :=
  h.ordered.order fun dead => nomatch running.symm.trans dead

/-- What the turns of the loop so far amount to. -/
structure Frugal (laps : List (Lap v c)) (e : Engine σ τ) : Prop where
  progress : ∀ lap ∈ laps, lap.Progress
  last : ∀ lap ∈ laps.dropLast, lap.branch.leaves = false
  received : laps.flatMap Lap.received <+: e.admitted
  flushed : (laps.flatMap Lap.flushed).Sublist e.dispatches
  running : e.batching = .running → (∀ lap ∈ laps, lap.branch.leaves = false) ∧
    laps.flatMap Lap.received ++ e.queue.toList = e.admitted

theorem Frugal.turn (h : Frugal laps lap.before) (progress : lap.Progress) :
    Frugal (laps ++ [lap]) lap.after := by
  obtain ⟨stayed, order⟩ := h.running lap.running
  constructor
  · exact List.forall_mem_append.mpr ⟨h.progress, List.forall_mem_singleton.mpr progress⟩
  · rw [List.dropLast_concat]
    exact stayed
  · rw [List.flatMap_append, List.flatMap_singleton, lap.admitted_after, ← order]
    exact (List.prefix_append_right_inj _).mpr progress.received
  · rw [List.flatMap_append, List.flatMap_singleton]
    exact (h.flushed.append_right _).trans progress.flushed.sublist
  · intro running
    have stays : lap.branch.leaves = false := Bool.eq_false_iff.mpr fun leaves =>
      nomatch (progress.leaves leaves).1.symm.trans running
    refine ⟨List.forall_mem_append.mpr ⟨stayed, List.forall_mem_singleton.mpr stays⟩, ?_⟩
    rw [List.flatMap_append, List.flatMap_singleton, List.append_assoc, ← progress.queue stays,
      lap.admitted_after, order]

theorem Frugal.aside (h : Frugal laps e) (reached : Reachable v c e) (step : Step v c e f)
    (aside : ∀ lap : Lap v c, lap.before = e → lap.after ≠ f) : Frugal laps f := by
  have more : e.dispatches <+: f.dispatches := step.events_prefix.filterMap _
  refine { h with
    received := h.received.trans (step.events_prefix.filterMap _)
    flushed := h.flushed.trans more.sublist
    running := fun running => ?_ }
  obtain ⟨batcher, batching, dispatched⟩ := step.beside reached aside
  have was : e.batching = .running := batching.symm.trans running
  obtain ⟨stayed, order⟩ := h.running was
  refine ⟨stayed, ?_⟩
  -- What was received is what is in batches, and the step changes none of them.
  have dispatches : f.dispatches = e.dispatches := by
    refine (more.eq_of_length ?_).symm
    rw [reached.length_dispatches, (reached.step step).length_dispatches, dispatched]
  have gathered : laps.flatMap Lap.received =
      e.dispatches.flatMap (·.2.entries) ++ e.batcher.current.entries :=
    List.append_cancel_right (order.trans (reached.order_running was))
  rw [(reached.step step).order_running running, dispatches, batcher, gathered]

theorem Looped.frugal (looped : Looped v c laps e) (alive : e.batching ≠ .killed) :
    Frugal laps e := by
  induction looped with
  | start service =>
    exact ⟨List.forall_mem_nil _, List.forall_mem_nil _, List.nil_prefix, List.nil_sublist _,
      fun _ => ⟨List.forall_mem_nil _, rfl⟩⟩
  | turn lap looped ih =>
    have reached : Reachable v c lap.before := looped.reachable
    have living : lap.before.batching ≠ .killed := fun dead => nomatch lap.running.symm.trans dead
    exact (ih living).turn (lap.progress reached alive)
  | aside looped step aside ih =>
    have reached := looped.reachable
    have living := fun dead => alive (Run.killed reached dead (.single step))
    exact (ih living).aside reached step aside

/-- Of turns that make progress, those that stay in the loop are as many as the entries that were
received and the batches that were closed. -/
theorem countP_stays (progress : ∀ lap ∈ laps, lap.Progress) :
    laps.countP (!·.branch.leaves) =
      (laps.flatMap Lap.received).length + (laps.flatMap Lap.flushed).length := by
  induction laps with
  | nil => rfl
  | cons lap rest ih =>
    obtain ⟨first, more⟩ := List.forall_mem_cons.mp progress
    rw [List.countP_cons, List.flatMap_cons, List.flatMap_cons, List.length_append,
      List.length_append, ih more, ← first.counts]
    omega

/-- The turns that end at a reading of the clock. -/
def during (now : Nat) (laps : List (Lap v c)) : List (Lap v c) :=
  laps.filter (·.before.now == now)

/-- The loop of the batching task never spins. While no branch is open to it the task waits: it asks
for no other turn, and nothing happens at the bench. Every run has its list of turns of the loop,
and while the deadlines fall inside of the clock each of them makes progress: by the timer a batch
with entries is dispatched and the deadline is disarmed, by the queue one entry is received, and any
other turn leaves the loop, after which the queue and the open batch are empty and stay so. No turn
follows one that leaves. So at any reading as many turns come round again as entries are received
and batches are closed at their deadline, where each admitted entry is received at most once, in the
order of admission, and each of the batches is another one of those that are dispatched. -/
theorem loop_never_spins (h : Reachable v c e)
    (representable :
      Clock.representable (Clock.instant e.now + c.thresholds.delay.nanos) = true) :
    (e.branch? = none → (e.batchingTurn c).1 = false ∧ (e.batchingTurn c).2.bench = e.bench) ∧
      (∃ laps, Looped v c laps e) ∧ ∀ laps, Looped v c laps e →
        (∀ lap ∈ laps, lap.Progress) ∧
        (∀ now, (during now laps).countP (!·.branch.leaves) =
          ((during now laps).flatMap Lap.received).length +
            ((during now laps).flatMap Lap.flushed).length) ∧
        (∀ lap ∈ laps.dropLast, lap.branch.leaves = false) ∧
        laps.flatMap Lap.received <+: e.admitted ∧
        (laps.flatMap Lap.flushed).Sublist e.dispatches ∧
        (e.batching = .running → laps.flatMap Lap.received ++ e.queue.toList = e.admitted) ∧
        (e.batching ≠ .running → e.batching = .ended ∧ e.queue.toList = [] ∧
          e.batcher.current.entries = [] ∧ e.batcher.deadline = none) := by
  have alive : e.batching ≠ .killed := fun dead =>
    nomatch representable.symm.trans (h.ordered.killed dead)
  refine ⟨batchingTurn_waits, h.looped, fun laps looped => ?_⟩
  have frugal := looped.frugal alive
  refine ⟨frugal.progress, fun now => ?_, frugal.last, frugal.received, frugal.flushed,
    fun running => (frugal.running running).2, h.nothing_left alive⟩
  exact countP_stays fun lap there => frugal.progress lap (List.mem_filter.mp there).1

/-- A batch is closed at its deadline, and in the same millisecond another entry is received and
shutdown begins. -/
theorem loop_never_spins_until_shutdown :
    ∃ (v : Service Unit Unit) (c : Config) (e : Engine Unit Unit) (laps : List (Lap v c)),
      Reachable v c e ∧
      Clock.representable (Clock.instant e.now + c.thresholds.delay.nanos) = true ∧
      Looped v c laps e ∧
      laps.map (fun lap => (lap.before.now, lap.branch)) =
        [(0, .entry ⟨0, ⟨⟨#[1, 2]⟩, []⟩⟩), (6, .timer), (6, .entry ⟨1, ⟨⟨#[3]⟩, []⟩⟩),
          (6, .closing)] ∧
      (∀ lap ∈ laps, lap.Progress) ∧
      ((during 6 laps).flatMap Lap.received).length +
        ((during 6 laps).flatMap Lap.flushed).length = 2 ∧
      e.batching = .ended ∧ e.queue.toList = [] ∧ e.batcher.current.entries = [] := by
  have started : Looped
      (⟨fun _ _ => (none, (), ()), fun _ _ => (.ids [], ())⟩ : Service Unit Unit)
      { topic := ⟨"project", "topic"⟩, thresholds := ⟨10, 10, ⟨5500000⟩⟩ } _ _ := .start ()
  have first := started.wait
    (.publish ⟨0, ⟨⟨#[1, 2]⟩, []⟩⟩ (by decide) (by decide) (by decide)) (by decide)
  have opened := first.turn ⟨_, .entry ⟨0, ⟨⟨#[1, 2]⟩, []⟩⟩, by decide, by decide⟩
  have waits := opened.wait (.run .batching (by decide)) (by decide)
  have later := waits.wait (.pass 6 (by decide)) (by decide)
  have closed := later.turn ⟨_, .timer, by decide +kernel, by decide +kernel⟩
  have second := closed.wait
    (.publish ⟨1, ⟨⟨#[3]⟩, []⟩⟩ (by decide +kernel) (by decide +kernel) (by decide +kernel))
    (by decide +kernel)
  have reopened := second.turn
    ⟨_, .entry ⟨1, ⟨⟨#[3]⟩, []⟩⟩, by decide +kernel, by decide +kernel⟩
  have closing := reopened.wait
    (.shutdown 0 (by decide +kernel) (by decide +kernel) (mem_finished.not.mp (by decide +kernel)))
    (by decide +kernel)
  have left := closing.turn ⟨_, .closing, by decide +kernel, by decide +kernel⟩
  have reached := left.reachable
  obtain ⟨progress, counts, -, -, -, -, done⟩ :=
    (loop_never_spins reached (by decide +kernel)).2.2 _ left
  obtain ⟨ended, queue, current, -⟩ := done (by decide +kernel)
  exact ⟨_, _, _, _, reached, by decide +kernel, left, by decide +kernel, progress,
    (counts 6).symm.trans (by decide +kernel), ended, queue, current⟩

end Engine
end TopicPublisher
