import TopicPublisher.Proofs.Engine.Moves.Calls

/-!
The moves of entries that the batching task makes: into the open batch, and on with batches that
are closed.
-/

namespace TopicPublisher
namespace Engine

open Custody (Move Moves)

variable {σ τ : Type} {c : Config} {mayCrash : Prop} {e f : Engine σ τ} {x : Entry}

/-! Batches -/

theorem custody_dispatch (e : Engine σ τ) (b : Batch) :
    (e.dispatch b).custody =
      { e.custody with
        sends := e.custody.sends ++ [(e.dispatched, b)]
        dispatched := e.dispatched + 1 }.note [.dispatched e.dispatched b] := by
  rw [dispatch_eq, custody_note, Custody.note_cons, Custody.note_logged, custody, List.map_append]
  rfl

/-- Closed batches are dispatched one after the other. What they hold stood at the front of the
open batch. -/
theorem dispatchAll_moves (c : Config) (mayCrash : Prop) (bs : List Batch) {e : Engine σ τ}
    (running : e.batching = .running) :
    Moves c mayCrash { e.custody with current := bs.flatMap Batch.entries ++ e.custody.current }
      (e.dispatchAll bs).custody := by
  induction bs generalizing e with
  | nil => exact .refl
  | cons b rest ih =>
    have same : (e.dispatch b).batching = e.batching := by
      rw [dispatch_eq]
      rfl
    have step : Move c mayCrash
        { e.custody with current := (b :: rest).flatMap Batch.entries ++ e.custody.current } _ :=
      .dispatch b (rest.flatMap Batch.entries ++ e.custody.current) running (by simp)
    refine .head step ?_
    have moves := ih (same.trans running)
    rw [custody_dispatch] at moves
    exact moves

/-- Entries that are ending get their outcomes one after the other. -/
theorem resolveAll_moves (c : Config) (mayCrash : Prop) (os : List (Entry × Outcome))
    (e : Engine σ τ) :
    Moves c mayCrash { e.custody with ending := os }
      (e.resolveAll (os.map fun o => (o.1.id, o.2))).custody := by
  induction os generalizing e with
  | nil => exact .refl
  | cons o rest ih =>
    obtain ⟨x, outcome⟩ := o
    have step : Move c mayCrash { e.custody with ending := (x, outcome) :: rest } _ :=
      .resolve x outcome rest rfl
    refine .head step ?_
    have moves := ih (e.resolve x.id outcome)
    rw [custody_resolve] at moves
    exact moves

/-- An entry that was taken from the queue stands in the open batch, for as long as the batching
task lives. -/
theorem Taken.moves (taken : Taken c e x f) (running : e.batching = .running)
    (fits : x.size ≤ maxBatchBytes) :
    Moves c mayCrash { e.custody with current := e.custody.current ++ [x] } f.custody := by
  cases taken with
  | added closed batcher added =>
    have moves := dispatchAll_moves c mayCrash closed (e := { e with batcher := batcher }) running
    have contents := Batcher.add_contents added
    rwa [show (custody { e with batcher := batcher }).current = batcher.current.entries from rfl,
      contents] at moves
  | refused size large => exact absurd large (Nat.not_lt.mpr fits)
  | killed doomed =>
    have step : Move c mayCrash { e.custody with current := e.custody.current ++ [x] } _ :=
      .kill running rfl doomed
    have moves := resolveAll_moves c mayCrash
      ((e.batcher.current.entries ++ x :: e.queue.toList).map (·, .error .resultDropped))
      { e with batching := .killed, batcher := {}, queue := {} }
    refine .head step ?_
    rw [List.map_map] at moves
    rw [killBatching, dropEntries, custody_wakeShutdowns]
    simp only [List.append_assoc, List.singleton_append]
    exact moves

/-! The end of the batching task -/

theorem dispatchAll_batching (bs : List Batch) (e : Engine σ τ) (life : BatchingLife) :
    { e with batching := life }.dispatchAll bs = { e.dispatchAll bs with batching := life } := by
  unfold dispatchAll
  induction bs generalizing e with
  | nil => rfl
  | cons b rest ih =>
    have one : { e with batching := life }.dispatch b = { e.dispatch b with batching := life } := by
      rw [dispatch_eq, dispatch_eq]
      rfl
    rw [List.foldl_cons, List.foldl_cons, one, ih]

/-- The batching task ends: what was still open is dispatched, and nothing is left. -/
theorem lastDispatch_moves (c : Config) (mayCrash : Prop) (bs : List Batch) {e : Engine σ τ}
    (running : e.batching = .running) (current : e.batcher.current.entries = [])
    (queue : e.queue.toList = []) :
    Moves c mayCrash { e.custody with current := bs.flatMap Batch.entries }
      ({ e with batching := .ended }.dispatchAll bs).custody := by
  have moves := dispatchAll_moves c mayCrash bs running
  rw [show e.custody.current = [] from current, List.append_nil] at moves
  obtain ⟨batcher, fifo, batching⟩ := dispatchAll_same bs e
  rw [dispatchAll_batching]
  refine .tail moves (.retire (batching.trans running) ?_ ?_)
  · rw [custody, batcher]
    exact current
  · rw [custody, fifo]
    exact queue

/-! Turns of the batching task -/

theorem Batches.moves (batches : Batches c e f) (h : e.custody.Sound c) :
    Moves c mayCrash e.custody f.custody := by
  cases batches with
  | take x rest running queued taken =>
    have fits : x.size ≤ maxBatchBytes := h.kept.queued x (by simp [custody, queued])
    exact .head (.take x rest.toList running queued) (taken.moves running fits)
  | flush running =>
    have contents := Batcher.flushExpired_contents (Clock.instant e.now) e.batcher
    have moves := dispatchAll_moves c mayCrash
      (e.batcher.flushExpired (Clock.instant e.now)).1.toList
      (e := { e with batcher := (e.batcher.flushExpired (Clock.instant e.now)).2 }) running
    rwa [show (custody { e with batcher := (e.batcher.flushExpired (Clock.instant e.now)).2
      }).current = (e.batcher.flushExpired (Clock.instant e.now)).2.current.entries from rfl,
      contents] at moves
  | retire running empty =>
    obtain ⟨drained, nothing⟩ := Batcher.drain_contents e.batcher
    have last := lastDispatch_moves c mayCrash e.batcher.drain.1.toList
      (e := { e with batcher := e.batcher.drain.2 }) running nothing empty
    rw [drained] at last
    rw [custody_wakeShutdowns]
    exact last
  | wait _ => exact .refl

theorem batchingTurn_moves (h : e.custody.Sound c) :
    Moves c mayCrash e.custody (e.batchingTurn c).2.custody := by
  have turn := batchingTurn_batches c e
  generalize (e.batchingTurn c).2 = f at turn ⊢
  induction turn with
  | refl => exact .refl
  | tail _ batches ih => exact ih.trans (batches.moves (h.moves ih))

end Engine
end TopicPublisher
