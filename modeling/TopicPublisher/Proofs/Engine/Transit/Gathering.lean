import TopicPublisher.Proofs.Engine.Moves.Batching
import TopicPublisher.Proofs.Engine.Transit

/-!
How entries are gathered. Publish calls bring them, one at a time; the batching task adds them to
the open batch in the order of the queue, and closes it.
-/

namespace TopicPublisher
namespace Transit

variable {σ τ : Type}

/-- What publish calls and the batching task do to the transit. -/
inductive Gather (c : Config) (k : Transit σ τ) : Transit σ τ → Prop where
  | enqueue (x : Entry) : k.batching = .running →
      Gather c k ({ k with queue := k.queue ++ [x] }.note [.admitted x])
  | add (x : Entry) (rest : List Entry) (closed : List Batch) (batcher : Batcher) :
      k.batching = .running → k.queue = x :: rest →
      k.batcher.add c.thresholds (Clock.instant k.now) x = .ok (closed, batcher) →
      Gather c k ({ k with queue := rest, batcher := batcher }.dispatchAll closed)
  | close : k.batching = .running → k.batcher.current.isEmpty = false →
      Gather c k ({ k with batcher := {} }.dispatch k.batcher.current)
  | retire : k.batching = .running → k.batcher.current.entries = [] → k.queue = [] →
      Gather c k { k with batching := .ended }
  | kill : k.batching = .running →
      Clock.representable (Clock.instant k.now + c.thresholds.delay.nanos) = false →
      Gather c k { k with batching := .killed, batcher := {}, queue := [] }

abbrev Gathers (c : Config) : Transit σ τ → Transit σ τ → Prop :=
  Relation.ReflTransGen (Gather c)

end Transit

namespace Engine

open Transit (Gather Gathers)

variable {σ τ : Type} {c : Config} {e f : Engine σ τ} {x : Entry}

/-! Publish calls -/

/-- Only an entry that is accepted is seen on its way. -/
theorem Decided.gathers {d : Decision} (decided : Decided e x d f) (c : Config) :
    Gathers c e.transit f.transit := by
  cases decided with
  | waits => exact .refl
  | refused error => rw [transit_refused]
  | accepted _ running =>
    have queued : transit { e with queue := e.queue.push x } =
        { e.transit with queue := e.transit.queue ++ [x] } := by
      rw [transit, Fifo.toList_push]
      rfl
    have step : Gather c e.transit _ := .enqueue x running
    rw [transit_note, transit_wake, queued]
    exact .single step
  | late _ => rw [transit_refuse, transit_releaseCall]
  | orphaned _ _ => rw [transit_note_aside (by simp [Happening.inTransit]), transit_resolve]

theorem publish_gathers (c : Config) (e : Engine σ τ) (x : Entry) :
    Gathers c e.transit (e.publish x).transit := by
  have arrives := publish_arrives e x
  generalize e.publish x = f at arrives ⊢
  cases arrives with
  | tooLarge _ | late _ _ => rw [transit_refuse]
  | asks _ _ decided =>
    have gathers := decided.gathers c
    rw [transit_wakeCalls] at gathers
    exact gathers

theorem publishingTurn_gathers (c : Config) (e : Engine σ τ) (call : Nat) :
    Gathers c e.transit (e.publishingTurn call).transit := by
  have looks := publishingTurn_looks e call
  generalize e.publishingTurn call = f at looks ⊢
  cases looks with
  | gone _ => exact .refl
  | asks x _ decided =>
    have gathers := decided.gathers c
    rw [transit_wakeCalls] at gathers
    exact gathers

/-! Turns of the batching task -/

theorem transit_dispatch (e : Engine σ τ) (b : Batch) :
    (e.dispatch b).transit = e.transit.dispatch b := by
  rw [dispatch_eq, transit_note]
  rfl

theorem transit_dispatchAll (bs : List Batch) (e : Engine σ τ) :
    (e.dispatchAll bs).transit = e.transit.dispatchAll bs := by
  unfold dispatchAll Transit.dispatchAll
  induction bs generalizing e with
  | nil => rfl
  | cons b rest ih => rw [List.foldl_cons, List.foldl_cons, ih, transit_dispatch]

theorem transit_killBatching (e : Engine σ τ) (x : Entry) : (e.killBatching x).transit =
    { e.transit with batching := .killed, batcher := {}, queue := [] } := by
  rw [killBatching, transit_wakeShutdowns, dropEntries, transit_resolveAll]
  rfl

theorem Taken.gathers (taken : Taken c e x f) (running : e.batching = .running)
    (fits : x.size ≤ maxBatchBytes) :
    Gathers c { e.transit with queue := x :: e.transit.queue } f.transit := by
  cases taken with
  | added closed batcher added =>
    have step : Gather c { e.transit with queue := x :: e.transit.queue } _ :=
      .add x e.transit.queue closed batcher running rfl added
    rw [transit_dispatchAll]
    exact .single step
  | refused size large => exact absurd large (Nat.not_lt.mpr fits)
  | killed doomed =>
    have step : Gather c { e.transit with queue := x :: e.transit.queue } _ :=
      .kill running doomed
    rw [transit_killBatching]
    exact .single step

/-- The batching task closes the open batch, unless it is empty, and ends. -/
theorem lastDispatch_gathers (running : e.batching = .running) (queue : e.queue.toList = []) :
    Gathers c e.transit ({ e with
      batcher := e.batcher.drain.2, batching := .ended }.dispatchAll
        e.batcher.drain.1.toList).transit := by
  unfold Batcher.drain
  split
  · next empty =>
    exact .single (.retire running (List.isEmpty_iff.mp empty) queue)
  · next full =>
    have closed : Gather c e.transit _ := .close running (Bool.eq_false_iff.mpr full)
    refine .tail (.single closed) ?_
    rw [transit_dispatchAll]
    exact .retire running rfl queue

theorem Batches.gathers (batches : Batches c e f)
    (fits : ∀ x ∈ e.queue.toList, x.size ≤ maxBatchBytes) : Gathers c e.transit f.transit := by
  cases batches with
  | take x rest running queued taken =>
    have before : e.transit =
        { transit { e with queue := rest } with queue := x :: rest.toList } := by
      rw [transit, queued]
      rfl
    rw [before]
    exact taken.gathers running (fits x (queued ▸ List.mem_cons_self ..))
  | flush running =>
    unfold Batcher.flushExpired
    rw [transit_dispatchAll]
    split
    · split
      · next full => exact .single (.close running full.2)
      · exact .refl
    · exact .refl
  | retire running empty =>
    rw [transit_wakeShutdowns]
    exact lastDispatch_gathers running empty
  | wait _ => exact .refl

theorem batchingTurn_gathers (sound : e.custody.Sound c) :
    Gathers c e.transit (e.batchingTurn c).2.transit := by
  have turn := batchingTurn_batches c e
  generalize (e.batchingTurn c).2 = f at turn ⊢
  -- The custody of the engine stays sound along the turn, so what is taken still fits.
  have both : f.custody.Sound c ∧ Gathers c e.transit f.transit := by
    induction turn with
    | refl => exact ⟨sound, .refl⟩
    | tail _ batches ih =>
      have moves : Custody.Moves c False _ _ := batches.moves ih.1
      exact ⟨ih.1.moves moves, ih.2.trans (batches.gathers ih.1.kept.queued)⟩
  exact both.2

end Engine
end TopicPublisher
