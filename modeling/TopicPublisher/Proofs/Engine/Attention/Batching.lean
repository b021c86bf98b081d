import TopicPublisher.Proofs.Engine.Attention.Calls

/-!
The batching task makes ready what it lets go on, and ends its turn only if it cannot go on itself.
-/

namespace TopicPublisher
namespace Engine

variable {σ τ : Type} {c : Config} {e f : Engine σ τ} {t : Task} {x : Entry}

theorem heeded_dispatch (h : e.Heeded t) (b : Batch) : (e.dispatch b).Heeded t := by
  have begun (other : t ≠ .sending e.dispatched) : Heeded { e with
      dispatched := e.dispatched + 1
      sends := e.sends ++ [{ id := e.dispatched, batch := b, started := e.now }] } t := by
    cases t with
    | sending id =>
      refine h.imp_right fun idle s hs hid => ?_
      rcases List.mem_append.mp hs with hs | hs
      · exact idle s hs hid
      · obtain rfl := List.mem_singleton.mp hs
        exact absurd (congrArg Task.sending hid.symm) other
    | shutdown call => exact .inr fun drained => absurd drained (by simp [isDrained])
    | batching | publishing => exact h
  have woken := heeded_wake begun
  rw [wake_eq] at woken
  rw [dispatch_eq, heeded_note]
  exact woken

theorem heeded_dispatchAll (h : e.Heeded t) (bs : List Batch) : (e.dispatchAll bs).Heeded t := by
  unfold dispatchAll
  induction bs generalizing e with
  | nil => exact h
  | cons b rest ih => exact ih (heeded_dispatch h b)

theorem Taken.heeds (taken : Taken c e x f) (other : t ≠ .batching) (h : e.Heeded t) :
    f.Heeded t := by
  cases taken with
  | added closed batcher _ => exact heeded_dispatchAll (heeded_aside other h) _
  | refused size _ => exact (heeded_note [_]).mpr (heeded_resolve h x.id _)
  | killed _ =>
    refine heeded_wakeShutdowns fun calls => heeded_resolveAll ?_ _
    exact heeded_stopped other calls h

theorem Batches.heeds (batches : Batches c e f) (other : t ≠ .batching) (h : e.Heeded t) :
    f.Heeded t := by
  cases batches with
  | take x rest _ _ taken => exact taken.heeds other (heeded_aside other h)
  | flush _ => exact heeded_dispatchAll (heeded_aside other h) _
  | retire _ _ =>
    refine heeded_wakeShutdowns fun calls => heeded_dispatchAll ?_ _
    exact heeded_stopped other calls h
  | wait _ => exact heeded_aside other h

theorem batchingTurn_heeds (other : t ≠ .batching) (h : e.Heeded t) :
    (e.batchingTurn c).2.Heeded t := by
  have turn := batchingTurn_batches c e
  generalize (e.batchingTurn c).2 = f at turn ⊢
  induction turn with
  | refl => exact h
  | tail _ batches ih => exact batches.heeds other ih

/-- The batching task ends its turn only if it cannot go on. -/
theorem batchingTurn_idle (waits : (e.batchingTurn c).1 = false) :
    (e.batchingTurn c).2.Idle .batching := by
  have turn := batchingTurn_goes c e
  generalize e.branch? = branch at turn
  generalize e.batchingTurn c = result at turn waits ⊢
  cases turn with
  | stopped stopped => exact fun running => absurd running stopped
  | leaves _ _ _ _ => exact fun running => absurd running (endBatching_stops c e)
  | flushes _ _ _ _ => cases waits
  | takes x rest _ _ _ => exact fun running => absurd running (of_decide_eq_false waits)
  | waits _ opened empty held early => exact fun _ => ⟨opened, held, empty, early⟩

end Engine
end TopicPublisher
