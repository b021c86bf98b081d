import TopicPublisher.Proofs.Engine.Moves.Steps
import Mathlib.Data.List.Pairwise

/-!
The order of messages between their admission and the service. Main statement: the messages that
were admitted are those of the dispatched batches, then those of the open batch, then those in
the queue, in just this order.
-/

namespace TopicPublisher
namespace Custody

/-- Entries stand in the order of their admission, in batches that are numbered in the order of
their dispatch. The batching task ends only when nothing is left, and is killed only by a
deadline that cannot be represented. -/
structure Ordered (c : Config) (k : Custody) : Prop where
  order : k.batching ≠ .killed →
    k.admitted = k.dispatches.flatMap (·.2.entries) ++ k.current ++ k.queue
  killed : k.batching = .killed →
    Clock.representable (Clock.instant k.now + c.thresholds.delay.nanos) = false
  ended : k.batching = .ended → k.current = [] ∧ k.queue = []
  numbers : k.dispatches.map Prod.fst = List.range k.dispatched
  sends : ∀ s ∈ k.sends, s ∈ k.dispatches
  calls : ∀ call ∈ k.calls, ∃ b, (call.1, b) ∈ k.dispatches ∧ call.2.2 = b.messages
  admitted : (k.admitted.map Entry.id).Nodup
  returned : ∀ x ∈ k.admitted, x.id ∈ k.returned

variable {c : Config} {mayCrash : Prop} {k l : Custody} {x : Entry}

theorem representable_mono {a b : Nat} (h : a ≤ b) (late : Clock.representable a = false) :
    Clock.representable b = false := by
  simp only [Clock.representable, decide_eq_false_iff_not, Nat.not_lt] at late ⊢
  exact Nat.le_trans late h

theorem Ordered.decided (h : k.Ordered c) (x : Entry) (d : Decision) (a : Admission) :
    (k.decided x d a).Ordered c := by
  cases d <;> exact { h with }

/-- Publish calls that return, and handles that get their outcomes, leave the order as it is. -/
theorem Ordered.handles (h : k.Ordered c) {returned released : List Nat}
    {resolved : List (Nat × Outcome)} (more : k.returned ⊆ returned) :
    Ordered c { k with returned := returned, released := released, resolved := resolved } :=
  { h with returned := fun x hx => more (h.returned x hx) }

theorem Ordered.enqueue (h : k.Ordered c) (running : k.batching = .running)
    (new : x.id ∉ k.returned) (rest : List Entry) :
    ({ k with granted := rest, queue := k.queue ++ [x] }.note
      [.admitted x, .returned x.id]).Ordered c := by
  rw [note_enqueued]
  have fresh : x.id ∉ k.admitted.map Entry.id := by
    intro hm
    obtain ⟨y, hy, hid⟩ := List.mem_map.mp hm
    exact new (hid ▸ h.returned y hy)
  refine { h with order := ?_, ended := ?_, admitted := ?_, returned := ?_ }
  · intro alive
    rw [h.order alive]
    simp only [List.append_assoc]
  · intro ended
    exact absurd (running.symm.trans ended) nofun
  · rw [List.map_append]
    exact (List.perm_append_singleton _ _).symm.nodup (List.nodup_cons.mpr ⟨fresh, h.admitted⟩)
  · intro y hy
    rcases List.mem_append.mp hy with hy | hy
    · exact List.mem_append_left _ (h.returned y hy)
    · exact List.mem_append_right _ (List.mem_singleton.mp hy ▸ List.mem_singleton_self _)

theorem Ordered.dispatch (h : k.Ordered c) (running : k.batching = .running) {b : Batch}
    {current : List Entry} (hc : k.current = b.entries ++ current) :
    ({ k with
      current := current
      sends := k.sends ++ [(k.dispatched, b)]
      dispatched := k.dispatched + 1 }.note [.dispatched k.dispatched b]).Ordered c := by
  rw [note_dispatched]
  refine { h with order := ?_, ended := ?_, numbers := ?_, sends := ?_, calls := ?_ }
  · intro alive
    rw [h.order alive, hc]
    simp
  · intro ended
    exact absurd (running.symm.trans ended) nofun
  · rw [List.map_append, h.numbers, List.range_succ]
    rfl
  · intro s hs
    rcases List.mem_append.mp hs with hs | hs
    · exact List.mem_append_left _ (h.sends s hs)
    · exact List.mem_append_right _ hs
  · intro call hc
    obtain ⟨b, hb, same⟩ := h.calls call hc
    exact ⟨b, List.mem_append_left _ hb, same⟩

/-- No move loses, doubles or reorders entries. -/
theorem Ordered.move (sound : k.Sound c) (h : k.Ordered c) (move : k.Move c mayCrash l) :
    l.Ordered c := by
  cases move with
  | wait now later =>
    -- A deadline that could not be represented cannot be later on either.
    refine { h with killed := fun dead => representable_mono ?_ (h.killed dead) }
    exact Nat.add_le_add_right (Nat.mul_le_mul_right _ later) _
  | arrive x _ _ => exact { h with }
  | reserve x rest _ _ => exact Ordered.decided (k := { k with asking := rest }) { h with } x _ _
  | resume x _ =>
    exact Ordered.decided (k := { k with blocked := k.blocked.filter (·.id != x.id) }) { h with } x
      _ _
  | refuse x rest error _ =>
    rw [note_refused]
    exact Ordered.handles (k := { k with asking := rest }) { h with }
      (List.subset_append_left _ _)
  | enqueue x rest hx running =>
    exact h.enqueue running (sound.kept.leaveGranted hx).1 rest
  | turnAway x rest error _ =>
    rw [note_turnedAway]
    exact Ordered.handles (k := { k with granted := rest }.relinquish x) { h with }
      (List.subset_append_left _ _)
  | cancel call => exact { h with }
  | close => exact { h with }
  | take x rest running hq =>
    refine { h with order := ?_, ended := ?_ }
    · intro alive
      rw [h.order alive, hq]
      simp
    · intro ended
      exact absurd (running.symm.trans ended) nofun
  | dispatch b current running hc => exact h.dispatch running hc
  | finish n b result _ _ _ _ =>
    have left : ∀ s ∈ k.sends.filter (·.1 != n), s ∈ k.dispatches :=
      fun s hs => h.sends s (List.mem_filter.mp hs).1
    cases result <;> exact { h with sends := left }
  | kill running _ doomed =>
    exact { h with
      order := fun alive => absurd rfl alive
      killed := fun _ => doomed
      ended := nofun }
  | resolve x outcome rest _ =>
    rw [note_ended]
    exact Ordered.handles (k := { k with ending := rest }.relinquish x) { h with }
      (List.Subset.refl _)
  | retire running hc hq =>
    exact { h with
      order := fun _ => h.order (by rw [running]; nofun)
      killed := nofun
      ended := fun _ => ⟨hc, hq⟩ }
  | call n attempt b hb =>
    rw [note_called]
    refine { h with calls := fun call hc => ?_ }
    rcases List.mem_append.mp hc with hc | hc
    · exact h.calls call hc
    · rw [List.mem_singleton.mp hc]
      exact ⟨b, h.sends _ hb, rfl⟩

end Custody

namespace Engine

variable {σ τ : Type} {v : Service σ τ} {c : Config} {e : Engine σ τ}

theorem start_ordered (c : Config) (service : σ) :
    (start c service : Engine σ τ).custody.Ordered c := by
  constructor <;> simp [custody, start, admitted, dispatches, calls, events, List.filterMap_cons]

theorem Reachable.ordered (h : Reachable v c e) : e.custody.Ordered c :=
  h.keeps (start_ordered c) fun sound ordered move => ordered.move sound move

/-- Batches are numbered in the order in which they are dispatched. -/
theorem Reachable.numbered (h : Reachable v c e) :
    e.dispatches.map Prod.fst = List.range e.dispatched :=
  h.ordered.numbers

theorem Reachable.length_dispatches (h : Reachable v c e) : e.dispatches.length = e.dispatched := by
  have numbers := congrArg List.length h.numbered
  rwa [List.length_map, List.length_range] at numbers

theorem existsUnique_batch {ds : List (Nat × Batch)}
    (nodup : ((ds.flatMap (·.2.entries)).map Entry.id).Nodup) {x : Entry}
    (hx : x ∈ ds.flatMap (·.2.entries)) : ∃! d, d ∈ ds ∧ x ∈ d.2.entries := by
  obtain ⟨d, hd, hxd⟩ := List.mem_flatMap.mp hx
  refine ⟨d, ⟨hd, hxd⟩, ?_⟩
  rintro d' ⟨hd', hxd'⟩
  by_contra hne
  have apart := (List.nodup_flatMap.mp (List.Nodup.of_map _ nodup)).2
  have symm : Std.Symm (Function.onFun List.Disjoint fun d : Nat × Batch => d.2.entries) :=
    ⟨fun _ _ disjoint _ hx hy => disjoint hy hx⟩
  exact apart.forall hd' hd hne hxd' hxd

/-- At every moment of every run in which no deadline falls outside of the clock, the admitted
messages, in the order of their admission, are those of the dispatched batches in the order of
their dispatch, then those of the open batch, then those in the queue. Once the batching task has
ended the latter two are empty, and each admitted message is in exactly one dispatched batch.
Every call of the service, be it the first for its batch or a later one, brings just the messages
of that batch in their order. -/
theorem admitted_in_order (h : Reachable v c e)
    (representable :
      Clock.representable (Clock.instant e.now + c.thresholds.delay.nanos) = true) :
    e.admitted =
        e.dispatches.flatMap (·.2.entries) ++ e.batcher.current.entries ++ e.queue.toList ∧
      e.dispatches.map Prod.fst = List.range e.dispatched ∧
      (e.admitted.map Entry.id).Nodup ∧
      e.batching ≠ .killed ∧
      (e.batching = .ended →
        e.batcher.current.entries = [] ∧ e.queue.toList = [] ∧
          ∀ x ∈ e.admitted, ∃! d, d ∈ e.dispatches ∧ x ∈ d.2.entries) ∧
      ∀ n attempt messages, (n, attempt, messages) ∈ e.calls →
        ∃! b, (n, b) ∈ e.dispatches ∧ messages = b.messages := by
  have ordered := h.ordered
  have alive : e.batching ≠ .killed := by
    intro dead
    exact absurd (representable.symm.trans (ordered.killed dead)) nofun
  have order : e.admitted =
      e.dispatches.flatMap (·.2.entries) ++ e.batcher.current.entries ++ e.queue.toList :=
    ordered.order alive
  have numbers : (e.dispatches.map Prod.fst).Nodup := by
    rw [show e.dispatches.map Prod.fst = _ from ordered.numbers]
    exact List.nodup_range
  refine ⟨order, ordered.numbers, ordered.admitted, alive, fun ended => ?_, ?_⟩
  · obtain ⟨current, queue⟩ := ordered.ended ended
    have all : e.admitted = e.dispatches.flatMap (·.2.entries) := by
      rw [order, show e.batcher.current.entries = [] from current,
        show e.queue.toList = [] from queue, List.append_nil, List.append_nil]
    refine ⟨current, queue, fun x hx => existsUnique_batch ?_ (all ▸ hx)⟩
    exact all ▸ ordered.admitted
  · intro n attempt messages hc
    obtain ⟨b, hb, same⟩ := ordered.calls _ hc
    refine ⟨b, ⟨hb, same⟩, ?_⟩
    rintro b' ⟨hb', -⟩
    exact (Prod.mk.inj (List.inj_on_of_nodup_map numbers hb' hb rfl)).2

/-- Two messages and batches of one: the first batch is dispatched when it is full, the last clone
is dropped, and the batching task dispatches the other one and ends. -/
theorem admitted_in_order_after_drop :
    ∃ (v : Service Unit Unit) (c : Config) (e : Engine Unit Unit), Reachable v c e ∧
      e.batching = .ended ∧ e.admitted.map Entry.id = [0, 1] ∧
      e.dispatches.map (fun d => (d.1, d.2.ids)) = [(0, [0]), (1, [1])] ∧
      e.admitted = e.dispatches.flatMap (·.2.entries) ++ e.batcher.current.entries ++
        e.queue.toList ∧
      ∀ x ∈ e.admitted, ∃! d, d ∈ e.dispatches ∧ x ∈ d.2.entries := by
  have started : Reachable
      (⟨fun _ _ => (none, (), ()), fun _ _ => (.ids [], ())⟩ : Service Unit Unit)
      { topic := ⟨"project", "topic"⟩, thresholds := ⟨1, 10, ⟨1⟩⟩ } _ := .init ()
  have first := started.step (.publish ⟨0, ⟨⟨#[1, 2]⟩, []⟩⟩ (by decide) (by decide) (by decide))
  have second := first.step (.publish ⟨1, ⟨⟨#[3]⟩, []⟩⟩ (by decide) (by decide) (by decide))
  have full := second.step (.run .batching (by decide))
  have dropped := full.step (.dropClone (by decide) (by decide))
  have last := dropped.step (.run .batching (by decide))
  have ended := last.step (.run .batching (by decide))
  obtain ⟨order, -, -, -, empty, -⟩ := admitted_in_order ended (by decide)
  exact ⟨_, _, _, ended, by decide, by decide, by decide, order, (empty (by decide)).2.2⟩

end Engine
end TopicPublisher
