import TopicPublisher.Proofs.Engine.Delivery
import TopicPublisher.Proofs.Engine.Handles
import TopicPublisher.Proofs.Engine.Survival

/-!
Identifiers on their way to the handles. Whatever a step does, the outcomes that it gives are those
of one batch whose sending ends, or errors. So the handles are given all identifiers of the batches
that are published, each to one handle, in the order in which these batches are answered.
-/

namespace TopicPublisher

def SendResult.identifiers : SendResult → List MessageId
  | .published ids => ids
  | .failed _ | .crashed => []

theorem SendResult.outcomes_identifiers (result : SendResult) (messages : Nat) :
    (result.outcomes messages).filterMap Except.toOption = result.identifiers := by
  cases result with
  | published ids =>
    rw [outcomes, List.filterMap_map]
    exact List.filterMap_some
  | failed error | crashed =>
    refine List.filterMap_eq_nil_iff.mpr fun outcome there => ?_
    rw [List.eq_of_mem_replicate there]
    rfl

namespace Transit

variable {σ τ : Type} {c : Config} {k l : Transit σ τ}

theorem results_dispatchAll (bs : List Batch) (k : Transit σ τ) :
    (k.dispatchAll bs).results = k.results := by
  refine dispatchAll_carries (motive := fun m => m.results = k.results) ?_ rfl bs
  intro m b same
  exact ((results_note _ _).trans (List.append_nil _)).trans same

/-- No sending ends while entries are gathered. -/
theorem Gather.results (gather : Gather c k l) : l.results = k.results := by
  cases gather with
  | enqueue x _ => exact (results_note _ _).trans (List.append_nil _)
  | add x rest closed batcher _ _ _ =>
    exact results_dispatchAll closed { k with queue := rest, batcher := batcher }
  | close _ _ => exact results_dispatchAll [k.batcher.current] { k with batcher := {} }
  | retire _ _ _ | kill _ _ => rfl

theorem Gathers.results (gathers : Gathers c k l) : l.results = k.results := by
  induction gathers with
  | refl => rfl
  | tail _ step ih => exact step.results.trans ih

end Transit

namespace Engine

variable {σ τ : Type} {v : Service σ τ} {c : Config} {e f g : Engine σ τ} {x : Entry}
  {s : Sending τ} {n : Nat} {b : Batch} {result : SendResult}

/-! Errors -/

/-- No handle is given an identifier. -/
def Fails (e f : Engine σ τ) : Prop :=
  ∃ outcomes, f.resolved = e.resolved ++ outcomes ∧ ∀ o ∈ outcomes, o.2.isOk = false

theorem Fails.of_same (same : f.resolved = e.resolved) : e.Fails f :=
  ⟨[], same.trans (List.append_nil _).symm, nofun⟩

theorem Drops.fails (drops : e.Drops f) : e.Fails f := by
  obtain ⟨lost, given, errors, -⟩ := drops
  exact ⟨lost, given, errors⟩

theorem Handled.fails (handled : e.Handled x f) : e.Fails f := by
  cases handled with
  | admitted _ _ _ same | waiting _ _ same => exact .of_same same
  | refused error _ _ given => exact ⟨_, given, List.forall_mem_singleton.mpr rfl⟩

/-! What a step gives -/

/-- What a step adds to the outcomes and to the results: at most errors, or the outcomes of one
batch whose sending ends. -/
inductive Yields (e f : Engine σ τ) : Prop where
  | fails : f.results = e.results → e.Fails f → Yields e f
  | ends (s : Sending τ) (result : SendResult) : s ∈ e.sends →
      (result.outcomes s.batch.size).length = s.batch.size →
      f.results = e.results ++ [(s.id, result)] →
      f.resolved = e.resolved ++ s.batch.ids.zip (result.outcomes s.batch.size) → Yields e f

theorem Yields.of_same (results : f.results = e.results) (resolved : f.resolved = e.resolved) :
    e.Yields f :=
  .fails results (.of_same resolved)

/-- A turn of the task with some number, if there is such a task. -/
theorem run_sending_yields (e : Engine σ τ) (n : Nat) : e.Yields (e.run v c (.sending n)) := by
  rcases run_sending v c e n with ⟨ready, same, -⟩ | ⟨s, again, f, ready, same, here, -, turn⟩
  · exact .of_same (same ▸ rfl) (same ▸ rfl)
  · have hs : s ∈ e.sends := List.mem_of_find?_eq_some here
    rw [same]
    rcases turn.gives with ⟨results, resolved⟩ | ⟨result, parallel, -, results, resolved⟩
    · exact .of_same results resolved
    · exact .ends s result hs parallel results resolved

theorem Step.yields (h : Reachable v c e) (step : Step v c e f) : e.Yields f := by
  -- Every step but a turn of a task that sends leaves the results as they were.
  have results : f.results = e.results ∨ ∃ n, f = e.run v c (.sending n) := by
    cases step.transits h.sound with
    | gather gathers =>
      left
      rw [← transit_results, ← transit_results]
      exact gathers.results
    | forward s _ turned _ => exact .inr ⟨s.id, turned⟩
    | pass now _ moved =>
      left
      rw [moved, moveTo, wakeAll_eq]
      rfl
  rcases results with results | ⟨n, rfl⟩
  · cases h.visit step with
    | inner which _ =>
      rcases which with rfl | ⟨n, rfl⟩ | same
      · obtain ⟨ready, same⟩ := run_eq (v := v) (c := c) e .batching
        refine .fails results ?_
        rw [same]
        exact (batchingTurn_drops (e := { e with ready := e.ready.erase .batching }) h.sound).fails
      · exact run_sending_yields e n
      · exact .of_same results same
    | arrive x _ _ handled => exact .fails results handled.fails
    | resume x _ handled => exact .fails results handled.fails
    | cancel _ _ same | clones _ _ _ _ same | shutdown _ _ _ _ same | finish _ _ _ _ same =>
      exact .of_same results same
  · exact run_sending_yields e n

/-! Runs -/

/-- The identifiers that handles were given, each with its publish call. -/
def identified (e : Engine σ τ) : List (Nat × MessageId) :=
  e.resolved.filterMap fun o => o.2.toOption.map (o.1, ·)

/-- The identifiers of the batches that were published. -/
def issued (e : Engine σ τ) : List MessageId := e.results.flatMap fun r => r.2.identifiers

theorem mem_identified {call : Nat} {id : MessageId} :
    (call, id) ∈ e.identified ↔ (call, .ok id) ∈ e.resolved := by
  rw [identified, List.mem_filterMap]
  constructor
  · rintro ⟨⟨called, outcome⟩, there, same⟩
    cases outcome with
    | error _ => cases same
    | ok _ =>
      cases same
      exact there
  · exact fun there => ⟨_, there, rfl⟩

theorem map_snd_identified (e : Engine σ τ) :
    e.identified.map Prod.snd = e.resolved.filterMap fun o => o.2.toOption := by
  rw [identified, List.map_filterMap]
  refine List.filterMap_congr fun o _ => ?_
  rw [Option.map_map]
  exact Option.map_id'

theorem Yields.issued (h : e.Yields f) (same : e.identified.map Prod.snd = e.issued) :
    f.identified.map Prod.snd = f.issued := by
  rw [map_snd_identified] at same ⊢
  cases h with
  | fails results fails =>
    obtain ⟨outcomes, given, errors⟩ := fails
    have none : outcomes.filterMap (fun o => o.2.toOption) = [] := by
      refine List.filterMap_eq_nil_iff.mpr fun o ho => ?_
      have error := errors o ho
      cases failed : o.2 with
      | error _ => rfl
      | ok _ =>
        rw [failed] at error
        cases error
    rw [given, List.filterMap_append, none, List.append_nil, same, Engine.issued, Engine.issued,
      results]
  | ends s result _ parallel results given =>
    have given' : (s.batch.ids.zip (result.outcomes s.batch.size)).filterMap
        (fun o => o.2.toOption) = result.identifiers := by
      have length : s.batch.ids.length = s.batch.size := List.length_map _
      have outcomes : (s.batch.ids.zip (result.outcomes s.batch.size)).map Prod.snd =
          result.outcomes s.batch.size :=
        List.map_snd_zip (Nat.le_of_eq (parallel.trans length.symm))
      rw [← result.outcomes_identifiers s.batch.size]
      conv_rhs => rw [← outcomes, List.filterMap_map]
      rfl
    rw [given, List.filterMap_append, given', same, Engine.issued, Engine.issued, results,
      List.flatMap_append, List.flatMap_singleton]

/-- The handles are given the identifiers of the batches that are published, in the order in which
these are answered. -/
theorem Reachable.identified_eq (h : Reachable v c e) :
    e.identified.map Prod.snd = e.issued := by
  obtain ⟨service, run⟩ := h
  induction run with
  | refl => rfl
  | tail before step ih => exact (Step.yields ⟨service, before⟩ step).issued ih

/-- A batch whose sending has ended has an outcome for each message. -/
theorem Reachable.parallel (h : Reachable v c e) (dispatched : (n, b) ∈ e.dispatches)
    (ended : (n, result) ∈ e.results) : (result.outcomes b.size).length = b.size := by
  obtain ⟨service, run⟩ := h
  induction run generalizing n b with
  | refl => cases ended
  | @tail e f before step ih =>
    have reached : Reachable v c e := ⟨service, before⟩
    have later := reached.step step
    -- Numbers are not used again, so an earlier batch of this number is the same one.
    have earlier {b' : Batch} (there : (n, b') ∈ e.dispatches) : b = b' := by
      obtain ⟨t, entered⟩ := mem_dispatches.mp there
      exact later.dispatched_once dispatched (mem_dispatches.mpr ⟨t, step.keeps entered⟩)
    have old (known : (n, result) ∈ e.results) :
        (result.outcomes b.size).length = b.size := by
      obtain ⟨t, entered⟩ := mem_results.mp known
      obtain ⟨b', there⟩ := reached.dispatched_ended entered
      obtain rfl := earlier there
      exact ih there known
    cases step.yields reached with
    | fails results _ => exact old (results ▸ ended)
    | ends s r hs parallel results _ =>
      rw [results] at ended
      rcases List.mem_append.mp ended with known | new
      · exact old known
      · obtain ⟨rfl, rfl⟩ := Prod.mk.inj (List.mem_singleton.mp new)
        obtain rfl := earlier (reached.sending_dispatched hs)
        exact parallel

/-- When the sending of a batch has ended, each of its handles has the outcome that this end means
for it. -/
theorem Reachable.outcomes_of_ended (h : Reachable v c e) (dispatched : (n, b) ∈ e.dispatches)
    (ended : (n, result) ∈ e.results) :
    b.ids.map e.outcomeOf = (result.outcomes b.size).map some := by
  obtain ⟨t, entered⟩ := mem_results.mp ended
  have length : b.ids.length = b.size := List.length_map _
  refine map_eq_map_of_zip (length.trans (h.parallel dispatched ended).symm) fun o ho => ?_
  have given := h.delivered dispatched entered o ho
  exact outcomeOf_eq_some h.sound.kept
    ((mem_picked_events fun _ _ => Happening.resolved?_eq_some).mpr ⟨t, given⟩)

/-- Only admitted messages have identifiers, each at most one. -/
theorem Reachable.length_identified (h : Reachable v c e) :
    (e.identified.map Prod.fst).Nodup ∧ e.identified.length ≤ e.admitted.length := by
  have handles : e.identified.map Prod.fst =
      (e.resolved.filter (·.2.isOk)).map Prod.fst := by
    rw [identified, List.map_filterMap, ← List.filterMap_eq_map, List.filterMap_filter]
    refine List.filterMap_congr fun o _ => ?_
    cases o.2 <;> rfl
  refine ⟨?_, ?_⟩
  · rw [handles]
    exact h.sound.kept.resolvedOnce.sublist (List.filter_sublist.map _)
  · have length : (e.identified.map Prod.fst).length = e.identified.length := List.length_map _
    rw [← length, handles, List.length_map, ← List.countP_eq_length_filter,
      h.countP_resolved h.earned]
    exact List.countP_le_length

end Engine
end TopicPublisher
