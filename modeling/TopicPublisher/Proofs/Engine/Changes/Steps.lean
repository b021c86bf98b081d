import TopicPublisher.Proofs.Engine.Changes.Sending
import TopicPublisher.Proofs.Engine.Runs

/-!
What a step changes. A step is a call of a user or a turn of one, a turn of the batching task, a
turn of the task that sends one batch, or time that passes, and each of these leaves the state that
the others work with as it is. The history only grows, and what a step adds to it has the reading
that the clock shows before the step.
-/

namespace TopicPublisher
namespace Engine

variable {σ τ : Type} {v : Service σ τ} {c : Config} {e f : Engine σ τ}

/-- How a turn of a task goes; `true` asks for another turn. -/
inductive Turn (v : Service σ τ) (c : Config) (e : Engine σ τ) :
    Task → Bool × Engine σ τ → Prop where
  | batching : Turn v c e .batching (e.batchingTurn c)
  | ended (n : Nat) : e.sending? n = none → Turn v c e (.sending n) (false, e)
  | sending (s : Sending τ) {again : Bool} {f : Engine σ τ} : e.sending? s.id = some s →
      SendingTurn v c e s (again, f) → Turn v c e (.sending s.id) (again, f)
  | publishing (call : Nat) : Turn v c e (.publishing call) (false, e.publishingTurn call)
  | shutdown (call : Nat) : Turn v c e (.shutdown call) (false, e.shutdownTurn c call)

theorem turn_goes (v : Service σ τ) (c : Config) (e : Engine σ τ) (t : Task) :
    Turn v c e t (e.turn v c t) := by
  cases t with
  | batching => exact .batching
  | publishing call => exact .publishing call
  | shutdown call => exact .shutdown call
  | sending n =>
    unfold turn
    dsimp only
    split
    · next none => exact .ended n none
    · next s here =>
      obtain rfl : s.id = n := by simpa using List.find?_some here
      exact .sending s here (sendingTurn_goes v c e s)

theorem run_eq (e : Engine σ τ) (t : Task) :
    ∃ ready, e.run v c t =
      { ({ e with ready := e.ready.erase t }.turn v c t).2 with ready := ready } := by
  unfold run
  dsimp only
  split
  · exact ⟨_, rfl⟩
  · exact ⟨_, rfl⟩

theorem run_publishing (e : Engine σ τ) (call : Nat) :
    e.run v c (.publishing call) =
      { e with ready := e.ready.erase (.publishing call) }.publishingTurn call :=
  rfl

theorem run_shutdown (e : Engine σ τ) (call : Nat) :
    e.run v c (.shutdown call) =
      { e with ready := e.ready.erase (.shutdown call) }.shutdownTurn c call :=
  rfl

/-- A turn of the task that sends the batch with some number, if there is such a task. -/
theorem run_sending (v : Service σ τ) (c : Config) (e : Engine σ τ) (n : Nat) :
    (∃ ready, e.run v c (.sending n) = { e with ready := ready } ∧ e.sending? n = none) ∨
      ∃ (s : Sending τ) (again : Bool) (f : Engine σ τ) (ready : List Task),
        e.run v c (.sending n) = { f with ready := ready } ∧ e.sending? n = some s ∧ s.id = n ∧
          SendingTurn v c { e with ready := e.ready.erase (.sending n) } s (again, f) := by
  obtain ⟨ready, same⟩ := run_eq (v := v) (c := c) e (.sending n)
  have turn := turn_goes v c { e with ready := e.ready.erase (.sending n) } (.sending n)
  rw [same]
  generalize Engine.turn _ v c (.sending n) = result at turn ⊢
  cases turn with
  | ended _ none => exact .inl ⟨ready, rfl, none⟩
  | sending s here turn => exact .inr ⟨s, _, _, ready, rfl, here, rfl, turn⟩

theorem run_byBatching (e : Engine σ τ) : ByBatching e (e.run v c .batching) := by
  obtain ⟨ready, same⟩ := run_eq (v := v) (c := c) e .batching
  have turn := batchingTurn_byBatching c { e with ready := e.ready.erase .batching }
  rw [same]
  refine .trans ?_ (.trans turn ?_)
  · exact .of_same rfl rfl rfl rfl rfl rfl
  · exact .of_same rfl rfl rfl rfl rfl rfl

theorem run_bySending (e : Engine σ τ) (n : Nat) : BySending n e (e.run v c (.sending n)) := by
  rcases run_sending v c e n with ⟨ready, same, -⟩ | ⟨s, again, f, ready, same, -, rfl, turn⟩
  · rw [same]
    exact .of_same rfl rfl rfl rfl
  · rw [same]
    refine .trans ?_ (.trans turn.bySending ?_)
    · exact .of_same rfl rfl rfl rfl
    · exact .of_same rfl rfl rfl rfl

theorem run_byCall (e : Engine σ τ) {t : Task}
    (call : ∃ n, t = .publishing n ∨ t = .shutdown n) : ByCall e (e.run v c t) := by
  obtain ⟨n, rfl | rfl⟩ := call
  · refine .trans ?_ (publishingTurn_byCall _ n)
    exact .of_same rfl rfl rfl rfl
  · refine .trans ?_ (shutdownTurn_byCall _ c n)
    exact .of_same rfl rfl rfl rfl

/-! Time and history -/

theorem publish_now (e : Engine σ τ) (x : Entry) : (e.publish x).now = e.now :=
  congrArg Workbench.now (publish_byCall e x).bench

theorem run_now (e : Engine σ τ) (t : Task) : (e.run v c t).now = e.now := by
  cases t with
  | batching => exact (run_byBatching e).now
  | sending n => exact congrArg Workbench.now (run_bySending e n).bench
  | publishing call => exact congrArg Workbench.now (run_byCall e ⟨call, .inl rfl⟩).bench
  | shutdown call => exact congrArg Workbench.now (run_byCall e ⟨call, .inr rfl⟩).bench

/-- Whose step it is, with what it leaves as it is. -/
inductive Change (v : Service σ τ) (c : Config) (e f : Engine σ τ) : Prop where
  | call : ByCall e f → Change v c e f
  | batching : f = e.run v c .batching → ByBatching e f → Change v c e f
  | sending (n : Nat) : f = e.run v c (.sending n) → BySending n e f → Change v c e f
  | pass (now : Nat) : e.now ≤ now → f = e.moveTo now → Change v c e f

theorem Step.change (step : Step v c e f) : Change v c e f := by
  cases step with
  | publish x _ _ _ => exact .call (publish_byCall e x)
  | cancel call _ => exact .call (cancel_byCall e call)
  | clone _ => exact .call (.of_same rfl rfl rfl rfl)
  | dropClone _ _ => exact .call (dropClone_byCall e)
  | shutdown call _ _ _ => exact .call (shutdown_byCall e c call)
  | pass now later => exact .pass now later rfl
  | run t _ =>
    cases t with
    | batching => exact .batching rfl (run_byBatching e)
    | sending n => exact .sending n rfl (run_bySending e n)
    | publishing call => exact .call (run_byCall e ⟨call, .inl rfl⟩)
    | shutdown call => exact .call (run_byCall e ⟨call, .inr rfl⟩)

/-- What a step adds to the history has the reading from before the step. -/
theorem Step.history (step : Step v c e f) :
    ∃ hs : List Happening, f.history = (e.note hs).history := by
  cases step.change with
  | call change =>
    obtain ⟨hs, -, history⟩ := change.enters
    exact ⟨hs, history⟩
  | batching _ change =>
    obtain ⟨hs, -, history⟩ := change.enters
    exact ⟨hs, history⟩
  | sending _ _ change =>
    obtain ⟨hs, -, history⟩ := change.enters
    exact ⟨hs, history⟩
  | pass now _ passed =>
    rw [passed, moveTo, wakeAll_eq]
    exact ⟨[], rfl⟩

/-- No step takes anything out of the history. -/
theorem Step.keeps (step : Step v c e f) : e.history ⊆ f.history := by
  obtain ⟨hs, same⟩ := step.history
  rw [same]
  exact List.subset_append_right _ _

theorem Step.events_prefix (step : Step v c e f) : e.events <+: f.events := by
  obtain ⟨hs, same⟩ := step.history
  rw [events_congr same, events_note]
  exact List.prefix_append _ _

end Engine
end TopicPublisher
