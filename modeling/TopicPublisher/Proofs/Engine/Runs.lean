import TopicPublisher.Engine.Step
import TopicPublisher.Proofs.Engine.History
import Mathlib.Logic.Relation

/-!
The runs of an engine. Users may call at any moment, every task that is ready may be the next to
take a turn, and time may pass at any moment, so the steps of different tasks come in every
order.
-/

namespace TopicPublisher
namespace Engine

variable {σ τ : Type}

/-- The steps of an engine. Publish calls and shutdown calls are numbered, and only a user who
holds a clone can make one; the last clone is not dropped while a call still uses it. -/
inductive Step (v : Service σ τ) (c : Config) (e : Engine σ τ) : Engine σ τ → Prop where
  | publish (x : Entry) : 0 < e.clones → x.id ∉ e.returned → x.id ∉ e.blocked.map Entry.id →
      Step v c e (e.publish x)
  | cancel (call : Nat) : call ∈ e.blocked.map Entry.id → Step v c e (e.cancel call)
  | clone : 0 < e.clones → Step v c e e.clone
  | dropClone : 0 < e.clones → (e.clones = 1 → e.blocked = [] ∧ e.shutdowns = []) →
      Step v c e e.dropClone
  | shutdown (call : Nat) : 0 < e.clones → call ∉ e.shutdowns.map Prod.fst →
      .shutdownReturned call ∉ e.events → Step v c e (e.shutdown c call)
  | run (t : Task) : t ∈ e.ready → Step v c e (e.run v c t)
  | pass (now : Nat) : e.now ≤ now → Step v c e (e.moveTo now)

abbrev Run (v : Service σ τ) (c : Config) : Engine σ τ → Engine σ τ → Prop :=
  Relation.ReflTransGen (Step v c)

/-- The engines that a new publisher can come to. -/
def Reachable (v : Service σ τ) (c : Config) (e : Engine σ τ) : Prop :=
  ∃ service : σ, Run v c (start c service) e

theorem Reachable.init {v : Service σ τ} {c : Config} (service : σ) :
    Reachable v c (start c service) :=
  ⟨service, .refl⟩

theorem Reachable.step {v : Service σ τ} {c : Config} {e f : Engine σ τ} (h : Reachable v c e)
    (step : Step v c e f) : Reachable v c f := by
  obtain ⟨service, run⟩ := h
  exact ⟨service, run.tail step⟩

theorem Reachable.run {v : Service σ τ} {c : Config} {e f : Engine σ τ} (h : Reachable v c e)
    (more : Run v c e f) : Reachable v c f := by
  obtain ⟨service, run⟩ := h
  exact ⟨service, run.trans more⟩

end Engine
end TopicPublisher
