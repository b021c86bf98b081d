import TopicPublisher.Proofs.Engine.Attention.Steps

/-!
The runs of an engine on a virtual clock. Running takes no time: the clock moves only while no
task can go on, and it stops at every reading for which a task waits.
-/

namespace TopicPublisher
namespace Engine

variable {σ τ : Type} {v : Service σ τ} {c : Config} {e f : Engine σ τ}

/-- A step of an engine on a virtual clock. -/
structure PromptStep (v : Service σ τ) (c : Config) (e f : Engine σ τ) : Prop where
  step : Step v c e f
  settled : e.now < f.now → e.isSettled = true
  awaited : e.now < f.now → ∀ wake ∈ e.nextWake?, f.now ≤ wake

abbrev PromptRun (v : Service σ τ) (c : Config) : Engine σ τ → Engine σ τ → Prop :=
  Relation.ReflTransGen (PromptStep v c)

/-- The engines that a new publisher can come to on a virtual clock. -/
def PromptlyReachable (v : Service σ τ) (c : Config) (e : Engine σ τ) : Prop :=
  ∃ service : σ, PromptRun v c (start c service) e

theorem PromptlyReachable.init (service : σ) : PromptlyReachable v c (start c service) :=
  ⟨service, .refl⟩

theorem PromptlyReachable.step (h : PromptlyReachable v c e) (step : PromptStep v c e f) :
    PromptlyReachable v c f := by
  obtain ⟨service, run⟩ := h
  exact ⟨service, run.tail step⟩

theorem PromptlyReachable.reachable (h : PromptlyReachable v c e) : Reachable v c e := by
  obtain ⟨service, run⟩ := h
  exact ⟨service, Relation.ReflTransGen.mono (fun _ _ => PromptStep.step) _ _ run⟩

/-- A step that takes no time. -/
theorem PromptStep.still (step : Step v c e f) (same : f.now = e.now) : PromptStep v c e f :=
  ⟨step, fun later => absurd later (same ▸ Nat.lt_irrefl _),
    fun later => absurd later (same ▸ Nat.lt_irrefl _)⟩

theorem PromptStep.publish (x : Entry) (clones : 0 < e.clones) (unused : x.id ∉ e.returned)
    (apart : x.id ∉ e.blocked.map Entry.id) : PromptStep v c e (e.publish x) :=
  .still (.publish x clones unused apart) (publish_now e x)

theorem PromptStep.turn (t : Task) (ready : t ∈ e.ready) : PromptStep v c e (e.run v c t) :=
  .still (.run t ready) (run_now e t)

theorem now_moveTo (e : Engine σ τ) (now : Nat) : (e.moveTo now).now = now := by
  rw [moveTo, wakeAll_eq]

/-- Time may pass in a settled engine until the first reading for which a task waits. -/
theorem PromptStep.pass {now : Nat} (settled : e.isSettled = true) (later : e.now ≤ now)
    (awaited : ∀ wake ∈ e.nextWake?, now ≤ wake) : PromptStep v c e (e.moveTo now) :=
  ⟨.pass now later, fun _ => settled, fun _ => (now_moveTo e now).symm ▸ awaited⟩

/-- No task is passed over that waits for a time. -/
theorem PromptStep.le_pending (step : PromptStep v c e f) (later : e.now < f.now)
    {p : Nat × Nat × Task} (hp : p ∈ e.pending) : f.now ≤ p.1 := by
  have waits : p.1 ∈ e.pending.map (·.1) := List.mem_map_of_mem hp
  cases first : (e.pending.map (·.1)).min? with
  | none => exact absurd (List.min?_eq_none_iff.mp first) (List.ne_nil_of_mem waits)
  | some wake =>
    have least : wake ≤ p.1 := (List.min?_eq_some_iff.mp first).2 _ waits
    exact Nat.le_trans (step.awaited later wake first) least

end Engine
end TopicPublisher
