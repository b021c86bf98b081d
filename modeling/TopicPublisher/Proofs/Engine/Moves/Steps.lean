import TopicPublisher.Proofs.Engine.Moves.Sending

/-!
Every step of an engine is a few moves of entries, so what is true of every move is true of every
reachable engine.
-/

namespace TopicPublisher
namespace Engine

open Custody (Move Moves)

variable {σ τ : Type} {v : Service σ τ} {c : Config} {e : Engine σ τ}

theorem turn_moves (h : e.custody.Sound c) (t : Task) :
    Moves c v.MayCrash e.custody (e.turn v c t).2.custody := by
  have turn := turn_goes v c e t
  generalize e.turn v c t = result at turn ⊢
  cases turn with
  | batching => exact batchingTurn_moves h
  | ended _ _ => exact .refl
  | sending s here turn =>
    have mem : s ∈ e.sends := List.mem_of_find?_eq_some here
    exact turn.moves h (List.mem_map_of_mem mem)
  | publishing call => exact publishingTurn_moves c _ e call
  | shutdown call => exact shutdownTurn_moves c _ e call

theorem custody_run (e : Engine σ τ) (v : Service σ τ) (c : Config) (t : Task) :
    (e.run v c t).custody = ({ e with ready := e.ready.erase t }.turn v c t).2.custody := by
  obtain ⟨ready, same⟩ := run_eq (v := v) (c := c) e t
  rw [same]
  rfl

/-- Every step of an engine is a few moves. -/
theorem Step.moves {f : Engine σ τ} (h : e.custody.Sound c) (step : Step v c e f) :
    Moves c v.MayCrash e.custody f.custody := by
  cases step with
  | publish x _ new unused => exact publish_moves c _ new unused
  | cancel call _ => exact cancel_moves c _ e call
  | clone _ => exact .refl
  | dropClone _ _ => exact dropClone_moves c _ e
  | shutdown call _ _ _ => exact shutdown_moves c _ e call
  | run t _ =>
    rw [custody_run]
    exact turn_moves (e := { e with ready := e.ready.erase t }) h t
  | pass now later =>
    unfold moveTo
    rw [custody_wakeAll]
    exact .single (.wait now later)

theorem start_sound (c : Config) (service : σ) :
    (start c service : Engine σ τ).custody.Sound c where
  kept := by
    constructor <;> simp [custody, start, Custody.unreturned, Custody.underway,
      Custody.outstanding, Admission.ofCeilings, Admission.asked, returned, released, resolved,
      events, List.filterMap_cons]
  balanced := Admission.ofCeilings_balanced c.ceilings

theorem Run.sound {f : Engine σ τ} (h : e.custody.Sound c) (run : Run v c e f) :
    f.custody.Sound c := by
  induction run with
  | refl => exact h
  | tail _ step ih => exact ih.moves (step.moves ih)

theorem Run.keeps {motive : Custody → Prop}
    (keeps : ∀ {k l : Custody}, k.Sound c → motive k → k.Move c v.MayCrash l → motive l)
    {f : Engine σ τ} (h : e.custody.Sound c) (init : motive e.custody) (run : Run v c e f) :
    motive f.custody := by
  induction run with
  | refl => exact init
  | tail run step ih =>
    have sound := Run.sound h run
    exact Moves.keeps keeps sound ih (step.moves sound)

/-- The custody of every reachable engine is sound. -/
theorem Reachable.sound (h : Reachable v c e) : e.custody.Sound c := by
  obtain ⟨service, run⟩ := h
  exact Run.sound (start_sound c service) run

/-- What is true at the start and kept by every move is true of every reachable engine. -/
theorem Reachable.keeps {motive : Custody → Prop}
    (init : ∀ service : σ, motive (start c service : Engine σ τ).custody)
    (keeps : ∀ {k l : Custody}, k.Sound c → motive k → k.Move c v.MayCrash l → motive l)
    (h : Reachable v c e) : motive e.custody := by
  obtain ⟨service, run⟩ := h
  exact Run.keeps keeps (start_sound c service) (init service) run

end Engine
end TopicPublisher
