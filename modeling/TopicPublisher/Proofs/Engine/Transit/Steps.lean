import TopicPublisher.Proofs.Engine.Prompt
import TopicPublisher.Proofs.Engine.Transit.Forwarding
import TopicPublisher.Proofs.Engine.Transit.Gathering

/-!
Every step of an engine gathers entries, forwards one batch, or lets time pass. So what is true of
the transit at the start and kept by these is true of every reachable engine.
-/

namespace TopicPublisher
namespace Engine

open Transit (Gather Gathers Forward)

variable {σ τ : Type} {v : Service σ τ} {c : Config} {e f : Engine σ τ}

/-- What a step of an engine does to the transit. -/
inductive Transits (v : Service σ τ) (c : Config) (e f : Engine σ τ) : Prop where
  | gather : Gathers c e.transit f.transit → Transits v c e f
  | forward (s : Sending τ) : e.sending? s.id = some s → f = e.run v c (.sending s.id) →
      Forward v c e.transit s f.transit → Transits v c e f
  | pass (now : Nat) : e.now ≤ now → f = e.moveTo now → Transits v c e f

theorem transit_run (e : Engine σ τ) (v : Service σ τ) (c : Config) (t : Task) :
    (e.run v c t).transit = ({ e with ready := e.ready.erase t }.turn v c t).2.transit := by
  obtain ⟨ready, same⟩ := run_eq (v := v) (c := c) e t
  rw [same]
  rfl

theorem run_transits (sound : e.custody.Sound c) (t : Task) : Transits v c e (e.run v c t) := by
  have turned := transit_run e v c t
  have turn := turn_goes v c { e with ready := e.ready.erase t } t
  generalize Engine.turn _ v c t = result at turn turned
  cases turn with
  | batching =>
    have gathers := batchingTurn_gathers (c := c)
      (e := { e with ready := e.ready.erase .batching }) sound
    exact .gather (turned ▸ gathers)
  | ended _ _ => exact .gather (turned ▸ .refl)
  | sending s here turn => exact .forward s here rfl (turned ▸ turn.forward)
  | publishing call =>
    have gathers := publishingTurn_gathers c
      { e with ready := e.ready.erase (.publishing call) } call
    exact .gather (turned ▸ gathers)
  | shutdown call =>
    have same := transit_shutdownTurn { e with ready := e.ready.erase (.shutdown call) } c call
    exact .gather ((turned.trans same).symm ▸ .refl)

theorem Step.transits (sound : e.custody.Sound c) (step : Step v c e f) : Transits v c e f := by
  cases step with
  | publish x _ _ _ => exact .gather (publish_gathers c e x)
  | cancel call _ => exact .gather ((transit_cancel e call).symm ▸ .refl)
  | clone _ => exact .gather .refl
  | dropClone _ _ => exact .gather (e.transit_dropClone.symm ▸ .refl)
  | shutdown call _ _ _ => exact .gather ((transit_shutdown e c call).symm ▸ .refl)
  | run t _ => exact run_transits sound t
  | pass now later => exact .pass now later rfl

/-! Induction -/

variable {motive : Transit σ τ → Prop}

theorem Gathers.carries (gather : ∀ {k l : Transit σ τ}, motive k → Gather c k l → motive l)
    {k l : Transit σ τ} (h : motive k) (gathers : Gathers c k l) : motive l := by
  induction gathers with
  | refl => exact h
  | tail _ step ih => exact gather ih step

/-- What is true of the transit at one start, and kept whether or not the clock is prompt, is true
along every run from there. -/
theorem Run.carries {service : σ} (init : motive (start c service : Engine σ τ).transit)
    (gather : ∀ {k l : Transit σ τ}, motive k → Gather c k l → motive l)
    (forward : ∀ {e : Engine σ τ} {s : Sending τ} {l : Transit σ τ}, Reachable v c e →
      motive e.transit → e.sending? s.id = some s → Forward v c e.transit s l → motive l)
    (pass : ∀ {k : Transit σ τ} {now : Nat}, motive k → motive { k with now := now })
    (run : Run v c (start c service) e) : motive e.transit := by
  induction run with
  | refl => exact init
  | tail before step ih =>
    have reached : Reachable v c _ := ⟨service, before⟩
    cases step.transits reached.sound with
    | gather gathers => exact Gathers.carries gather ih gathers
    | forward s here _ turn => exact forward reached ih here turn
    | pass now _ passed =>
      rw [passed, transit_moveTo]
      exact pass ih

/-- What is true of the transit at every start is true of every reachable engine. -/
theorem Reachable.carries
    (init : ∀ service : σ, motive (start c service : Engine σ τ).transit)
    (gather : ∀ {k l : Transit σ τ}, motive k → Gather c k l → motive l)
    (forward : ∀ {e : Engine σ τ} {s : Sending τ} {l : Transit σ τ}, Reachable v c e →
      motive e.transit → e.sending? s.id = some s → Forward v c e.transit s l → motive l)
    (pass : ∀ {k : Transit σ τ} {now : Nat}, motive k → motive { k with now := now })
    (h : Reachable v c e) : motive e.transit := by
  obtain ⟨service, run⟩ := h
  exact Run.carries (init service) gather forward pass run

/-- What is true of the transit at the start, and kept on a virtual clock, is true of every
engine that is promptly reachable. -/
theorem PromptlyReachable.carries
    (init : ∀ service : σ, motive (start c service : Engine σ τ).transit)
    (gather : ∀ {k l : Transit σ τ}, motive k → Gather c k l → motive l)
    (forward : ∀ {e : Engine σ τ} {s : Sending τ} {l : Transit σ τ}, PromptlyReachable v c e →
      motive e.transit → e.sending? s.id = some s → Forward v c e.transit s l → motive l)
    (pass : ∀ {e : Engine σ τ} {now : Nat}, PromptlyReachable v c e → motive e.transit →
      e.isSettled = true → e.now < now → (∀ p ∈ e.pending, now ≤ p.1) →
        motive { e.transit with now := now })
    (h : PromptlyReachable v c e) : motive e.transit := by
  obtain ⟨service, run⟩ := h
  induction run with
  | refl => exact init service
  | @tail e f before step ih =>
    have reached : PromptlyReachable v c e := ⟨service, before⟩
    cases step.step.transits reached.reachable.sound with
    | gather gathers => exact Gathers.carries gather ih gathers
    | forward s here _ turn => exact forward reached ih here turn
    | pass now later passed =>
      obtain rfl : f.now = now := passed ▸ now_moveTo e now
      rw [passed, transit_moveTo]
      rcases Nat.eq_or_lt_of_le later with same | later
      · exact same ▸ ih
      · exact pass reached ih (step.settled later) later fun _ => step.le_pending later

end Engine
end TopicPublisher
