import TopicPublisher.Proofs.Engine.Punctual
import TopicPublisher.Proofs.Retry.Pace

/-!
The pace of batches that are sent on a virtual clock. The pauses of a batch count against its
budget, so under a policy that tires of some number of attempts no batch is sent more often.
-/

namespace TopicPublisher

/-- A sending has made no more attempts than tire its policy, and has waited for all the delays
between them. A pause that was cut ends with the budget. -/
structure Sending.Paced {τ : Type} (p : RetryPolicy) (most now : Nat) (s : Sending τ) : Prop where
  few : s.attempts ≤ most
  ready : s.phase = .ready →
    Clock.instant s.started + p.paused s.attempts ≤ Clock.instant now
  calling : ∀ timeout limit answerAt call, s.phase = .calling timeout limit answerAt call →
    0 < s.attempts ∧ Clock.instant s.started + p.paused (s.attempts - 1) ≤ Clock.instant now
  pausing : ∀ wake error, s.phase = .pausing wake error → p.isSpent s.started wake = true ∨
    Clock.instant s.started + p.paused s.attempts ≤ Clock.instant wake

theorem Sending.Paced.later {τ : Type} {p : RetryPolicy} {most now later : Nat} {s : Sending τ}
    (h : s.Paced p most now) (le : now ≤ later) : s.Paced p most later where
  few := h.few
  ready phase := Nat.le_trans (h.ready phase) (Clock.instant_mono le)
  calling timeout limit answerAt call phase :=
    (h.calling timeout limit answerAt call phase).imp_right
      (Nat.le_trans · (Clock.instant_mono le))
  pausing := h.pausing

namespace Transit

variable {σ τ : Type} {v : Service σ τ} {c : Config} {k l : Transit σ τ} {s : Sending τ}
  {most : Nat}

/-- All that is sent keeps the pace. -/
def Paced (c : Config) (most : Nat) (k : Transit σ τ) : Prop :=
  ∀ s ∈ k.sends, s.Paced c.retries most k.now

theorem Paced.dispatch (h : k.Paced c most) (b : Batch) : (k.dispatch b).Paced c most := by
  intro s hs
  rcases List.mem_append.mp hs with hs | hs
  · exact h s hs
  · obtain rfl := List.mem_singleton.mp hs
    refine ⟨Nat.zero_le _, fun _ => ?_, nofun, nofun⟩
    change Clock.instant k.now + c.retries.paused 0 ≤ Clock.instant k.now
    exact Nat.le_of_eq (Nat.add_zero _)

theorem Paced.gather (h : k.Paced c most) (gather : Gather c k l) : l.Paced c most := by
  cases gather with
  | enqueue x _ => exact h
  | add x rest closed batcher _ _ _ =>
    exact dispatchAll_carries (motive := Paced c most) (fun b h => Paced.dispatch h b)
      (k := { k with queue := rest, batcher := batcher }) h closed
  | close _ _ => exact Paced.dispatch (k := { k with batcher := {} }) h _
  | retire _ _ _ => exact h
  | kill _ _ => exact h

theorem Paced.set (h : k.Paced c most) (hs : s.Paced c.retries most k.now) :
    (k.set s).Paced c most := by
  intro t ht
  obtain ⟨u, hu, rfl⟩ := List.mem_map.mp ht
  split
  · exact hs
  · exact h u hu

theorem Paced.forward (h : k.Paced c most) (punctual : k.Punctual c)
    (short : c.retries.totalTimeout ≤ .ofMillis Clock.Timers.farFuture)
    (tires : c.retries.Tires most) (hs : s ∈ k.sends) (turn : Forward v c k s l) :
    l.Paced c most := by
  have paced := h s hs
  have began := (punctual s hs).began
  cases turn with
  | call ready =>
    have waited := paced.ready ready
    have fewer := tires.lt waited ((punctual s hs).fresh ready)
    exact Paced.set (k := note { k with service := _, counters := _ } _) h
      ⟨fewer, nofun, fun _ _ _ _ _ => ⟨Nat.succ_pos _, waited⟩, nofun⟩
  | wait wake alarm waits early =>
    exact h.set ⟨paced.few, paced.ready, paced.calling, paced.pausing⟩
  | settle timeout limit answerAt call reply service result phase ends verdict =>
    exact fun t ht => h t (List.mem_of_mem_filter ht)
  | exhaust wake error phase past spent => exact fun t ht => h t (List.mem_of_mem_filter ht)
  | fail timeout limit answerAt call reply service error phase ends verdict =>
    obtain ⟨made, waited⟩ := paced.calling timeout limit answerAt call phase
    refine Paced.set (k := k.answer s service reply) h ⟨paced.few, nofun, nofun, ?_⟩
    intro wake error pauses
    cases pauses
    refine (RetryPolicy.resumeAt_spent_or_waited short began s.attempts).imp_right fun whole => ?_
    have all := c.retries.paused_succ (s.attempts - 1)
    rw [Nat.sub_add_cancel made] at all
    change Clock.instant s.started + c.retries.paused s.attempts ≤ _
    omega
  | resume wake error phase past left =>
    refine Paced.set (k := { k with counters := _ }) h ⟨paced.few, fun _ => ?_, nofun, nofun⟩
    have left := Bool.eq_false_iff.mp left
    rcases paced.pausing wake error phase with spent | waited
    · exact absurd (RetryPolicy.isSpent_mono past spent) left
    · exact Nat.le_trans waited (Clock.instant_mono past)

end Transit

namespace Engine

variable {σ τ : Type} {v : Service σ τ} {c : Config} {e : Engine σ τ} {most : Nat}

/-- On a virtual clock all that is sent keeps the pace. -/
theorem PromptlyReachable.paced (h : PromptlyReachable v c e)
    (short : c.retries.totalTimeout ≤ .ofMillis Clock.Timers.farFuture)
    (tires : c.retries.Tires most) : e.transit.Paced c most := by
  refine h.carries (fun _ => nofun) Transit.Paced.gather ?_ ?_
  · exact fun reached paced here turn =>
      paced.forward reached.punctual short tires (List.mem_of_find?_eq_some here) turn
  · exact fun _ paced _ later _ s hs => (paced s hs).later (Nat.le_of_lt later)

/-- A sending that is about to make an attempt has some left. -/
theorem PromptlyReachable.attempts_lt (h : PromptlyReachable v c e)
    (short : c.retries.totalTimeout ≤ .ofMillis Clock.Timers.farFuture)
    (tires : c.retries.Tires most) {s : Sending τ} (hs : s ∈ e.sends)
    (ready : s.phase = .ready) : s.attempts < most :=
  tires.lt ((h.paced short tires s hs).ready ready) ((h.punctual s hs).fresh ready)

end Engine
end TopicPublisher
