import TopicPublisher.Proofs.Engine.Transit.Steps
import TopicPublisher.Proofs.Retry.Budget

/-!
Batches that are sent on a virtual clock. No wait is passed over, so every call and every pause
ends in time, and each of them ends within the budget of its batch.
-/

namespace TopicPublisher

namespace Clock

theorem nanos_elapsed (since now : Nat) : (elapsed since now).nanos = instant now - instant since :=
  Nat.sub_mul ..

theorem instant_mono {since now : Nat} (h : since ≤ now) : instant since ≤ instant now :=
  Nat.mul_le_mul_right _ h

end Clock

namespace RetryPolicy

variable {p : RetryPolicy} {started now number : Nat}

/-- An attempt that starts within the budget ends within it. -/
theorem attempt_le_limit (bounded : p.Bounded started) (later : started ≤ now)
    (fresh : Clock.instant now ≤ Clock.instant started + p.totalTimeout.nanos) :
    Clock.wakeAfter now (p.attemptTimeout started now number) ≤ p.limit started := by
  refine Clock.wakeAfter_le ?_ bounded
  have cut := p.attemptTimeout_le_remaining started now number
  have began := Clock.instant_mono later
  rw [remaining, Duration.nanos_sub, Clock.nanos_elapsed] at cut
  omega

theorem fresh_of_unspent (unspent : p.isSpent started now = false) :
    Clock.instant now ≤ Clock.instant started + p.totalTimeout.nanos := by
  have left := elapsed_lt unspent
  rw [Duration.lt_def, Clock.nanos_elapsed] at left
  omega

end RetryPolicy

namespace SendPhase

variable {τ : Type} {timeout : Duration} {now limit wake : Nat} {answerAt : Option Nat} {call : τ}

theorem le_wake (inTime : now ≤ limit) (later : ∀ answer ∈ answerAt, now ≤ answer)
    (waits : (calling timeout limit answerAt call).wake? = some wake) : now ≤ wake := by
  obtain rfl := Option.some.inj waits
  refine Nat.le_min.mpr ⟨inTime, ?_⟩
  cases answerAt with
  | none => exact inTime
  | some answer => exact later answer rfl

theorem wake_le (waits : (calling timeout limit answerAt call).wake? = some wake) :
    wake ≤ limit := by
  obtain rfl := Option.some.inj waits
  exact Nat.min_le_left _ _

end SendPhase

/-- A sending keeps to the clock: what it waits for is not over, and comes within its budget. -/
structure Sending.Punctual {τ : Type} (p : RetryPolicy) (now : Nat) (s : Sending τ) : Prop where
  began : s.started ≤ now
  fresh : s.phase = .ready →
    Clock.instant now ≤ Clock.instant s.started + p.totalTimeout.nanos
  early : ∀ wake, s.phase.wake? = some wake → now ≤ wake
  bounded : p.Bounded s.started → ∀ wake, s.phase.wake? = some wake → wake ≤ p.limit s.started

namespace Transit

variable {σ τ : Type} {v : Service σ τ} {c : Config} {k l : Transit σ τ} {s : Sending τ}

/-- All that is sent keeps to the clock. -/
def Punctual (c : Config) (k : Transit σ τ) : Prop := ∀ s ∈ k.sends, s.Punctual c.retries k.now

theorem Punctual.dispatch (h : k.Punctual c) (b : Batch) : (k.dispatch b).Punctual c := by
  intro s hs
  rcases List.mem_append.mp hs with hs | hs
  · exact h s hs
  · obtain rfl := List.mem_singleton.mp hs
    exact ⟨Nat.le_refl _, fun _ => Nat.le_add_right _ _, nofun, nofun⟩

theorem Punctual.dispatchAll (h : k.Punctual c) (bs : List Batch) : (k.dispatchAll bs).Punctual c :=
  dispatchAll_carries (motive := Punctual c) (fun b h => Punctual.dispatch h b) h bs

theorem Punctual.gather (h : k.Punctual c) (gather : Gather c k l) : l.Punctual c := by
  cases gather with
  | enqueue x _ => exact h
  | add x rest closed batcher _ _ _ =>
    exact Punctual.dispatchAll (k := { k with queue := rest, batcher := batcher }) h closed
  | close _ _ => exact Punctual.dispatch (k := { k with batcher := {} }) h _
  | retire _ _ _ => exact h
  | kill _ _ => exact h

theorem Punctual.set (h : k.Punctual c) (hs : s.Punctual c.retries k.now) :
    (k.set s).Punctual c := by
  intro t ht
  obtain ⟨u, hu, rfl⟩ := List.mem_map.mp ht
  split
  · exact hs
  · exact h u hu

/-- The call is made now, and is cut to what is left of the budget. -/
theorem Punctual.call (h : k.Punctual c) (hs : s ∈ k.sends) (ready : s.phase = .ready) :
    (k.call v c s).Punctual c := by
  have punctual := h s hs
  have limit := Clock.le_wakeAfter k.now
    (c.retries.attemptTimeout s.started k.now (s.attempts + 1))
  have answer : ∀ answer ∈ (v.start k.service s.batch.messages).1.map (k.now + ·),
      k.now ≤ answer := by
    intro answer later
    obtain ⟨latency, -, rfl⟩ := Option.map_eq_some_iff.mp later
    exact Nat.le_add_right _ _
  unfold Transit.call
  refine Punctual.set (k := note { k with service := _, counters := _ } _) h
    ⟨punctual.began, nofun, fun wake waits => ?_, fun bounded wake waits => ?_⟩
  · exact SendPhase.le_wake limit answer waits
  · exact Nat.le_trans (SendPhase.wake_le waits)
      (RetryPolicy.attempt_le_limit bounded punctual.began (punctual.fresh ready))

theorem Punctual.forward (h : k.Punctual c) (hs : s ∈ k.sends) (turn : Forward v c k s l) :
    l.Punctual c := by
  have punctual := h s hs
  cases turn with
  | call ready => exact h.call hs ready
  | wait wake alarm waits early =>
    exact h.set ⟨punctual.began, punctual.fresh, punctual.early, punctual.bounded⟩
  | settle timeout limit answerAt call reply service result phase ends verdict =>
    exact fun t ht => h t (List.mem_of_mem_filter ht)
  | exhaust wake error phase past spent => exact fun t ht => h t (List.mem_of_mem_filter ht)
  | fail timeout limit answerAt call reply service error phase ends verdict =>
    refine Punctual.set (k := k.answer s service reply) h
      ⟨punctual.began, nofun, ?_, fun bounded => ?_⟩
    · intro wake waits
      obtain rfl := Option.some.inj waits
      exact c.retries.le_resumeAt s.started k.now s.attempts
    · intro wake waits
      obtain rfl := Option.some.inj waits
      have waited : s.phase.wake? = some (Nat.min limit (answerAt.getD limit)) := by
        rw [phase]
        rfl
      exact RetryPolicy.resumeAt_le_limit bounded punctual.began
        (Nat.le_trans (punctual.early _ waited) (punctual.bounded bounded _ waited)) s.attempts
  | resume wake error phase past left =>
    exact Punctual.set (k := { k with counters := _ }) h
      ⟨punctual.began, fun _ => RetryPolicy.fresh_of_unspent left, nofun, nofun⟩

end Transit

namespace Engine

variable {σ τ : Type} {v : Service σ τ} {c : Config} {e : Engine σ τ}

/-- On a virtual clock all that is sent keeps to it. -/
theorem PromptlyReachable.punctual (h : PromptlyReachable v c e) : e.transit.Punctual c := by
  refine h.carries (fun _ => nofun) Transit.Punctual.gather ?_ ?_
  · exact fun _ punctual here turn => punctual.forward (List.mem_of_find?_eq_some here) turn
  · intro e now reached punctual settled later next s hs
    have before := punctual s hs
    obtain ⟨wake, waits, -⟩ := reached.reachable.idle settled (.sending s.id) s hs rfl
    refine ⟨Nat.le_trans before.began (Nat.le_of_lt later), fun ready => ?_, ?_, before.bounded⟩
    · rw [ready] at waits
      cases waits
    · exact fun wake waits => next _ (pending_sending hs waits)

end Engine
end TopicPublisher
