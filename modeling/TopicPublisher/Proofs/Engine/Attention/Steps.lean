import TopicPublisher.Proofs.Engine.Attention.Batching
import TopicPublisher.Proofs.Engine.Attention.Sending

/-!
Every step of an engine, time that passes included, makes ready what it lets go on, so no task of a
reachable engine is forgotten.
-/

namespace TopicPublisher
namespace Engine

variable {σ τ : Type} {v : Service σ τ} {c : Config} {e : Engine σ τ} {t : Task} {s : Sending τ}

/-! Time -/

theorem mem_due {now : Nat} :
    t ∈ e.due now ↔ ∃ wake alarm, (wake, alarm, t) ∈ e.pending ∧ wake ≤ now := by
  unfold due
  rw [List.mem_map]
  constructor
  · rintro ⟨⟨alarm, t⟩, ha, rfl⟩
    rw [List.mem_mergeSort, List.mem_map] at ha
    obtain ⟨⟨wake, alarm, t⟩, hw, same⟩ := ha
    cases same
    obtain ⟨pending, past⟩ := List.mem_filter.mp hw
    exact ⟨wake, alarm, pending, by simpa using past⟩
  · rintro ⟨wake, alarm, pending, past⟩
    refine ⟨(alarm, t), ?_, rfl⟩
    rw [List.mem_mergeSort, List.mem_map]
    exact ⟨(wake, alarm, t), List.mem_filter.mpr ⟨pending, by simpa using past⟩, rfl⟩

theorem pending_batching {wake : Nat} (h : e.batchingWake? = some wake) :
    (wake, e.batchingAlarm, .batching) ∈ e.pending := by
  unfold pending
  rw [h]
  exact List.mem_cons_self ..

theorem pending_sending {wake : Nat} (hs : s ∈ e.sends) (h : s.phase.wake? = some wake) :
    (wake, s.alarm, .sending s.id) ∈ e.pending := by
  have there : (wake, s.alarm, .sending s.id) ∈ e.sends.filterMap fun s =>
      s.phase.wake?.map (·, s.alarm, Task.sending s.id) :=
    List.mem_filterMap.mpr ⟨s, hs, by rw [h]; rfl⟩
  unfold pending
  split
  · exact List.mem_cons_of_mem _ there
  · exact there

/-- When time passes, all that is due is woken. -/
theorem heeded_moveTo (h : e.Heeded t) (now : Nat) : (e.moveTo now).Heeded t := by
  unfold moveTo
  refine heeded_wakeAll ?_
  rcases h with ready | idle
  · exact .inr (.inl ready)
  by_cases due : t ∈ e.due now
  · exact .inl due
  refine .inr (.inr ?_)
  have early {wake alarm : Nat} (pending : (wake, alarm, t) ∈ e.pending) : now < wake :=
    Nat.lt_of_not_le fun past => due (mem_due.mpr ⟨wake, alarm, pending, past⟩)
  cases t with
  | batching =>
    intro running
    obtain ⟨opened, clones, queue, -⟩ := idle running
    exact ⟨opened, clones, queue, fun wake armed => early (pending_batching armed)⟩
  | sending id =>
    intro u hu hid
    obtain ⟨wake, waits, -⟩ := idle u hu hid
    exact ⟨wake, waits, early (hid ▸ pending_sending hu waits)⟩
  | publishing | shutdown => exact idle

/-! Steps -/

theorem turn_heeds (tight : e.admission.Tight) {u : Task} (other : t ≠ u) (h : e.Heeded t) :
    (e.turn v c u).2.Heeded t := by
  have turn := turn_goes v c e u
  generalize e.turn v c u = result at turn ⊢
  cases turn with
  | batching => exact batchingTurn_heeds other h
  | ended _ _ => exact h
  | sending s _ turn => exact turn.heeds other h
  | publishing call => exact publishingTurn_heeds tight h call
  | shutdown call => exact shutdownTurn_heeds h

/-- A task that does not ask for another turn cannot go on. -/
theorem turn_idle (sound : e.custody.Sound c) (waits : (e.turn v c t).1 = false) :
    (e.turn v c t).2.Idle t := by
  have turn := turn_goes v c e t
  generalize e.turn v c t = result at turn waits ⊢
  cases turn with
  | batching => exact batchingTurn_idle waits
  | ended n none =>
    intro s hs hid
    simpa [hid] using List.find?_eq_none.mp none s hs
  | sending s here turn =>
    obtain rfl := waits
    exact turn.idle
  | publishing call => exact publishingTurn_idle sound call
  | shutdown call => exact shutdownTurn_idle e call

theorem heeded_erase {u : Task} (other : t ≠ u) (h : e.Heeded t) :
    Heeded { e with ready := e.ready.erase u } t := by
  refine h.imp (List.mem_erase_of_ne other).mpr fun idle => ?_
  cases t <;> exact idle

theorem heeded_run (sound : e.custody.Sound c) (tight : e.admission.Tight) (h : e.Heeded t)
    (u : Task) : (e.run v c u).Heeded t := by
  have others (other : t ≠ u) :
      ({ e with ready := e.ready.erase u }.turn v c u).2.Heeded t :=
    turn_heeds (e := { e with ready := e.ready.erase u }) tight other (heeded_erase other h)
  unfold run
  dsimp only
  split
  · by_cases own : t = u
    · exact .inl (own ▸ List.mem_cons_self ..)
    · refine (others own).imp (List.mem_cons_of_mem _) fun idle => ?_
      cases t <;> exact idle
  · next waits =>
    by_cases own : t = u
    · subst own
      exact .inr (turn_idle (e := { e with ready := e.ready.erase t }) sound
        (by simpa using waits))
    · exact others own

theorem Step.heeds {f : Engine σ τ} (sound : e.custody.Sound c) (tight : e.admission.Tight)
    (step : Step v c e f) (h : e.Heeded t) : f.Heeded t := by
  cases step with
  | publish x _ _ _ => exact publish_heeds h x
  | cancel call _ => exact cancel_heeds sound h call
  | clone _ => exact clone_heeds h
  | dropClone _ _ => exact dropClone_heeds h
  | shutdown call _ _ _ => exact shutdown_heeds h call
  | run u _ => exact heeded_run sound tight h u
  | pass now _ => exact heeded_moveTo h now

theorem start_idle (c : Config) (service : σ) (t : Task) :
    (start c service : Engine σ τ).Idle t := by
  cases t with
  | batching => exact fun _ => ⟨rfl, Nat.one_ne_zero, rfl, nofun⟩
  | sending id => exact nofun
  | publishing call =>
    intro told
    exact nomatch (start_sound (τ := τ) c service).told_blocked told
  | shutdown call => exact fun _ => nofun

/-- In every run, each task is ready at any moment at which it could go on. -/
theorem Reachable.heeds (h : Reachable v c e) (t : Task) : e.Heeded t := by
  obtain ⟨service, run⟩ := h
  induction run with
  | refl => exact .inr (start_idle c service t)
  | tail before step ih =>
    have reached : Reachable v c _ := ⟨service, before⟩
    exact step.heeds reached.sound reached.tight ih

/-- In a settled engine no task can go on before a user calls or time passes. -/
theorem Reachable.idle (h : Reachable v c e) (settled : e.isSettled = true) (t : Task) :
    e.Idle t := by
  rcases h.heeds t with ready | idle
  · rw [List.isEmpty_iff.mp settled] at ready
    cases ready
  · exact idle

end Engine
end TopicPublisher
