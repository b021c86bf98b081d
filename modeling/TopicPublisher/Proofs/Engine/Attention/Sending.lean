import TopicPublisher.Proofs.Engine.Attention.Calls

/-!
The tasks that send batches make ready what they let go on, and end their turns only if they cannot
go on themselves.
-/

namespace TopicPublisher
namespace Engine

variable {σ τ : Type} {v : Service σ τ} {c : Config} {e f : Engine σ τ} {t : Task}
  {s : Sending τ} {again : Bool}

/-- Only the sending that changes is concerned. -/
theorem heeded_setSending (other : t ≠ .sending s.id) (h : e.Heeded t) :
    (e.setSending s).Heeded t := by
  cases t with
  | sending id =>
    refine h.imp_right fun idle u hu hid => ?_
    obtain ⟨w, hw, rfl⟩ := List.mem_map.mp hu
    by_cases same : w.id == s.id
    · rw [if_pos same] at hid
      exact absurd (congrArg Task.sending hid.symm) other
    · rw [if_neg same] at hid ⊢
      exact idle w hw hid
  | shutdown call =>
    refine h.imp_right fun idle drained => idle ?_
    simpa [isDrained, setSending] using drained
  | batching | publishing => exact h

theorem heeded_endSending (h : e.Heeded t) (result : SendResult) :
    (e.endSending s result).Heeded t := by
  rw [endSending_eq]
  refine heeded_wakeShutdowns fun calls => heeded_resolveAll ((heeded_note _).mpr ?_) _
  cases t with
  | sending id =>
    exact h.imp_right fun idle u hu hid => idle u (List.mem_of_mem_filter hu) hid
  | shutdown call => exact absurd rfl (calls call)
  | batching | publishing => exact h

theorem SendingTurn.heeds (turn : SendingTurn v c e s (again, f)) (other : t ≠ .sending s.id)
    (h : e.Heeded t) : f.Heeded t := by
  have noted (service : σ) (counters : Counters) (hs : List Happening) :
      ({ e with counters := counters, service := service }.note hs).Heeded t := by
    rw [heeded_note]
    cases t <;> exact h
  cases turn with
  | call timeout latency call service _ _ _ => exact heeded_setSending other (noted _ _ _)
  | wait wake _ _ =>
    have set : (e.setSending { s with alarm := e.alarms }).Heeded t := heeded_setSending other h
    cases t <;> exact set
  | settle timeout limit answerAt call reply service result _ _ _ =>
    exact heeded_endSending (noted _ e.counters _) result
  | fail timeout limit answerAt call reply service error _ _ _ =>
    exact heeded_setSending other (noted _ e.counters _)
  | resume wake error _ _ _ => exact heeded_setSending other (noted e.service _ [])
  | exhaust wake error _ _ _ => exact heeded_endSending h _

theorem endSending_idle (e : Engine σ τ) (s : Sending τ) (result : SendResult) :
    (e.endSending s result).Idle (.sending s.id) := by
  rw [endSending_eq, wakeShutdowns_eq, resolveAll_eq]
  intro u hu hid
  exact absurd hid (by simpa using (List.mem_filter.mp hu).2)

/-- The sending of a batch ends its turn only if it has to wait, or is over. -/
theorem SendingTurn.idle (turn : SendingTurn v c e s (false, f)) : f.Idle (.sending s.id) := by
  cases turn with
  | wait wake waits early =>
    intro u hu hid
    obtain ⟨w, -, rfl⟩ := List.mem_map.mp hu
    by_cases same : w.id == s.id
    · rw [if_pos same]
      exact ⟨wake, waits, early⟩
    · rw [if_neg same] at hid
      exact absurd (by simpa using hid) same
  | settle _ _ _ _ _ _ result _ _ _ => exact endSending_idle _ s result
  | exhaust wake error _ _ _ => exact endSending_idle e s _

end Engine
end TopicPublisher
