import TopicPublisher.Proofs.Engine.Changes.Steps

/-!
The trail of a batch: the task that sends it, and what this task has done for it so far. Only
turns of that very task change the trail.
-/

namespace TopicPublisher

/-- The task that sends a batch while it does, the calls that were made for the batch and the ends
of these calls, both with the numbers of their attempts, and the end of the sending. -/
structure Trail (τ : Type) where
  sending : Option (Sending τ)
  calls : List (Nat × List Message)
  answers : List (Nat × Option Reply)
  results : List SendResult

namespace Engine

variable {σ τ : Type}

def callsOf (e : Engine σ τ) (n : Nat) : List (Nat × List Message) :=
  (e.calls.filter (·.1 == n)).map Prod.snd

def answersOf (e : Engine σ τ) (n : Nat) : List (Nat × Option Reply) :=
  (e.answers.filter (·.1 == n)).map Prod.snd

def resultsOf (e : Engine σ τ) (n : Nat) : List SendResult :=
  (e.results.filter (·.1 == n)).map Prod.snd

def trail (e : Engine σ τ) (n : Nat) : Trail τ where
  sending := e.sending? n
  calls := e.callsOf n
  answers := e.answersOf n
  results := e.resultsOf n

variable {e f : Engine σ τ} {n : Nat}

theorem filter_filterMap_other {α : Type} {hs : List Happening} {f : Happening → Option (Nat × α)}
    (key : ∀ x y, f x = some y → x.concerns n = (y.1 == n))
    (h : ∀ x ∈ hs, x.concerns n = false) : (hs.filterMap f).filter (·.1 == n) = [] := by
  rw [List.filter_eq_nil_iff]
  intro y hy
  obtain ⟨x, hx, hxy⟩ := List.mem_filterMap.mp hy
  rw [← key x y hxy, h x hx]
  nofun

theorem trail_note {hs : List Happening} (h : ∀ x ∈ hs, x.concerns n = false) :
    (e.note hs).trail n = e.trail n := by
  have calls := filter_filterMap_other (f := Happening.called?) (by rintro (_ | _) _ ⟨⟩; rfl) h
  have answers := filter_filterMap_other (f := Happening.answered?)
    (by rintro (_ | _) _ ⟨⟩; rfl) h
  have results := filter_filterMap_other (f := Happening.ended?) (by rintro (_ | _) _ ⟨⟩; rfl) h
  simp only [trail, callsOf, answersOf, resultsOf, calls_note, answers_note, results_note,
    List.filter_append, calls, answers, results, List.append_nil]
  rfl

/-- The trail of a batch is read off the task that sends it and what concerns it. -/
theorem trail_eq {hs : List Happening} (sending : f.sending? n = e.sending? n)
    (apart : ∀ h ∈ hs, h.concerns n = false) (history : f.history = (e.note hs).history) :
    f.trail n = e.trail n := by
  have events := events_congr history
  refine Eq.trans ?_ (trail_note (e := e) apart)
  simp only [trail, callsOf, answersOf, resultsOf, Engine.calls, answers, results, events,
    sending]
  rfl

theorem ByCall.trail (h : ByCall e f) (n : Nat) : f.trail n = e.trail n := by
  obtain ⟨hs, apart, history⟩ := h.enters
  exact trail_eq (congrArg (·.find? (·.id == n)) h.sends) (fun x hx => apart x hx n) history

theorem ByBatching.trail (h : ByBatching e f) (old : n < e.dispatched) :
    f.trail n = e.trail n := by
  obtain ⟨hs, apart, history⟩ := h.enters
  obtain ⟨new, sends, later⟩ := h.sends
  refine trail_eq ?_ (fun x hx => (apart x hx).2 n) history
  have other : new.find? (·.id == n) = none := List.find?_eq_none.mpr fun s hs same =>
    Nat.not_le.mpr old (beq_iff_eq.mp same ▸ later s hs)
  rw [sending?, sends, List.find?_append, other, Option.or_none]
  rfl

theorem BySending.trail {m : Nat} (h : BySending m e f) (other : n ≠ m) :
    f.trail n = e.trail n := by
  obtain ⟨hs, apart, history⟩ := h.enters
  exact trail_eq (h.sends n other) (fun x hx => (apart x hx).2 n other) history

/-- A step leaves the trail of a batch as it is, or is a turn of the task that sends this batch. -/
theorem Step.trail {v : Service σ τ} {c : Config} (old : n < e.dispatched) (step : Step v c e f) :
    f.trail n = e.trail n ∨ f = e.run v c (.sending n) := by
  cases step.change with
  | call change => exact .inl (change.trail n)
  | batching _ change => exact .inl (change.trail old)
  | sending m run change =>
    by_cases own : n = m
    · exact .inr (own ▸ run)
    · exact .inl (change.trail own)
  | pass now _ passed =>
    rw [passed, moveTo, wakeAll_eq]
    exact .inl rfl

end Engine
end TopicPublisher
