import TopicPublisher.Proofs.Engine.Changes.Steps

/-!
The sides of an engine. At the desk publish calls and shutdown calls come in, wait and return; at
the bench entries are batched. The tasks that batch and send do not touch the desk, and calls and
the tasks that send do not touch the bench.
-/

namespace TopicPublisher

/-- What the users of an engine deal with. -/
structure Desk where
  closing : Bool
  clones : Nat
  blocked : List Entry
  shutdowns : List (Nat × Nat)
  returned : List Nat
  admitted : List Entry
  finished : List Nat
  doors : Option Bool × Option Bool

def Desk.note (d : Desk) (hs : List Happening) : Desk :=
  { d with
    returned := d.returned ++ hs.filterMap Happening.returned?
    admitted := d.admitted ++ hs.filterMap Happening.admitted?
    finished := d.finished ++ hs.filterMap Happening.finished? }

namespace Engine

variable {σ τ : Type} {v : Service σ τ} {c : Config} {e f : Engine σ τ}

/-- The shutdown calls that have returned. -/
def finished (e : Engine σ τ) : List Nat := e.events.filterMap Happening.finished?

theorem mem_finished {call : Nat} :
    call ∈ e.finished ↔ .shutdownReturned call ∈ e.events := by
  rw [finished, List.mem_filterMap]
  constructor
  · rintro ⟨h, hm, hc⟩
    cases h <;> first | (obtain rfl := Option.some.inj hc; exact hm) | cases hc
  · exact fun hm => ⟨_, hm, rfl⟩

@[simp] theorem finished_note (e : Engine σ τ) (hs : List Happening) :
    (e.note hs).finished = e.finished ++ hs.filterMap Happening.finished? := by
  simp [finished]

def desk (e : Engine σ τ) : Desk where
  closing := e.closing
  clones := e.clones
  blocked := e.blocked
  shutdowns := e.shutdowns
  returned := e.returned
  admitted := e.admitted
  finished := e.finished
  doors := e.admission.doors

theorem desk_note (e : Engine σ τ) (hs : List Happening) :
    (e.note hs).desk = e.desk.note hs := by
  simp only [desk, Desk.note, returned_note, admitted_note, finished_note]
  rfl

/-- The desk is the front together with what was entered about calls of the users. -/
theorem desk_congr (front : f.front = e.front) (history : f.history = e.history) :
    f.desk = e.desk := by
  have events := events_congr history
  simp only [desk, returned, admitted, finished, events, Desk.mk.injEq, true_and]
  exact ⟨congrArg Front.closing front, congrArg Front.clones front, congrArg Front.blocked front,
    congrArg Front.shutdowns front, congrArg Front.doors front⟩

/-- Happenings that no call of a user sees. -/
theorem desk_note_inner (e : Engine σ τ) (hs : List Happening) (inner : ∀ h ∈ hs, h.IsInner) :
    (e.note hs).desk = e.desk := by
  have returned : hs.filterMap Happening.returned? = [] :=
    List.filterMap_eq_nil_iff.mpr fun h hh => (inner h hh).returned
  have admitted : hs.filterMap Happening.admitted? = [] :=
    List.filterMap_eq_nil_iff.mpr fun h hh => (inner h hh).admitted
  have finished : hs.filterMap Happening.finished? = [] :=
    List.filterMap_eq_nil_iff.mpr fun h hh => (inner h hh).finished
  rw [desk_note, Desk.note, returned, admitted, finished]
  simp only [List.append_nil]

theorem desk_eq {hs : List Happening} (front : f.front = e.front) (inner : ∀ h ∈ hs, h.IsInner)
    (history : f.history = (e.note hs).history) : f.desk = e.desk :=
  (desk_congr (e := e.note hs) front history).trans (desk_note_inner e hs inner)

theorem ByBatching.desk (h : ByBatching e f) : f.desk = e.desk := by
  obtain ⟨hs, apart, history⟩ := h.enters
  exact desk_eq h.front (fun x hx => (apart x hx).1) history

theorem BySending.desk {n : Nat} (h : BySending n e f) : f.desk = e.desk := by
  obtain ⟨hs, apart, history⟩ := h.enters
  exact desk_eq h.front (fun x hx => (apart x hx).1) history

/-- Neither the tasks that batch and send nor the clock touch the desk. -/
theorem desk_run_batching (e : Engine σ τ) : (e.run v c .batching).desk = e.desk :=
  (run_byBatching e).desk

theorem desk_run_sending (e : Engine σ τ) (id : Nat) :
    (e.run v c (.sending id)).desk = e.desk :=
  (run_bySending e id).desk

theorem desk_moveTo (e : Engine σ τ) (now : Nat) : (e.moveTo now).desk = e.desk := by
  rw [moveTo, wakeAll_eq]
  rfl

/-- Only a turn of the batching task, and time that passes, is seen at the bench. -/
theorem Step.bench (step : Step v c e f) :
    f.bench = e.bench ∨ f = e.run v c .batching ∨ ∃ now, e.now ≤ now ∧ f = e.moveTo now := by
  cases step.change with
  | call change => exact .inl change.bench
  | batching run _ => exact .inr (.inl run)
  | sending _ _ change => exact .inl change.bench
  | pass now later passed => exact .inr (.inr ⟨now, later, passed⟩)

end Engine
end TopicPublisher
