import TopicPublisher.Proofs.Engine.Frame

/-!
What the history of an engine says about its publish calls and its batches, oldest first.
-/

namespace TopicPublisher

namespace Happening

@[simp] def returned? : Happening → Option Nat
  | .returned call => some call
  | _ => none

@[simp] def admitted? : Happening → Option Entry
  | .admitted entry => some entry
  | _ => none

@[simp] def dispatched? : Happening → Option (Nat × Batch)
  | .dispatched batch content => some (batch, content)
  | _ => none

@[simp] def called? : Happening → Option (Nat × Nat × List Message)
  | .called batch attempt messages => some (batch, attempt, messages)
  | _ => none

@[simp] def answered? : Happening → Option (Nat × Nat × Option Reply)
  | .answered batch attempt reply => some (batch, attempt, reply)
  | _ => none

@[simp] def ended? : Happening → Option (Nat × SendResult)
  | .sendEnded batch result => some (batch, result)
  | _ => none

@[simp] def released? : Happening → Option Nat
  | .released call => some call
  | _ => none

@[simp] def resolved? : Happening → Option (Nat × Outcome)
  | .resolved call outcome => some (call, outcome)
  | _ => none

@[simp] def finished? : Happening → Option Nat
  | .shutdownReturned call => some call
  | _ => none

/-- What happens to a batch in its calls. -/
def concerns (n : Nat) : Happening → Bool
  | .called batch _ _ | .answered batch _ _ | .sendEnded batch _ => batch == n
  | _ => false

theorem admitted?_eq_some {h : Happening} {x : Entry} :
    h.admitted? = some x ↔ h = .admitted x := by
  cases h <;> simp

theorem dispatched?_eq_some {h : Happening} {d : Nat × Batch} :
    h.dispatched? = some d ↔ h = .dispatched d.1 d.2 := by
  cases h <;> simp [Prod.ext_iff]

theorem ended?_eq_some {h : Happening} {r : Nat × SendResult} :
    h.ended? = some r ↔ h = .sendEnded r.1 r.2 := by
  cases h <;> simp [Prod.ext_iff]

theorem resolved?_eq_some {h : Happening} {o : Nat × Outcome} :
    h.resolved? = some o ↔ h = .resolved o.1 o.2 := by
  cases h <;> simp [Prod.ext_iff]

end Happening

namespace Engine

variable {σ τ : Type}

def events (e : Engine σ τ) : List Happening := (e.history.map Prod.snd).reverse

@[simp] theorem events_note (e : Engine σ τ) (hs : List Happening) :
    (e.note hs).events = e.events ++ hs := by
  simp [events, note, Function.comp_def]

theorem events_congr {e f : Engine σ τ} (same : f.history = e.history) : f.events = e.events :=
  congrArg (fun h => (h.map Prod.snd).reverse) same

def returned (e : Engine σ τ) : List Nat := e.events.filterMap Happening.returned?

/-- The messages that were admitted, in the order of their admission. -/
def admitted (e : Engine σ τ) : List Entry := e.events.filterMap Happening.admitted?

def dispatches (e : Engine σ τ) : List (Nat × Batch) := e.events.filterMap Happening.dispatched?

/-- The calls of the service: the batch, the number of the attempt, and the messages. -/
def calls (e : Engine σ τ) : List (Nat × Nat × List Message) := e.events.filterMap Happening.called?

/-- The ends of calls of the service, with the reply if there was one in time. -/
def answers (e : Engine σ τ) : List (Nat × Nat × Option Reply) :=
  e.events.filterMap Happening.answered?

def results (e : Engine σ τ) : List (Nat × SendResult) := e.events.filterMap Happening.ended?

def released (e : Engine σ τ) : List Nat := e.events.filterMap Happening.released?

/-- The outcomes that handles were given, each with its publish call. -/
def resolved (e : Engine σ τ) : List (Nat × Outcome) := e.events.filterMap Happening.resolved?

@[simp] theorem returned_note (e : Engine σ τ) (hs : List Happening) :
    (e.note hs).returned = e.returned ++ hs.filterMap Happening.returned? := by
  simp [returned]

@[simp] theorem admitted_note (e : Engine σ τ) (hs : List Happening) :
    (e.note hs).admitted = e.admitted ++ hs.filterMap Happening.admitted? := by
  simp [admitted]

@[simp] theorem dispatches_note (e : Engine σ τ) (hs : List Happening) :
    (e.note hs).dispatches = e.dispatches ++ hs.filterMap Happening.dispatched? := by
  simp [dispatches]

@[simp] theorem calls_note (e : Engine σ τ) (hs : List Happening) :
    (e.note hs).calls = e.calls ++ hs.filterMap Happening.called? := by
  simp [calls]

@[simp] theorem answers_note (e : Engine σ τ) (hs : List Happening) :
    (e.note hs).answers = e.answers ++ hs.filterMap Happening.answered? := by
  simp [answers]

@[simp] theorem results_note (e : Engine σ τ) (hs : List Happening) :
    (e.note hs).results = e.results ++ hs.filterMap Happening.ended? := by
  simp [results]

@[simp] theorem released_note (e : Engine σ τ) (hs : List Happening) :
    (e.note hs).released = e.released ++ hs.filterMap Happening.released? := by
  simp [released]

@[simp] theorem resolved_note (e : Engine σ τ) (hs : List Happening) :
    (e.note hs).resolved = e.resolved ++ hs.filterMap Happening.resolved? := by
  simp [resolved]

/-! Members -/

/-- What is picked from the history, oldest first, each with the reading at which it was
entered. -/
def picked {α : Type} (e : Engine σ τ) (f : Happening → Option α) : List (Nat × α) :=
  e.history.reverse.filterMap fun p => (f p.2).map (p.1, ·)

variable {e : Engine σ τ} {α : Type} {f : Happening → Option α} {g : α → Happening}

theorem map_snd_picked (e : Engine σ τ) (f : Happening → Option α) :
    (e.picked f).map Prod.snd = e.events.filterMap f := by
  simp [picked, events, List.map_filterMap, Function.comp_def]

theorem mem_picked (picks : ∀ h x, f h = some x ↔ h = g x) {p : Nat × α} :
    p ∈ e.picked f ↔ (p.1, g p.2) ∈ e.history := by
  rw [picked, List.mem_filterMap]
  constructor
  · rintro ⟨⟨t, h⟩, there, same⟩
    obtain ⟨x, hx, rfl⟩ := Option.map_eq_some_iff.mp same
    exact (picks h x).mp hx ▸ List.mem_reverse.mp there
  · intro there
    exact ⟨_, List.mem_reverse.mpr there, by rw [(picks _ p.2).mpr rfl]; rfl⟩

theorem mem_events {h : Happening} : h ∈ e.events ↔ ∃ t, (t, h) ∈ e.history := by
  simp [events]

theorem mem_picked_events (picks : ∀ h x, f h = some x ↔ h = g x) {x : α} :
    x ∈ e.events.filterMap f ↔ ∃ t, (t, g x) ∈ e.history := by
  simp [picks, mem_events]

theorem mem_dispatches {d : Nat × Batch} :
    d ∈ e.dispatches ↔ ∃ t, (t, .dispatched d.1 d.2) ∈ e.history :=
  mem_picked_events fun _ _ => Happening.dispatched?_eq_some

theorem mem_results {r : Nat × SendResult} :
    r ∈ e.results ↔ ∃ t, (t, .sendEnded r.1 r.2) ∈ e.history :=
  mem_picked_events fun _ _ => Happening.ended?_eq_some

end Engine
end TopicPublisher
