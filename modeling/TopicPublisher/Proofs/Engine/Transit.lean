import TopicPublisher.Proofs.Engine.Changes.Steps

/-!
What is on its way to the service: entries that were admitted, the batches they are gathered into,
the tasks that send these, and a log of what has happened to them, each with its time. Publish
calls that are not granted, outcomes and wake-ups are not seen here.
-/

namespace TopicPublisher

/-- Happenings on the way of an entry to the service and back. -/
def Happening.inTransit : Happening → Bool
  | .admitted _ | .dispatched _ _ | .called _ _ _ | .answered _ _ _ | .sendEnded _ _ => true
  | _ => false

/-- The transit of entries to the service. The log begins with the oldest entry. -/
structure Transit (σ τ : Type) where
  now : Nat
  service : σ
  batching : BatchingLife
  batcher : Batcher
  queue : List Entry
  dispatched : Nat
  sends : List (Sending τ)
  counters : Counters
  log : List (Nat × Happening)

namespace Transit

variable {σ τ : Type}

def note (k : Transit σ τ) (hs : List Happening) : Transit σ τ :=
  { k with log := k.log ++ hs.map (k.now, ·) }

@[simp] theorem note_nil (k : Transit σ τ) : k.note [] = k := by
  simp [note]

def dispatch (k : Transit σ τ) (b : Batch) : Transit σ τ :=
  note { k with
      dispatched := k.dispatched + 1
      sends := k.sends ++ [{ id := k.dispatched, batch := b, started := k.now }] }
    [.dispatched k.dispatched b]

def dispatchAll (k : Transit σ τ) (bs : List Batch) : Transit σ τ := bs.foldl dispatch k

/-- What every dispatch keeps. -/
theorem dispatchAll_carries {motive : Transit σ τ → Prop}
    (dispatch : ∀ {k : Transit σ τ} (b : Batch), motive k → motive (k.dispatch b))
    {k : Transit σ τ} (h : motive k) (bs : List Batch) : motive (k.dispatchAll bs) := by
  unfold dispatchAll
  induction bs generalizing k with
  | nil => exact h
  | cons b rest ih => exact ih (dispatch b h)

def set (k : Transit σ τ) (s : Sending τ) : Transit σ τ :=
  { k with sends := k.sends.map fun t => if t.id == s.id then s else t }

/-- A call of the service begins. -/
def call (k : Transit σ τ) (v : Service σ τ) (c : Config) (s : Sending τ) : Transit σ τ :=
  let timeout := c.retries.attemptTimeout s.started k.now (s.attempts + 1)
  let started := v.start k.service s.batch.messages
  set
    ({ k with service := started.2.2, counters := k.counters.countAttempt }.note
      [.called s.id (s.attempts + 1) s.batch.messages])
    { s with
      attempts := s.attempts + 1
      phase := .calling timeout (Clock.wakeAfter k.now timeout)
        (started.1.map (k.now + ·)) started.2.1 }

/-- A call of the service has ended. -/
def answer (k : Transit σ τ) (s : Sending τ) (service : σ) (reply : Option Reply) : Transit σ τ :=
  { k with service := service }.note [.answered s.id s.attempts reply]

/-- The sending of a batch is over. -/
def finish (k : Transit σ τ) (s : Sending τ) (result : SendResult) : Transit σ τ :=
  { k with
    counters := result.count s.batch.size k.counters
    sends := k.sends.filter (·.id != s.id) }.note [.sendEnded s.id result]

end Transit

namespace Engine

variable {σ τ : Type}

def transit (e : Engine σ τ) : Transit σ τ where
  now := e.now
  service := e.service
  batching := e.batching
  batcher := e.batcher
  queue := e.queue.toList
  dispatched := e.dispatched
  sends := e.sends
  counters := { e.counters with admissionRejections := 0 }
  log := e.history.reverse.filter (·.2.inTransit)

theorem mem_log {e : Engine σ τ} {p : Nat × Happening} :
    p ∈ e.transit.log ↔ p ∈ e.history ∧ p.2.inTransit = true := by
  simp [transit]

/-! What the transit does not see -/

theorem transit_note (e : Engine σ τ) (hs : List Happening) :
    (e.note hs).transit = e.transit.note (hs.filter Happening.inTransit) := by
  have log : ((e.note hs).history.reverse.filter (·.2.inTransit)) =
      e.history.reverse.filter (·.2.inTransit) ++
        (hs.filter Happening.inTransit).map (e.now, ·) := by
    rw [note, List.reverse_append, List.reverse_reverse, List.filter_append, List.filter_map]
    rfl
  simp only [transit, Transit.note, log]
  rfl

theorem transit_note_aside {e : Engine σ τ} {hs : List Happening}
    (aside : ∀ h ∈ hs, h.inTransit = false) : (e.note hs).transit = e.transit := by
  rw [transit_note, List.filter_eq_nil_iff.mpr fun h hh => Bool.eq_false_iff.mp (aside h hh),
    Transit.note_nil]

theorem inTransit_logs (batch : Option Nat) (events : List LogEvent) :
    (events.map (.logged batch)).filter Happening.inTransit = [] := by
  simp [List.filter_eq_nil_iff, Happening.inTransit]

@[simp] theorem transit_wakeAll (e : Engine σ τ) (ts : List Task) :
    (e.wakeAll ts).transit = e.transit := by
  rw [wakeAll_eq]
  rfl

@[simp] theorem transit_wake (e : Engine σ τ) (t : Task) : (e.wake t).transit = e.transit :=
  e.transit_wakeAll [t]

@[simp] theorem transit_wakeCalls (e : Engine σ τ) (calls : List Nat) :
    (e.wakeCalls calls).transit = e.transit :=
  e.transit_wakeAll _

@[simp] theorem transit_wakeShutdowns (e : Engine σ τ) :
    e.wakeShutdowns.transit = e.transit := by
  rw [wakeShutdowns_eq]
  rfl

@[simp] theorem transit_releaseCall (e : Engine σ τ) (call : Nat) :
    (e.releaseCall call).transit = e.transit := by
  rw [releaseCall_eq, transit_note_aside (by simp [Happening.inTransit])]
  rfl

@[simp] theorem transit_resolveAll (e : Engine σ τ) (outcomes : List (Nat × Outcome)) :
    (e.resolveAll outcomes).transit = e.transit := by
  rw [resolveAll_eq, transit_note_aside]
  · rfl
  · intro h hh
    obtain ⟨o, -, hh⟩ := List.mem_flatMap.mp hh
    simp only [List.mem_cons, List.not_mem_nil, or_false] at hh
    rcases hh with rfl | rfl <;> rfl

@[simp] theorem transit_resolve (e : Engine σ τ) (call : Nat) (outcome : Outcome) :
    (e.resolve call outcome).transit = e.transit :=
  e.transit_resolveAll [(call, outcome)]

@[simp] theorem transit_refuse (e : Engine σ τ) (call : Nat) (error : PublishError) :
    (e.refuse call error).transit = e.transit := by
  rw [refuse_eq]
  exact transit_note_aside (by simp [Happening.inTransit])

/-- Rejections are counted elsewhere. -/
theorem transit_refused (e : Engine σ τ) (call : Nat) (error : PublishError) :
    ({ e with counters := if error.isRejection then e.counters.countRejection else e.counters
      }.refuse call error).transit = e.transit := by
  rw [transit_refuse]
  cases error.isRejection <;> rfl

theorem transit_cancel (e : Engine σ τ) (call : Nat) : (e.cancel call).transit = e.transit := by
  rw [cancel_eq]
  rfl

theorem transit_dropClone (e : Engine σ τ) : e.dropClone.transit = e.transit := by
  rw [dropClone_eq]
  rfl

theorem transit_shutdown (e : Engine σ τ) (c : Config) (call : Nat) :
    (e.shutdown c call).transit = e.transit := by
  have announced : (e.note (e.announced c)).transit = e.transit :=
    transit_note_aside fun h hh => mem_announced hh ▸ rfl
  rw [shutdown_eq]
  exact announced

theorem transit_shutdownTurn (e : Engine σ τ) (c : Config) (call : Nat) :
    (e.shutdownTurn c call).transit = e.transit := by
  rcases shutdownTurn_eq e c call with ⟨-, same⟩ | ⟨-, -, same⟩
  · rw [same]
  · rw [same, transit_note_aside (by simp [Happening.inTransit])]
    rfl

theorem transit_moveTo (e : Engine σ τ) (now : Nat) :
    (e.moveTo now).transit = { e.transit with now := now } := by
  unfold moveTo
  rw [transit_wakeAll]
  rfl

end Engine
end TopicPublisher
