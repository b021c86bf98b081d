import TopicPublisher.Engine.Step

/-!
The operations of an engine, each written out as one change of its state: the fields that it
sets, and the happenings that it adds to the history. What is not named does not change.
-/

namespace TopicPublisher

/-- A line of tasks after others were woken. -/
def enlist (ready woken : List Task) : List Task :=
  woken.foldl (fun ready t => if t ∈ ready then ready else ready ++ [t]) ready

theorem enlist_append (ready first second : List Task) :
    enlist ready (first ++ second) = enlist (enlist ready first) second := by
  simp [enlist]

/-- Releases reservations one after the other, and names the requests that may go on. -/
def Admission.releaseAll (a : Admission) : List Nat → Admission × List Nat
  | [] => (a, [])
  | call :: rest =>
    let (b, told) := a.release call
    let (d, more) := b.releaseAll rest
    (d, told ++ more)

namespace Engine

variable {σ τ : Type}

def note (e : Engine σ τ) (hs : List Happening) : Engine σ τ :=
  { e with history := (hs.map (e.now, ·)).reverse ++ e.history }

theorem record_eq (e : Engine σ τ) (h : Happening) : e.record h = e.note [h] := rfl

@[simp] theorem note_note (e : Engine σ τ) (xs ys : List Happening) :
    (e.note xs).note ys = e.note (xs ++ ys) := by
  simp [note]

/-- What is entered at one reading of the clock adds up. -/
theorem note_history {e f : Engine σ τ} {hs : List Happening} (now : f.now = e.now)
    (history : f.history = (e.note hs).history) (more : List Happening) :
    (f.note more).history = (e.note (hs ++ more)).history := by
  rw [← note_note, note, note, history, now]
  rfl

theorem logSendAll_eq (e : Engine σ τ) (batch : Nat) (events : List LogEvent) :
    e.logSendAll batch events = e.note (events.map (.logged (some batch))) := by
  unfold logSendAll
  induction events generalizing e with
  | nil => rfl
  | cons event rest ih =>
    rw [List.foldl_cons, ih, logSend, record_eq, note_note]
    rfl

theorem wakeAll_eq (e : Engine σ τ) (ts : List Task) :
    e.wakeAll ts = { e with ready := enlist e.ready ts } := by
  unfold wakeAll
  induction ts generalizing e with
  | nil => rfl
  | cons t rest ih =>
    rw [List.foldl_cons, ih]
    unfold wake
    split <;> simp [enlist, *]

theorem wake_eq (e : Engine σ τ) (t : Task) :
    e.wake t = { e with ready := enlist e.ready [t] } :=
  e.wakeAll_eq [t]

theorem wakeCalls_eq (e : Engine σ τ) (calls : List Nat) :
    e.wakeCalls calls = { e with ready := enlist e.ready (calls.map .publishing) } :=
  e.wakeAll_eq _

theorem wakeShutdowns_eq (e : Engine σ τ) :
    e.wakeShutdowns = { e with
      ready := if e.isDrained then enlist e.ready (e.shutdowns.map fun s => .shutdown s.1)
        else e.ready } := by
  unfold wakeShutdowns
  split
  · exact e.wakeAll_eq _
  · rfl

theorem dispatch_eq (e : Engine σ τ) (b : Batch) :
    e.dispatch b = Engine.note { e with
      dispatched := e.dispatched + 1
      sends := e.sends ++ [{ id := e.dispatched, batch := b, started := e.now }]
      ready := enlist e.ready [.sending e.dispatched] }
        [.logged (some e.dispatched) (.batchClosed b.size b.bytes),
          .dispatched e.dispatched b] := by
  unfold dispatch
  extract_lets logged noted sending
  rw [wake_eq]
  rfl

/-! Outcomes -/

theorem releaseCall_eq (e : Engine σ τ) (call : Nat) :
    e.releaseCall call = { e with
      admission := (e.admission.release call).1
      ready := enlist e.ready ((e.admission.release call).2.map .publishing) }.note
        [.released call] := by
  simp only [releaseCall, wakeCalls_eq]
  rfl

theorem resolve_eq (e : Engine σ τ) (call : Nat) (outcome : Outcome) :
    e.resolve call outcome = { e with
      admission := (e.admission.release call).1
      ready := enlist e.ready ((e.admission.release call).2.map .publishing) }.note
        [.released call, .resolved call outcome] := by
  rw [resolve, releaseCall_eq, record_eq, note_note]
  rfl

/-- What is entered when calls get their outcomes. -/
def resolutionsOf (outcomes : List (Nat × Outcome)) : List Happening :=
  outcomes.flatMap fun o => [.released o.1, .resolved o.1 o.2]

theorem resolveAll_eq (e : Engine σ τ) (outcomes : List (Nat × Outcome)) :
    e.resolveAll outcomes = { e with
      admission := (e.admission.releaseAll (outcomes.map Prod.fst)).1
      ready := enlist e.ready
        ((e.admission.releaseAll (outcomes.map Prod.fst)).2.map .publishing) }.note
          (resolutionsOf outcomes) := by
  unfold resolveAll
  induction outcomes generalizing e with
  | nil => rfl
  | cons o rest ih =>
    obtain ⟨call, outcome⟩ := o
    rw [List.foldl_cons, ih]
    simp only [resolve_eq]
    simp [note, resolutionsOf, Admission.releaseAll, enlist_append]

/-- What is entered when the sending of a batch ends, apart from the outcomes. -/
def endOf (s : Sending τ) (result : SendResult) : List Happening :=
  (result.log s.attempts s.batch.size).map (.logged (some s.id)) ++ [.sendEnded s.id result]

/-- The task is taken off before the outcomes are given, which makes no difference to them. -/
theorem endSending_eq (e : Engine σ τ) (s : Sending τ) (result : SendResult) :
    e.endSending s result =
      (({ e with
          counters := result.count s.batch.size e.counters
          sends := e.sends.filter (·.id != s.id) }.note (endOf s result)).resolveAll
        (s.batch.ids.zip (result.outcomes s.batch.size))).wakeShutdowns := by
  unfold endSending
  extract_lets logged counted noted resolved
  have entered : noted =
      { e with counters := result.count s.batch.size e.counters }.note (endOf s result) := by
    unfold noted counted logged
    rw [logSendAll_eq, record_eq, endOf, ← note_note]
    rfl
  unfold resolved
  rw [entered, resolveAll_eq, resolveAll_eq]
  rfl

theorem refuse_eq (e : Engine σ τ) (call : Nat) (error : PublishError) :
    e.refuse call error = e.note
      [.logged none (.messageRejected error), .returned call, .resolved call (.error error)] :=
  rfl

end Engine
end TopicPublisher
