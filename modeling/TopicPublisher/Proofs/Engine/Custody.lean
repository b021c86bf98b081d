import TopicPublisher.Proofs.Admission.Decision
import TopicPublisher.Proofs.Engine.History

/-!
Custody of entries. An entry is in exactly one place at a time: with its publish call, in the
queue, in the open batch, in a batch that is sent, or on its way to an outcome. The custody of an
engine is what it knows about these places, and every step of an engine is a few moves of
entries from place to place.
-/

namespace TopicPublisher

def Entry.reservation (x : Entry) : Reservation := ⟨x.id, x.size⟩

/-- Where entries are, and what was done with them so far. A publish call at work either asks
for a reservation or was granted one; an entry whose outcome is settled is ending until its
reservation is released and its handle has the outcome. -/
structure Custody where
  now : Nat
  admission : Admission
  batching : BatchingLife
  asking : List Entry := []
  granted : List Entry := []
  blocked : List Entry
  queue : List Entry
  current : List Entry
  sends : List (Nat × Batch)
  ending : List (Entry × Outcome) := []
  dispatched : Nat
  published : UInt64
  failed : UInt64
  returned : List Nat
  admitted : List Entry
  dispatches : List (Nat × Batch)
  calls : List (Nat × Nat × List Message)
  released : List Nat
  resolved : List (Nat × Outcome)

namespace Custody

def note (k : Custody) (hs : List Happening) : Custody :=
  { k with
    returned := k.returned ++ hs.filterMap Happening.returned?
    admitted := k.admitted ++ hs.filterMap Happening.admitted?
    dispatches := k.dispatches ++ hs.filterMap Happening.dispatched?
    calls := k.calls ++ hs.filterMap Happening.called?
    released := k.released ++ hs.filterMap Happening.released?
    resolved := k.resolved ++ hs.filterMap Happening.resolved? }

/-- An entry goes where a decision of admission sends it. -/
def decided (k : Custody) (x : Entry) : Decision → Admission → Custody
  | .granted, a => { k with admission := a, granted := x :: k.granted }
  | .waiting, a => { k with admission := a, blocked := k.blocked ++ [x] }
  | .refused _, a => { k with admission := a, asking := x :: k.asking }

/-- Counts the messages of a batch whose sending has ended. -/
def counted (k : Custody) (messages : Nat) : SendResult → Custody
  | .published _ => { k with published := k.published + UInt64.ofNat messages }
  | .failed _ => { k with failed := k.failed + UInt64.ofNat messages }
  | .crashed => k

/-- The reservation of an entry is released. -/
def relinquish (k : Custody) (x : Entry) : Custody :=
  { k with admission := (k.admission.release x.id).1 }

/-- The entries whose publish calls have not returned. -/
def unreturned (k : Custody) : List Entry := k.asking ++ k.granted ++ k.blocked

/-- The admitted entries that have no outcome yet. -/
def outstanding (k : Custody) : List Entry :=
  k.sends.flatMap (·.2.entries) ++ k.current ++ k.queue

/-- The entries that still hold their reservations although their calls have returned. -/
def underway (k : Custody) : List Entry := k.ending.map Prod.fst ++ k.outstanding

/-- The ways in which entries move. Only where `mayCrash` holds can a task that sends a batch be
killed. -/
inductive Move (c : Config) (mayCrash : Prop) (k : Custody) : Custody → Prop where
  | wait (now : Nat) : k.now ≤ now → Move c mayCrash k { k with now := now }
  | arrive (x : Entry) : x.id ∉ k.returned → x.id ∉ k.unreturned.map Entry.id →
      Move c mayCrash k { k with asking := x :: k.asking }
  | reserve (x : Entry) (rest : List Entry) : k.asking = x :: rest → x.size ≤ maxBatchBytes →
      Move c mayCrash k ({ k with asking := rest }.decided x (k.admission.reserve x.id x.size).1
        (k.admission.reserve x.id x.size).2.1)
  | resume (x : Entry) : x ∈ k.blocked →
      Move c mayCrash k ({ k with blocked := k.blocked.filter (·.id != x.id) }.decided x
        (k.admission.resume x.id).1 (k.admission.resume x.id).2.1)
  | refuse (x : Entry) (rest : List Entry) (error : PublishError) : k.asking = x :: rest →
      Move c mayCrash k ({ k with asking := rest }.note
        [.returned x.id, .resolved x.id (.error error)])
  | enqueue (x : Entry) (rest : List Entry) : k.granted = x :: rest → k.batching = .running →
      Move c mayCrash k ({ k with granted := rest, queue := k.queue ++ [x] }.note
        [.admitted x, .returned x.id])
  | turnAway (x : Entry) (rest : List Entry) (error : PublishError) : k.granted = x :: rest →
      Move c mayCrash k (({ k with granted := rest }.relinquish x).note
        [.released x.id, .returned x.id, .resolved x.id (.error error)])
  | cancel (call : Nat) :
      Move c mayCrash k { k with
        admission := (k.admission.cancel call).1
        blocked := k.blocked.filter (·.id != call) }
  | close : Move c mayCrash k { k with admission := k.admission.close.1 }
  | take (x : Entry) (rest : List Entry) : k.batching = .running → k.queue = x :: rest →
      Move c mayCrash k { k with current := k.current ++ [x], queue := rest }
  | dispatch (b : Batch) (current : List Entry) : k.batching = .running →
      k.current = b.entries ++ current →
      Move c mayCrash k ({ k with
        current := current
        sends := k.sends ++ [(k.dispatched, b)]
        dispatched := k.dispatched + 1 }.note [.dispatched k.dispatched b])
  | finish (n : Nat) (b : Batch) (result : SendResult) : (n, b) ∈ k.sends → k.ending = [] →
      (result.outcomes b.size).length = b.size → (result = .crashed → mayCrash) →
      Move c mayCrash k ({ k with
        sends := k.sends.filter (·.1 != n)
        ending := b.entries.zip (result.outcomes b.size) }.counted b.size result)
  | kill : k.batching = .running → k.ending = [] →
      Clock.representable (Clock.instant k.now + c.thresholds.delay.nanos) = false →
      Move c mayCrash k { k with
        batching := .killed
        current := []
        queue := []
        ending := (k.current ++ k.queue).map (·, .error .resultDropped) }
  | resolve (x : Entry) (outcome : Outcome) (rest : List (Entry × Outcome)) :
      k.ending = (x, outcome) :: rest →
      Move c mayCrash k (({ k with ending := rest }.relinquish x).note
        [.released x.id, .resolved x.id outcome])
  | retire : k.batching = .running → k.current = [] → k.queue = [] →
      Move c mayCrash k { k with batching := .ended }
  | call (n attempt : Nat) (b : Batch) : (n, b) ∈ k.sends →
      Move c mayCrash k (k.note [.called n attempt b.messages])

abbrev Moves (c : Config) (mayCrash : Prop) : Custody → Custody → Prop :=
  Relation.ReflTransGen (Move c mayCrash)

/-! What happens to handles and batches -/

theorem note_append (k : Custody) (xs ys : List Happening) :
    k.note (xs ++ ys) = (k.note xs).note ys := by
  simp [note]

theorem note_cons (k : Custody) (h : Happening) (hs : List Happening) :
    k.note (h :: hs) = (k.note [h]).note hs :=
  note_append k [h] hs

theorem note_returned (k : Custody) (call : Nat) :
    k.note [.returned call] = { k with returned := k.returned ++ [call] } := by
  simp [note]

theorem note_released (k : Custody) (call : Nat) :
    k.note [.released call] = { k with released := k.released ++ [call] } := by
  simp [note]

theorem note_resolved (k : Custody) (call : Nat) (outcome : Outcome) :
    k.note [.resolved call outcome] = { k with resolved := k.resolved ++ [(call, outcome)] } := by
  simp [note]

theorem note_dispatched (k : Custody) (n : Nat) (b : Batch) :
    k.note [.dispatched n b] = { k with dispatches := k.dispatches ++ [(n, b)] } := by
  simp [note]

theorem note_called (k : Custody) (n attempt : Nat) (messages : List Message) :
    k.note [.called n attempt messages] =
      { k with calls := k.calls ++ [(n, attempt, messages)] } := by
  simp [note]

theorem note_refused (k : Custody) (call : Nat) (outcome : Outcome) :
    k.note [.returned call, .resolved call outcome] =
      { k with
        returned := k.returned ++ [call]
        resolved := k.resolved ++ [(call, outcome)] } := by
  simp [note, List.filterMap_cons]

theorem note_enqueued (k : Custody) (x : Entry) :
    k.note [.admitted x, .returned x.id] =
      { k with admitted := k.admitted ++ [x], returned := k.returned ++ [x.id] } := by
  simp [note, List.filterMap_cons]

theorem note_turnedAway (k : Custody) (call : Nat) (outcome : Outcome) :
    k.note [.released call, .returned call, .resolved call outcome] =
      { k with
        returned := k.returned ++ [call]
        released := k.released ++ [call]
        resolved := k.resolved ++ [(call, outcome)] } := by
  simp [note, List.filterMap_cons]

theorem note_ended (k : Custody) (call : Nat) (outcome : Outcome) :
    k.note [.released call, .resolved call outcome] =
      { k with
        released := k.released ++ [call]
        resolved := k.resolved ++ [(call, outcome)] } := by
  simp [note, List.filterMap_cons]

theorem note_logged (k : Custody) (batch : Option Nat) (event : LogEvent) :
    k.note [.logged batch event] = k := by
  simp [note, List.filterMap_cons]

theorem note_logs (k : Custody) (batch : Option Nat) (events : List LogEvent) :
    k.note (events.map (.logged batch)) = k := by
  simp [note, List.filterMap_map, Function.comp_def]

theorem note_answered (k : Custody) (n attempt : Nat) (reply : Option Reply) :
    k.note [.answered n attempt reply] = k := by
  simp [note, List.filterMap_cons]

theorem note_sendEnded (k : Custody) (n : Nat) (result : SendResult) :
    k.note [.sendEnded n result] = k := by
  simp [note, List.filterMap_cons]

theorem note_returning (k : Custody) (event : LogEvent) (call : Nat) :
    k.note [.logged none event, .shutdownReturned call] = k := by
  simp [note, List.filterMap_cons]

/-! What is always true of custody -/

/-- Every entry is in one place, and those that hold reservations and those that wait are just
the ones that admission knows. The call of an entry that holds a reservation, apart from one just
granted, has returned, and its handle has no outcome; no handle ever gets a second one. -/
structure Kept (k : Custody) : Prop where
  live : k.admission.live.toList.Perm ((k.granted ++ k.underway).map Entry.reservation)
  asked : k.admission.asked.Perm (k.blocked.map Entry.reservation)
  apart : (k.unreturned.map Entry.id).Nodup
  distinct : (k.underway.map Entry.id).Nodup
  fits : ∀ x ∈ k.granted ++ k.blocked ++ k.queue, x.size ≤ maxBatchBytes
  unreturned : ∀ x ∈ k.unreturned, x.id ∉ k.returned
  returned : ∀ x ∈ k.underway, x.id ∈ k.returned
  unresolved : ∀ x ∈ k.underway, x.id ∉ k.resolved.map Prod.fst ∧ x.id ∉ k.released
  past : ∀ call, call ∈ k.resolved.map Prod.fst ∨ call ∈ k.released → call ∈ k.returned
  resolvedOnce : (k.resolved.map Prod.fst).Nodup
  releasedOnce : k.released.Nodup
  numbered : (k.sends.map Prod.fst).Nodup
  numbers : ∀ s ∈ k.sends, s.1 < k.dispatched

/-- The entries are kept, and the books of admission are balanced. -/
structure Sound (c : Config) (k : Custody) : Prop where
  kept : k.Kept
  balanced : k.admission.Balanced c.ceilings [] 0

end Custody
end TopicPublisher
