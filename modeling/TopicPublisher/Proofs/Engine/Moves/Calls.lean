import TopicPublisher.Proofs.Engine.Changes.Steps
import TopicPublisher.Proofs.Engine.Sound

/-!
The custody of an engine, and the moves of entries that publish calls and shutdown calls make.
-/

namespace TopicPublisher
namespace Engine

variable {σ τ : Type}

/-- The custody of an engine between two steps: nobody is at work. -/
def custody (e : Engine σ τ) : Custody where
  now := e.now
  admission := e.admission
  batching := e.batching
  blocked := e.blocked
  queue := e.queue.toList
  current := e.batcher.current.entries
  sends := e.sends.map fun s => (s.id, s.batch)
  dispatched := e.dispatched
  published := e.counters.messagesPublished
  failed := e.counters.messagesFailed
  returned := e.returned
  admitted := e.admitted
  dispatches := e.dispatches
  calls := e.calls
  released := e.released
  resolved := e.resolved

/-! What custody does not see -/

@[simp] theorem custody_note (e : Engine σ τ) (hs : List Happening) :
    (e.note hs).custody = e.custody.note hs := by
  simp only [custody, Custody.note, returned_note, admitted_note, dispatches_note, calls_note,
    released_note, resolved_note]
  rfl

@[simp] theorem custody_wakeAll (e : Engine σ τ) (ts : List Task) :
    (e.wakeAll ts).custody = e.custody := by
  rw [wakeAll_eq]
  rfl

@[simp] theorem custody_wake (e : Engine σ τ) (t : Task) : (e.wake t).custody = e.custody :=
  e.custody_wakeAll [t]

@[simp] theorem custody_wakeCalls (e : Engine σ τ) (calls : List Nat) :
    (e.wakeCalls calls).custody = e.custody :=
  e.custody_wakeAll _

@[simp] theorem custody_wakeShutdowns (e : Engine σ τ) : e.wakeShutdowns.custody = e.custody := by
  rw [wakeShutdowns_eq]
  rfl

@[simp] theorem custody_refuse (e : Engine σ τ) (call : Nat) (error : PublishError) :
    (e.refuse call error).custody =
      e.custody.note [.returned call, .resolved call (.error error)] := by
  rw [refuse_eq, custody_note]
  rfl

@[simp] theorem custody_releaseCall (e : Engine σ τ) (x : Entry) :
    (e.releaseCall x.id).custody = (e.custody.relinquish x).note [.released x.id] := by
  rw [releaseCall_eq, custody_note]
  rfl

theorem custody_resolve (e : Engine σ τ) (x : Entry) (outcome : Outcome) :
    (e.resolve x.id outcome).custody =
      (e.custody.relinquish x).note [.released x.id, .resolved x.id outcome] := by
  rw [resolve, record_eq, custody_note, custody_releaseCall, ← Custody.note_append]
  rfl

/-! Publish calls -/

open Custody (Move Moves)

variable {c : Config} {mayCrash : Prop} {e f : Engine σ τ} {x : Entry}

/-- An entry that admission has decided on stays, comes back, or is queued; nobody takes what was
granted too late. -/
theorem Decided.moves {d : Decision} (a : Admission) {told : List Nat} (decided :
    Decided ({ e with admission := a }.wakeCalls told) x d f) (c : Config) (mayCrash : Prop) :
    Moves c mayCrash (e.custody.decided x d a) f.custody := by
  have woken : ({ e with admission := a }.wakeCalls told).custody =
      { e.custody with admission := a } :=
    custody_wakeCalls _ _
  have life : ({ e with admission := a }.wakeCalls told).batching = e.batching := by
    rw [wakeCalls_eq]
  generalize { e with admission := a }.wakeCalls told = g at decided woken life
  have turnedAway : Move c mayCrash { e.custody with admission := a, granted := [x] } _ :=
    .turnAway x [] .engineShutdown rfl
  cases decided with
  | waits =>
    have waiting : custody { g with blocked := g.blocked ++ [x] } =
        { g.custody with blocked := g.custody.blocked ++ [x] } :=
      rfl
    rw [waiting, woken]
    exact .refl
  | refused error =>
    have refused : Move c mayCrash { e.custody with admission := a, asking := [x] } _ :=
      .refuse x [] error rfl
    have counted : custody { g with counters :=
        if error.isRejection then g.counters.countRejection else g.counters } = g.custody := by
      cases error.isRejection <;> rfl
    rw [custody_refuse, counted, woken]
    exact .single refused
  | accepted _ running =>
    have enqueued : Move c mayCrash { e.custody with admission := a, granted := [x] } _ :=
      .enqueue x [] rfl (life.symm.trans running)
    have queued : custody { g with queue := g.queue.push x } =
        { g.custody with queue := g.custody.queue ++ [x] } := by
      rw [custody, Fifo.toList_push]
      rfl
    rw [custody_note, custody_wake, queued, woken]
    exact .single enqueued
  | late _ =>
    rw [custody_refuse, custody_releaseCall, ← Custody.note_append, woken]
    exact .single turnedAway
  | orphaned _ _ =>
    rw [custody_note, custody_resolve, ← Custody.note_append, woken]
    exact .single turnedAway

theorem publish_moves (c : Config) (mayCrash : Prop) (new : x.id ∉ e.returned)
    (unused : x.id ∉ e.blocked.map Entry.id) :
    Moves c mayCrash e.custody (e.publish x).custody := by
  have arrived : Move c mayCrash e.custody { e.custody with asking := [x] } := .arrive x new unused
  have refused (error : PublishError) :
      Moves c mayCrash e.custody (e.refuse x.id error).custody := by
    have step : Move c mayCrash { e.custody with asking := [x] } _ :=
      .refuse x [] error rfl
    rw [custody_refuse]
    exact .tail (.single arrived) step
  have arrives := publish_arrives e x
  generalize e.publish x = f at arrives ⊢
  cases arrives with
  | tooLarge _ | late _ _ => exact refused _
  | asks fits _ decided =>
    have step : Move c mayCrash { e.custody with asking := [x] } _ := .reserve x [] rfl fits
    exact .trans (.tail (.single arrived) step) (decided.moves _ c mayCrash)

theorem publishingTurn_moves (c : Config) (mayCrash : Prop) (e : Engine σ τ) (call : Nat) :
    Moves c mayCrash e.custody (e.publishingTurn call).custody := by
  have looks := publishingTurn_looks e call
  generalize e.publishingTurn call = f at looks ⊢
  cases looks with
  | gone _ => exact .refl
  | asks x found decided =>
    have waiting : x ∈ e.blocked := List.mem_of_find?_eq_some found
    obtain rfl : x.id = call := by simpa using List.find?_some found
    have step : Move c mayCrash e.custody _ := .resume x waiting
    exact .head step
      (decided.moves (e := { e with blocked := e.blocked.filter (·.id != x.id) }) _ c mayCrash)

theorem cancel_moves (c : Config) (mayCrash : Prop) (e : Engine σ τ) (call : Nat) :
    Moves c mayCrash e.custody (e.cancel call).custody := by
  rw [cancel_eq]
  exact .single (.cancel call)

theorem dropClone_moves (c : Config) (mayCrash : Prop) (e : Engine σ τ) :
    Moves c mayCrash e.custody e.dropClone.custody := by
  rw [dropClone_eq]
  exact .refl

theorem shutdown_moves (c : Config) (mayCrash : Prop) (e : Engine σ τ) (call : Nat) :
    Moves c mayCrash e.custody (e.shutdown c call).custody := by
  have announced : (e.note (e.announced c)).custody = e.custody := by
    rw [custody_note, announced]
    split
    · exact Custody.note_logs _ none []
    · exact Custody.note_logged _ none _
  have closed : Move c mayCrash (e.note (e.announced c)).custody _ := .close
  rw [shutdown_eq, ← announced]
  exact .single closed

theorem shutdownTurn_moves (c : Config) (mayCrash : Prop) (e : Engine σ τ) (call : Nat) :
    Moves c mayCrash e.custody (e.shutdownTurn c call).custody := by
  rcases shutdownTurn_eq e c call with ⟨-, same⟩ | ⟨-, -, same⟩
  · rw [same]
  · have quiet : (e.shutdownTurn c call).custody = e.custody := by
      rw [same, custody_note]
      exact Custody.note_returning _ _ _
    exact quiet ▸ .refl

end Engine
end TopicPublisher
