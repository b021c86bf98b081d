import TopicPublisher.Proofs.Batch.Cuts
import TopicPublisher.Proofs.Batch.Deadline

/-!
The deadline against the contents of the open batch. Along every run of a batcher its deadline is
the instant at which the first entry of the open batch came, and the delay; where the open batch
is empty there is none. A flush closes the open batch just when that deadline is past, a drain
closes it whenever it has entries, and after either there is nothing to close before the next
entry.
-/

namespace TopicPublisher

/-- The instants at which a command has a message come. -/
def BatcherCommand.arrival (now : Nat) : BatcherCommand → List Nat
  | .add _ => [now]
  | _ => []

def BatcherCommand.elapse (now : Nat) : BatcherCommand → Nat
  | .advance length => now + length.nanos
  | _ => now

/-- The instants at which the messages of some commands come, in the order of their numbers. -/
def arrivals : (now : Nat) → List BatcherCommand → List Nat
  | _, [] => []
  | now, command :: rest => command.arrival now ++ arrivals (command.elapse now) rest

namespace Batcher

/-- The deadline is that of the first entry of the open batch, for messages that came at the
instants `past`. -/
structure Begun (t : Thresholds) (past : List Nat) (b : Batcher) : Prop where
  armed : b.Armed
  first : ∀ e, b.current.entries.head? = some e →
    ∃ instant, past[e.id]? = some instant ∧ b.deadline = some (instant + t.delay.nanos)

variable {t : Thresholds} {now : Nat} {e : Entry} {b next : Batcher} {closed : List Batch}
  {past : List Nat}

theorem begun_empty (t : Thresholds) (past : List Nat) : Begun t past {} := ⟨armed_empty, nofun⟩

theorem Begun.later (h : Begun t past b) (more : List Nat) : Begun t (past ++ more) b := by
  refine ⟨h.armed, fun e first => ?_⟩
  obtain ⟨instant, came, deadline⟩ := h.first e first
  have known : e.id < past.length := (List.getElem?_eq_some_iff.mp came).1
  exact ⟨instant, (List.getElem?_append_left known).trans came, deadline⟩

theorem Begun.add (h : Begun t past b) (number : e.id = past.length)
    (added : b.add t now e = .ok (closed, next)) : Begun t (past ++ [now]) next := by
  refine ⟨add_armed h.armed added, fun y first => ?_⟩
  rcases add_open added with rfl | ⟨alone, deadline⟩ | ⟨joined, deadline, some⟩
  · cases first
  · rw [alone] at first
    obtain rfl := Option.some.inj first
    refine ⟨now, ?_, deadline⟩
    rw [number, List.getElem?_concat_length]
  · rw [joined, List.head?_append_of_ne_nil _ some] at first
    rw [deadline]
    exact (h.later [now]).first y first

end Batcher

namespace BatcherSession

variable {t : Thresholds} {s next last : BatcherSession} {command : BatcherCommand}
  {commands : List BatcherCommand} {effect : Effect} {effects : List Effect} {past : List Nat}

/-- All that a command can do to the batcher, with the batches that it closes. -/
inductive Turned (t : Thresholds) (s : BatcherSession) :
    BatcherCommand → List Batch → Batcher → Prop
  | idle (command : BatcherCommand) : Turned t s command [] s.batcher
  | taken {message : Message} {closed : List Batch} {b : Batcher}
      (added : s.batcher.add t s.now ⟨s.messages, message⟩ = .ok (closed, b)) :
      Turned t s (.add message) closed b
  | closed {command : BatcherCommand} (flushes : command.flushes = true)
      (some : s.batcher.current.entries ≠ []) : Turned t s command [s.batcher.current] {}

theorem Turned.flush (flushes : command.flushes = true) (x : Nat) :
    Turned t s command (s.batcher.flushExpired x).1.toList (s.batcher.flushExpired x).2 := by
  by_cases due : s.batcher.Due x
  · rw [Batcher.flushExpired_due due]
    exact .closed flushes due.1
  · rw [Batcher.flushExpired_early due]
    exact .idle command

theorem Turned.drain : Turned t s .drain s.batcher.drain.1.toList s.batcher.drain.2 := by
  by_cases empty : s.batcher.current.entries = []
  · rw [Batcher.drain_none empty]
    exact .idle .drain
  · rw [Batcher.drain_some empty]
    exact .closed rfl empty

/-- A command turns the batcher, moves the clock and numbers its message. -/
theorem perform_turned (done : s.perform t command = some (effect, next)) :
    Turned t s command effect.1 next.batcher ∧ next.now = command.elapse s.now ∧
      next.messages = s.messages + (command.arrival s.now).length := by
  have resolved (batch : Nat) (outcome : Nat → Outcome)
      (same : (s.resolve batch outcome).2 = next) :
      Turned t s command [] next.batcher ∧ next.now = s.now ∧ next.messages = s.messages := by
    obtain ⟨batcher, now, messages⟩ := resolve_same s batch outcome
    subst same
    rw [batcher]
    exact ⟨.idle command, now, messages⟩
  cases command with
  | add message =>
    cases added : s.batcher.add t s.now ⟨s.messages, message⟩ with
    | ok result =>
      obtain ⟨after, performed, batcher, now, messages⟩ := perform_add added
      cases performed.symm.trans done
      rw [batcher]
      exact ⟨.taken added, now, messages⟩
    | error failure =>
      cases failure with
      | tooLarge size =>
        rw [perform_tooLarge s t (Batcher.add_tooLarge added)] at done
        cases done
        exact ⟨.idle _, rfl, rfl⟩
      | deadlineOverflow =>
        simp only [perform, added] at done
        cases done
  | advance length =>
    rw [perform] at done
    split at done
    · cases done
      exact ⟨.idle _, rfl, rfl⟩
    · cases done
  | flush =>
    cases done
    exact ⟨.flush rfl s.now, rfl, rfl⟩
  | flushAt instant =>
    rw [perform] at done
    split at done
    · cases done
      exact ⟨.flush rfl instant.nanos, rfl, rfl⟩
    · cases done
  | drain =>
    cases done
    exact ⟨.drain, rfl, rfl⟩
  | succeed batch =>
    obtain ⟨rfl, same⟩ := Prod.mk.inj (Option.some.inj done)
    exact resolved batch _ same
  | fail batch error =>
    obtain ⟨rfl, same⟩ := Prod.mk.inj (Option.some.inj done)
    exact resolved batch _ same
  | abandon batch =>
    obtain ⟨rfl, same⟩ := Prod.mk.inj (Option.some.inj done)
    exact resolved batch _ same

theorem Turned.begun {closed : List Batch} {b : Batcher} (turned : Turned t s command closed b)
    (h : s.batcher.Begun t past) (numbered : past.length = s.messages) :
    b.Begun t (past ++ command.arrival s.now) := by
  cases turned with
  | idle => exact h.later _
  | taken added => exact h.add numbered.symm added
  | closed => exact Batcher.begun_empty t _

/-- Along a run, the deadline stays that of the first entry of the open batch. -/
theorem performAll_begun (h : s.batcher.Begun t past) (numbered : past.length = s.messages)
    (done : performAll t commands s = some (effects, last)) :
    last.batcher.Begun t (past ++ arrivals s.now commands) := by
  induction commands generalizing s past effects with
  | nil =>
    cases done
    rw [arrivals, List.append_nil]
    exact h
  | cons command rest ih =>
    rw [performAll] at done
    split at done
    · cases done
    next effect next performed =>
    obtain ⟨⟨later, stop⟩, went, same⟩ := Option.map_eq_some_iff.mp done
    cases same
    obtain ⟨turned, now, messages⟩ := perform_turned performed
    have after := ih (turned.begun h numbered)
      (by rw [List.length_append, numbered, messages]) went
    rw [now, List.append_assoc] at after
    exact after

theorem Turned.emptied {closed : List Batch} {b : Batcher} (turned : Turned t s command closed b)
    (flushes : command.flushes = true) (returned : closed ≠ []) : b = {} := by
  cases turned with
  | idle => exact absurd rfl returned
  | taken added => cases flushes
  | closed => rfl

theorem accepted_of_no_arrival (number : Nat)
    (none : ∀ command ∈ commands, ∀ message, command ≠ .add message) :
    accepted number commands = [] := by
  induction commands with
  | nil => rfl
  | cons command rest ih =>
    have later := ih fun c hc => none c (List.mem_cons_of_mem command hc)
    cases command with
    | add message => exact absurd rfl (none (.add message) (List.mem_cons_self ..) message)
    | _ => exact later

/-- Until the next message comes, an empty batcher closes nothing and stays empty. -/
theorem performAll_empty (valid : t.validate = .ok ()) (empty : s.batcher = {})
    (none : ∀ command ∈ commands, ∀ message, command ≠ .add message)
    (timely : Timely t s.now commands) :
    ∃ effects last, performAll t commands s = some (effects, last) ∧ closed effects = [] ∧
      last.batcher.current.entries = [] := by
  obtain ⟨effects, last, done, goes⟩ :=
    performAll_goes valid commands (empty ▸ Batcher.below_empty t) timely
  have contents := goes.contents
  rw [accepted_of_no_arrival s.messages none, empty, List.append_nil] at contents
  obtain ⟨given, left⟩ := List.append_eq_nil_iff.mp contents
  refine ⟨effects, last, done, ?_, left⟩
  cases batches : closed effects with
  | nil => rfl
  | cons b rest =>
    rw [batches] at goes given
    exact absurd (List.append_eq_nil_iff.mp given).1
      (goes.within b (List.mem_cons_self ..)).nonempty

/-- Under valid thresholds, whatever is done with a batcher at instants that can be represented, it
goes on, and after it: there is a deadline just if the open batch has entries, and it is the
instant at which the first of these came, and the delay, however many came later and whatever was
closed before. A flush at any instant, past or future, returns the whole open batch just if it has
entries and its deadline is no later, and else changes nothing; so does a drain, whatever the
deadline. Once a flush or a drain has returned a batch, none returns another, at any instant,
before the next message comes. -/
theorem deadline_of_first_entry (valid : t.validate = .ok ()) (commands : List BatcherCommand)
    (timely : Timely t 0 commands) :
    ∃ effects s, performAll t commands {} = some (effects, s) ∧
      (s.batcher.deadline.isSome = true ↔ s.batcher.current.entries ≠ []) ∧
      (∀ e, s.batcher.current.entries.head? = some e →
        ∃ instant, (arrivals 0 commands)[e.id]? = some instant ∧
          s.batcher.deadline = some (instant + t.delay.nanos)) ∧
      (∀ x, ((s.batcher.flushExpired x).1 = some s.batcher.current ↔ s.batcher.Due x) ∧
        (s.batcher.Due x → (s.batcher.flushExpired x).2 = {}) ∧
        (¬ s.batcher.Due x → s.batcher.flushExpired x = (none, s.batcher))) ∧
      (s.batcher.drain.1 = some s.batcher.current ↔ s.batcher.current.entries ≠ []) ∧
      (s.batcher.current.entries ≠ [] → s.batcher.drain.2 = {}) ∧
      (s.batcher.current.entries = [] → s.batcher.drain = (none, s.batcher)) ∧
      ∀ command effect next, command.flushes = true →
        s.perform t command = some (effect, next) → effect.1 ≠ [] →
        ∀ later : List BatcherCommand, (∀ c ∈ later, ∀ message, c ≠ .add message) →
          Timely t next.now later →
          ∃ effects last, performAll t later next = some (effects, last) ∧ closed effects = [] ∧
            (∀ x, last.batcher.flushExpired x = (none, last.batcher)) ∧
            last.batcher.drain = (none, last.batcher) := by
  obtain ⟨effects, s, done, -⟩ :=
    performAll_goes valid commands (s := {}) (Batcher.below_empty t) timely
  have begun : s.batcher.Begun t (arrivals 0 commands) :=
    performAll_begun (Batcher.begun_empty t []) rfl done
  refine ⟨effects, s, done, ?_, begun.first, fun x => ⟨Batcher.flushExpired_iff, fun due => ?_,
    Batcher.flushExpired_early⟩, Batcher.drain_iff, fun some => ?_, Batcher.drain_none, ?_⟩
  · rw [Option.isSome_iff_ne_none]
    exact not_congr begun.armed
  · rw [Batcher.flushExpired_due due]
  · rw [Batcher.drain_some some]
  · intro command effect next flushes performed returned later none timely
    have empty := (perform_turned performed).1.emptied flushes returned
    obtain ⟨effects, last, all, nothing, left⟩ := performAll_empty valid empty none timely
    exact ⟨effects, last, all, nothing,
      fun x => Batcher.flushExpired_early (Batcher.not_due left x), Batcher.drain_none left⟩

/-- Two messages that have no room beside each other, five nanoseconds apart: the second one closes
the batch of the first and arms the deadline anew, a flush at the old deadline finds nothing due,
and one at the new deadline returns the batch. -/
theorem deadline_of_first_entry_rearmed :
    ∃ effects s, performAll ⟨2, 5, ⟨7⟩⟩
        [.add ⟨⟨#[1, 2, 3]⟩, []⟩, .advance ⟨5⟩, .add ⟨⟨#[4, 5, 6]⟩, []⟩, .flushAt ⟨7⟩] {} =
          some (effects, s) ∧
      (closed effects).map Batch.ids = [[0]] ∧ s.batcher.current.ids = [1] ∧
      s.batcher.deadline = some (5 + 7) ∧ s.batcher.flushExpired 11 = (none, s.batcher) ∧
      (s.batcher.flushExpired 12).1 = some s.batcher.current := by
  obtain ⟨effects, s, done, -, -, flush, -⟩ :=
    deadline_of_first_entry (t := ⟨2, 5, ⟨7⟩⟩) (by rfl)
      [.add ⟨⟨#[1, 2, 3]⟩, []⟩, .advance ⟨5⟩, .add ⟨⟨#[4, 5, 6]⟩, []⟩, .flushAt ⟨7⟩]
      ⟨by decide, by decide, by decide, by decide, trivial⟩
  refine ⟨effects, s, done, ?_⟩
  obtain ⟨rfl, rfl⟩ := Prod.mk.inj (Option.some.inj done)
  exact ⟨rfl, rfl, rfl, (flush 11).2.2 (by decide), (flush 12).1.mpr (by decide)⟩

end BatcherSession
end TopicPublisher
