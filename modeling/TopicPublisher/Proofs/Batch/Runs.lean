import TopicPublisher.Batch.Session
import TopicPublisher.Proofs.Batch.Bounds

/-!
Runs of a batcher by itself. Entries are added, batches are flushed at any instant and drained,
and closed batches are resolved, in every order. Main statement: every closed batch is within its
bounds, and the closed batches followed by the open one hold just the entries that were taken, in
their order.
-/

namespace TopicPublisher
namespace BatcherSession

/-- The effects of some commands, one after the other, and the session after them; `none` if the
batcher cannot go on. -/
def performAll (t : Thresholds) :
    List BatcherCommand → BatcherSession → Option (List Effect × BatcherSession)
  | [], s => some ([], s)
  | command :: rest, s =>
    match s.perform t command with
    | none => none
    | some (effect, next) =>
      (performAll t rest next).map fun (effects, last) => (effect :: effects, last)

def closed (effects : List Effect) : List Batch := effects.flatMap Prod.fst

/-- The entries that a batcher takes when it is given some commands: every message has a number,
and those that are too large for the service are left out. -/
def accepted : (number : Nat) → List BatcherCommand → List Entry
  | _, [] => []
  | number, .add message :: rest =>
    if message.size ≤ maxBatchBytes then ⟨number, message⟩ :: accepted (number + 1) rest
    else accepted (number + 1) rest
  | number, _ :: rest => accepted number rest

/-- Every instant that some commands come to, from `now` on, can be represented: those of the
clock, those that are named, and the deadlines that begin when a message is added. -/
def Timely (t : Thresholds) : (now : Nat) → List BatcherCommand → Prop
  | _, [] => True
  | now, .add _ :: rest => Clock.representable (now + t.delay.nanos) = true ∧ Timely t now rest
  | now, .advance length :: rest =>
    Clock.representable (now + length.nanos) = true ∧ Timely t (now + length.nanos) rest
  | now, .flushAt instant :: rest => Clock.representable instant.nanos = true ∧ Timely t now rest
  | now, _ :: rest => Timely t now rest

/-- What becomes of a session that is given `entries`: its batches are within their bounds, and
hold what the session held before and those entries. -/
structure Goes (t : Thresholds) (s : BatcherSession) (entries : List Entry) (closed : List Batch)
    (next : BatcherSession) : Prop where
  within : ∀ b ∈ closed, b.Within t
  below : next.batcher.Below t
  contents : closed.flatMap Batch.entries ++ next.batcher.current.entries =
    s.batcher.current.entries ++ entries

variable {t : Thresholds} {s next last : BatcherSession} {entries more : List Entry}
  {batches others : List Batch} {message : Message}

theorem Goes.trans (h : Goes t s entries batches next) (h' : Goes t next more others last) :
    Goes t s (entries ++ more) (batches ++ others) last where
  within := by
    intro b hb
    rcases List.mem_append.mp hb with hb | hb
    · exact h.within b hb
    · exact h'.within b hb
  below := h'.below
  contents := by
    rw [List.flatMap_append, List.append_assoc, h'.contents, ← List.append_assoc, h.contents,
      List.append_assoc]

theorem Goes.idle (below : s.batcher.Below t) (same : next.batcher = s.batcher) :
    Goes t s [] [] next :=
  ⟨nofun, same ▸ below, by rw [same, List.append_nil]; rfl⟩

/-! What a command does -/

/-- A message that is too large for the service fails its own handle and leaves everything else
as it was. -/
theorem perform_tooLarge (s : BatcherSession) (t : Thresholds)
    (large : maxBatchBytes < message.size) :
    s.perform t (.add message) =
      some (([], some (.messageTooLarge message.size maxBatchBytes),
          [(s.messages, .error (.messageTooLarge message.size maxBatchBytes))]),
        { s with messages := s.messages + 1 }) := by
  have refused : s.batcher.add t s.now ⟨s.messages, message⟩ = .error (.tooLarge message.size) := by
    rw [Batcher.add_eq, if_pos (show maxBatchBytes < Entry.size ⟨s.messages, message⟩ from large)]
    rfl
  simp only [perform, refused, settle, List.foldl_cons, List.foldl_nil, Ledger.release_acquire]

theorem perform_add {closed : List Batch} {b : Batcher}
    (added : s.batcher.add t s.now ⟨s.messages, message⟩ = .ok (closed, b)) :
    ∃ next, s.perform t (.add message) = some ((closed, none, []), next) ∧
      next.batcher = b ∧ next.now = s.now ∧ next.messages = s.messages + 1 := by
  simp only [perform, added, keep]
  exact ⟨_, rfl, rfl, rfl, rfl⟩

theorem resolve_same (s : BatcherSession) (batch : Nat) (outcome : Nat → Outcome) :
    (s.resolve batch outcome).2.batcher = s.batcher ∧
      (s.resolve batch outcome).2.now = s.now ∧
        (s.resolve batch outcome).2.messages = s.messages := by
  unfold resolve
  split <;> exact ⟨rfl, rfl, rfl⟩

theorem flush_goes (below : s.batcher.Below t) (valid : t.validate = .ok ()) (now : Nat) :
    Goes t s [] (s.batcher.flushExpired now).1.toList
      (s.closing (s.batcher.flushExpired now)).2 := by
  obtain ⟨within, after⟩ := Batcher.flushExpired_within below valid now
  refine ⟨within, after, ?_⟩
  rw [List.append_nil]
  exact Batcher.flushExpired_contents now s.batcher

theorem drain_goes (below : s.batcher.Below t) (valid : t.validate = .ok ()) :
    Goes t s [] s.batcher.drain.1.toList (s.closing s.batcher.drain).2 := by
  obtain ⟨within, after⟩ := Batcher.drain_within below valid
  obtain ⟨left, empty⟩ := Batcher.drain_contents s.batcher
  refine ⟨within, after, ?_⟩
  rw [List.append_nil, left]
  exact (congrArg _ empty).trans (List.append_nil _)

/-- Every command is carried out, and is a command on the batcher or leaves it alone. -/
theorem perform_goes (below : s.batcher.Below t) (valid : t.validate = .ok ())
    {command : BatcherCommand} {rest : List BatcherCommand}
    (timely : Timely t s.now (command :: rest)) :
    ∃ effect next entries, s.perform t command = some (effect, next) ∧
      Goes t s entries effect.1 next ∧ Timely t next.now rest ∧
      accepted s.messages (command :: rest) = entries ++ accepted next.messages rest := by
  have resolved (batch : Nat) (outcome : Nat → Outcome) (timely : Timely t s.now rest) :
      Goes t s [] [] (s.resolve batch outcome).2 ∧
        Timely t (s.resolve batch outcome).2.now rest ∧
        accepted s.messages rest =
          [] ++ accepted (s.resolve batch outcome).2.messages rest := by
    obtain ⟨batcher, now, messages⟩ := resolve_same s batch outcome
    rw [now, messages]
    exact ⟨.idle below batcher, timely, rfl⟩
  cases command with
  | add message =>
    obtain ⟨future, timely⟩ := timely
    by_cases large : maxBatchBytes < message.size
    · refine ⟨_, _, [], perform_tooLarge s t large, .idle below rfl, timely, ?_⟩
      rw [accepted, if_neg (Nat.not_le_of_lt large)]
      rfl
    · have sendable := Nat.le_of_not_lt large
      obtain ⟨closed, b, added⟩ :=
        Batcher.exists_add (x := ⟨s.messages, message⟩) sendable future s.batcher
      obtain ⟨next, done, rfl, now, messages⟩ := perform_add added
      obtain ⟨within, after⟩ := Batcher.add_within below valid added
      refine ⟨_, next, [⟨s.messages, message⟩], done,
        ⟨within, after, Batcher.add_contents added⟩, now ▸ timely, ?_⟩
      rw [accepted, if_pos sendable, messages]
      rfl
  | advance length =>
    obtain ⟨future, timely⟩ := timely
    refine ⟨([], none, []), { s with now := s.now + length.nanos }, [], ?_, .idle below rfl,
      timely, rfl⟩
    rw [perform, if_pos future]
  | flush => exact ⟨_, _, [], rfl, flush_goes below valid s.now, timely, rfl⟩
  | flushAt instant =>
    obtain ⟨future, timely⟩ := timely
    have done : s.perform t (.flushAt instant) =
        some (((s.closing (s.batcher.flushExpired instant.nanos)).1, none, []),
          (s.closing (s.batcher.flushExpired instant.nanos)).2) := by
      rw [perform, if_pos future]
    exact ⟨_, _, [], done, flush_goes below valid instant.nanos, timely, rfl⟩
  | drain => exact ⟨_, _, [], rfl, drain_goes below valid, timely, rfl⟩
  | succeed batch => exact ⟨_, _, [], rfl, resolved batch _ timely⟩
  | fail batch error => exact ⟨_, _, [], rfl, resolved batch _ timely⟩
  | abandon batch => exact ⟨_, _, [], rfl, resolved batch _ timely⟩

theorem performAll_goes (valid : t.validate = .ok ()) (commands : List BatcherCommand)
    (below : s.batcher.Below t) (timely : Timely t s.now commands) :
    ∃ effects last, performAll t commands s = some (effects, last) ∧
      Goes t s (accepted s.messages commands) (closed effects) last := by
  induction commands generalizing s with
  | nil => exact ⟨[], s, rfl, .idle below rfl⟩
  | cons command rest ih =>
    obtain ⟨effect, next, entries, done, goes, later, taken⟩ := perform_goes below valid timely
    obtain ⟨effects, last, all, went⟩ := ih goes.below later
    refine ⟨effect :: effects, last, ?_, ?_⟩
    · rw [performAll, done]
      dsimp only
      rw [all]
      rfl
    · rw [taken]
      exact goes.trans went

/-- A session reports the batches that its commands close. -/
theorem reports_closed (t : Thresholds) (commands : List BatcherCommand) (s : BatcherSession) :
    (reports t commands s).map (List.map BatcherReport.closed) =
      (performAll t commands s).map fun run => run.1.map Prod.fst := by
  induction commands generalizing s with
  | nil => rfl
  | cons command rest ih =>
    rw [reports, performAll]
    cases s.perform t command with
    | none => rfl
    | some done =>
      have later := congrArg (Option.map (done.1.1 :: ·)) (ih done.2)
      simp only [Option.map_map, Function.comp_def, List.map_cons] at later ⊢
      exact later

theorem hasRoom_of_valid (valid : t.validate = .ok ()) : hasRoom t = true := by
  have few := Thresholds.count_le valid
  rw [hasRoom, decide_eq_true_eq]
  unfold maxBatchMessages at few
  exact Nat.lt_of_le_of_lt (Nat.mul_le_mul_left 56 few) (by decide)

/-- Under valid thresholds, whatever is done with a batcher at instants that can be represented: it
goes on, and every batch that it closes has entries, no more of them and no more bytes than the
thresholds and the service allow, or a single entry. The open batch stays below both thresholds.
The closed batches in their order and then the open batch hold just the messages that the service
would take, each under its number, in the order in which they came. At any time, a message that is
too large fails its own handle, its reservation is given back, and nothing else changes. -/
theorem closed_within_bounds (valid : t.validate = .ok ()) (commands : List BatcherCommand)
    (timely : Timely t 0 commands) :
    ∃ effects s, performAll t commands {} = some (effects, s) ∧
      (run t commands).map (List.map BatcherReport.closed) = some (effects.map Prod.fst) ∧
      (∀ b ∈ closed effects, b.entries ≠ [] ∧ b.size ≤ t.count ∧ b.size ≤ maxBatchMessages ∧
        b.bytes = total Entry.size b.entries ∧ b.bytes ≤ maxBatchBytes ∧
        (b.bytes ≤ t.bytes ∨ b.size = 1)) ∧
      (s.batcher.current.entries = [] ∨
        s.batcher.current.size < t.count ∧ s.batcher.current.bytes < t.bytes) ∧
      (closed effects).flatMap Batch.entries ++ s.batcher.current.entries =
        accepted 0 commands ∧
      ∀ message : Message, maxBatchBytes < message.size →
        s.perform t (.add message) =
          some (([], some (.messageTooLarge message.size maxBatchBytes),
              [(s.messages, .error (.messageTooLarge message.size maxBatchBytes))]),
            { s with messages := s.messages + 1 }) := by
  obtain ⟨effects, s, done, goes⟩ :=
    performAll_goes valid commands (s := {}) (Batcher.below_empty t) timely
  refine ⟨effects, s, done, ?_, fun b hb => ?_, goes.below.below, goes.contents, ?_⟩
  · rw [run, if_pos (hasRoom_of_valid valid), reports_closed, done]
    rfl
  · have within := goes.within b hb
    exact ⟨within.nonempty, within.count, Nat.le_trans within.count (Thresholds.count_le valid),
      within.summed, within.service, within.bytes⟩
  · exact fun message large => perform_tooLarge s t large

/-- Two messages and five bytes: the second message has no room beside the first, an empty one
fills its batch, one above the threshold goes alone, and the last one waits for its deadline. -/
theorem closed_within_bounds_four :
    ∃ effects s, performAll ⟨2, 5, ⟨1⟩⟩
        [.add ⟨⟨#[1, 2, 3]⟩, []⟩, .add ⟨⟨#[4, 5, 6]⟩, []⟩, .add ⟨⟨#[]⟩, []⟩,
          .add ⟨⟨#[1, 2, 3, 4, 5, 6, 7]⟩, []⟩, .add ⟨⟨#[8]⟩, []⟩, .flushAt ⟨0⟩, .advance ⟨1⟩,
          .flush] {} = some (effects, s) ∧
      (closed effects).map Batch.ids = [[0], [1, 2], [3], [4]] ∧
      ∀ b ∈ closed effects, b.bytes ≤ 5 ∨ b.size = 1 := by
  obtain ⟨effects, s, done, -, within, -⟩ := closed_within_bounds (t := ⟨2, 5, ⟨1⟩⟩) (by rfl)
    [.add ⟨⟨#[1, 2, 3]⟩, []⟩, .add ⟨⟨#[4, 5, 6]⟩, []⟩, .add ⟨⟨#[]⟩, []⟩,
      .add ⟨⟨#[1, 2, 3, 4, 5, 6, 7]⟩, []⟩, .add ⟨⟨#[8]⟩, []⟩, .flushAt ⟨0⟩, .advance ⟨1⟩, .flush]
    ⟨by decide, by decide, by decide, by decide, by decide, by decide, by decide, trivial⟩
  refine ⟨effects, s, done, ?_, fun b hb => (within b hb).2.2.2.2.2⟩
  obtain ⟨rfl, -⟩ := Prod.mk.inj (Option.some.inj done)
  rfl

end BatcherSession
end TopicPublisher
