import TopicPublisher.Batch.Batcher

/-!
What a batcher holds and what it gives away: entries leave it in the order in which they came,
in closed batches, and none is lost.
-/

namespace TopicPublisher
namespace Batcher

variable {t : Thresholds} {now size : Nat} {x : Entry} {b next : Batcher} {closed : List Batch}

theorem makeRoom_contents (t : Thresholds) (size : Nat) (b : Batcher) :
    (b.makeRoom t size).1.flatMap Batch.entries ++ (b.makeRoom t size).2.current.entries =
      b.current.entries := by
  unfold makeRoom
  split <;> simp [close]

theorem arm_current (h : b.arm t now = some next) : next.current = b.current := by
  unfold arm at h
  split at h
  · split at h
    · cases h
      rfl
    · cases h
  · cases h
    rfl

/-- Only a deadline that cannot be represented stays unarmed. -/
theorem arm_eq_none (h : b.arm t now = none) :
    Clock.representable (now + t.delay.nanos) = false := by
  unfold arm at h
  split at h
  · split at h
    · cases h
    · next hr => simpa using hr
  · cases h

theorem append_contents (t : Thresholds) (x : Entry) (b : Batcher) :
    (b.append t x).1.flatMap Batch.entries ++ (b.append t x).2.current.entries =
      b.current.entries ++ [x] := by
  unfold append
  dsimp only
  split <;> simp [close]

theorem add_eq (t : Thresholds) (now : Nat) (x : Entry) (b : Batcher) :
    b.add t now x =
      if maxBatchBytes < x.size then .error (.tooLarge x.size)
      else match (b.makeRoom t x.size).2.arm t now with
        | none => .error .deadlineOverflow
        | some armed =>
          .ok ((b.makeRoom t x.size).1 ++ (armed.append t x).1, (armed.append t x).2) :=
  rfl

/-- The batches that an entry closes, and then the open batch, hold what the open batch held
before, and then that entry. -/
theorem add_contents (h : b.add t now x = .ok (closed, next)) :
    closed.flatMap Batch.entries ++ next.current.entries = b.current.entries ++ [x] := by
  rw [add_eq] at h
  split at h
  · cases h
  split at h
  · cases h
  next armed ha =>
  obtain ⟨rfl, rfl⟩ := Prod.mk.inj (Except.ok.inj h)
  rw [List.flatMap_append, List.append_assoc, append_contents, arm_current ha, ← List.append_assoc,
    makeRoom_contents]

/-- A batch that an entry closes is not empty. -/
theorem add_nonempty (h : b.add t now x = .ok (closed, next)) : ∀ c ∈ closed, c.entries ≠ [] := by
  rw [add_eq] at h
  split at h
  · cases h
  split at h
  · cases h
  next armed _ =>
  obtain ⟨rfl, -⟩ := Prod.mk.inj (Except.ok.inj h)
  refine List.forall_mem_append.mpr ⟨?_, ?_⟩
  · unfold makeRoom
    split
    · next full =>
      rw [Bool.and_eq_true, Bool.not_eq_true', Batch.isEmpty, List.isEmpty_eq_false_iff] at full
      exact List.forall_mem_singleton.mpr full.1
    · exact List.forall_mem_nil _
  · unfold append
    dsimp only
    split
    · exact List.forall_mem_singleton.mpr (List.concat_ne_nil x _)
    · exact List.forall_mem_nil _

theorem add_tooLarge (h : b.add t now x = .error (.tooLarge size)) : maxBatchBytes < x.size := by
  rw [add_eq] at h
  split at h
  · next large => exact large
  · split at h <;> cases h

theorem add_deadlineOverflow (h : b.add t now x = .error .deadlineOverflow) :
    Clock.representable (now + t.delay.nanos) = false := by
  rw [add_eq] at h
  split at h
  · cases h
  split at h
  · next ha => exact arm_eq_none ha
  · cases h

/-- An entry that the service takes is added wherever its deadline can be represented. -/
theorem exists_add (sendable : x.size ≤ maxBatchBytes)
    (timely : Clock.representable (now + t.delay.nanos) = true) (b : Batcher) :
    ∃ closed next, b.add t now x = .ok (closed, next) := by
  cases ha : b.add t now x with
  | ok result => exact ⟨result.1, result.2, rfl⟩
  | error failure =>
    cases failure with
    | tooLarge size => exact absurd (add_tooLarge ha) (Nat.not_lt.mpr sendable)
    | deadlineOverflow =>
      rw [add_deadlineOverflow ha] at timely
      cases timely

theorem flushExpired_contents (now : Nat) (b : Batcher) :
    (b.flushExpired now).1.toList.flatMap Batch.entries ++
      (b.flushExpired now).2.current.entries = b.current.entries := by
  unfold flushExpired
  split
  · split <;> simp [close]
  · simp

theorem drain_contents (b : Batcher) :
    b.drain.1.toList.flatMap Batch.entries = b.current.entries ∧
      b.drain.2.current.entries = [] := by
  unfold drain
  split
  · next empty =>
    have none : b.current.entries = [] := List.isEmpty_iff.mp empty
    simp [none]
  · simp [close]

end Batcher
end TopicPublisher
