import TopicPublisher.Proofs.Batch.Contents

/-!
How large batches become. The open batch stays below both thresholds: it is closed as soon as it
reaches one of them, or cannot take the next entry as well. So a closed batch keeps within the
thresholds, or holds a single entry.
-/

namespace TopicPublisher

namespace Thresholds

variable {t : Thresholds}

theorem count_pos (valid : t.validate = .ok ()) : 0 < t.count :=
  ((validate_eq_ok_iff t).mp valid).1

theorem count_le (valid : t.validate = .ok ()) : t.count ≤ maxBatchMessages :=
  ((validate_eq_ok_iff t).mp valid).2.1

theorem bytes_le (valid : t.validate = .ok ()) : t.bytes ≤ maxBatchBytes :=
  ((validate_eq_ok_iff t).mp valid).2.2.2.1

end Thresholds

namespace Batch

/-- The bytes of a batch are the sizes of its entries. -/
def Summed (b : Batch) : Prop := b.bytes = total Entry.size b.entries

/-- A batch without entries, or below both thresholds. -/
def Below (t : Thresholds) (b : Batch) : Prop :=
  b.entries = [] ∨ b.size < t.count ∧ b.bytes < t.bytes

/-- A batch to which an entry of some size may be added. -/
def Takes (t : Thresholds) (size : Nat) (b : Batch) : Prop :=
  b.entries = [] ∨ b.size < t.count ∧ b.bytes + size ≤ t.bytes

/-- The bounds of a closed batch. Only an entry that is alone may exceed the threshold on bytes. -/
structure Within (t : Thresholds) (b : Batch) : Prop where
  nonempty : b.entries ≠ []
  summed : b.Summed
  count : b.size ≤ t.count
  bytes : b.bytes ≤ t.bytes ∨ b.size = 1
  service : b.bytes ≤ maxBatchBytes

variable {t : Thresholds} {size : Nat} {x : Entry} {b : Batch}

theorem summed_empty : ({} : Batch).Summed := rfl

theorem Summed.push (h : b.Summed) (x : Entry) : (b.push x).Summed := by
  rw [Summed, bytes_push, entries_push, total, List.map_append, List.sum_append_nat, h]
  rfl

theorem size_push (b : Batch) (x : Entry) : (b.push x).size = b.size + 1 := by
  rw [size, entries_push, List.length_append, List.length_singleton, size]

/-- An open batch with entries may be closed at any time. -/
theorem Below.within (h : b.Below t) (valid : t.validate = .ok ()) (summed : b.Summed)
    (some : b.entries ≠ []) : b.Within t := by
  obtain ⟨count, bytes⟩ := h.resolve_left some
  have service := Nat.le_trans (Nat.le_of_lt bytes) (Thresholds.bytes_le valid)
  exact ⟨some, summed, Nat.le_of_lt count, .inl (Nat.le_of_lt bytes), service⟩

/-- An entry that the service would take keeps a batch that takes it within the bounds. -/
theorem Takes.within (h : b.Takes t x.size) (valid : t.validate = .ok ()) (summed : b.Summed)
    (sendable : x.size ≤ maxBatchBytes) : (b.push x).Within t := by
  have nonempty : (b.push x).entries ≠ [] := by simp
  rcases h with none | ⟨count, bytes⟩
  · have alone : b.size = 0 := by rw [size, none, List.length_nil]
    have empty : b.bytes = 0 := by rw [summed, none, total_nil]
    refine ⟨nonempty, summed.push x, ?_, .inr ?_, ?_⟩
    · rw [size_push, alone]
      exact Thresholds.count_pos valid
    · rw [size_push, alone]
    · rw [bytes_push, empty, Nat.zero_add]
      exact sendable
  · refine ⟨nonempty, summed.push x, ?_, .inl bytes, ?_⟩
    · rw [size_push]
      exact count
    · exact Nat.le_trans bytes (Thresholds.bytes_le valid)

end Batch

namespace Batcher

variable {t : Thresholds} {now size : Nat} {x : Entry} {b next : Batcher} {closed : List Batch}

/-- The open batch is below the thresholds. -/
structure Below (t : Thresholds) (b : Batcher) : Prop where
  summed : b.current.Summed
  below : b.current.Below t

theorem below_empty (t : Thresholds) : ({} : Batcher).Below t :=
  ⟨Batch.summed_empty, .inl rfl⟩

/-- The open batch may be closed whenever it has entries. -/
theorem Below.close (h : b.Below t) (valid : t.validate = .ok ())
    (some : b.current.isEmpty = false) : ∀ c ∈ [b.close.1], c.Within t := by
  intro c hc
  obtain rfl := List.mem_singleton.mp hc
  refine h.below.within valid h.summed fun none => ?_
  rw [Batch.isEmpty, none] at some
  cases some

theorem makeRoom_within (h : b.Below t) (valid : t.validate = .ok ()) (size : Nat) :
    ∀ c ∈ (b.makeRoom t size).1, c.Within t := by
  unfold makeRoom
  split
  · next full =>
    rw [Bool.and_eq_true, Bool.not_eq_true'] at full
    exact h.close valid full.1
  · exact nofun

/-- When room was made for an entry, the open batch takes it. -/
theorem makeRoom_takes (h : b.Below t) (size : Nat) :
    (b.makeRoom t size).2.current.Summed ∧ (b.makeRoom t size).2.current.Takes t size := by
  unfold makeRoom
  split
  · exact ⟨Batch.summed_empty, .inl rfl⟩
  · next room =>
    refine ⟨h.summed, ?_⟩
    by_cases none : b.current.entries = []
    · exact .inl none
    · right
      simpa [Batch.isEmpty, none, fits] using room

theorem append_within (summed : b.current.Summed) (takes : b.current.Takes t x.size)
    (valid : t.validate = .ok ()) (sendable : x.size ≤ maxBatchBytes) :
    (∀ c ∈ (b.append t x).1, c.Within t) ∧ (b.append t x).2.Below t := by
  have within : (b.current.push x).Within t := takes.within valid summed sendable
  unfold append
  dsimp only
  split
  · refine ⟨fun c hc => ?_, below_empty t⟩
    obtain rfl := List.mem_singleton.mp hc
    exact within
  · next room =>
    rw [isFull, decide_eq_true_eq, not_or, Nat.not_le, Nat.not_le] at room
    exact ⟨nofun, summed.push x, .inr room⟩

/-- Every batch that an entry closes is within the bounds, and the open batch is below the
thresholds again. -/
theorem add_within (h : b.Below t) (valid : t.validate = .ok ())
    (ha : b.add t now x = .ok (closed, next)) :
    (∀ c ∈ closed, c.Within t) ∧ next.Below t := by
  rw [add_eq] at ha
  split at ha
  · cases ha
  next sendable =>
  split at ha
  · cases ha
  next armed room =>
  obtain ⟨rfl, rfl⟩ := Prod.mk.inj (Except.ok.inj ha)
  obtain ⟨summed, takes⟩ := makeRoom_takes h x.size
  rw [← arm_current room] at summed takes
  obtain ⟨filled, below⟩ := append_within summed takes valid (Nat.le_of_not_lt sendable)
  refine ⟨fun c hc => ?_, below⟩
  rcases List.mem_append.mp hc with hc | hc
  · exact makeRoom_within h valid x.size c hc
  · exact filled c hc

theorem flushExpired_within (h : b.Below t) (valid : t.validate = .ok ()) (now : Nat) :
    (∀ c ∈ (b.flushExpired now).1.toList, c.Within t) ∧ (b.flushExpired now).2.Below t := by
  unfold flushExpired
  split
  · split
    · next due => exact ⟨h.close valid due.2, below_empty t⟩
    · exact ⟨nofun, h⟩
  · exact ⟨nofun, h⟩

theorem drain_within (h : b.Below t) (valid : t.validate = .ok ()) :
    (∀ c ∈ b.drain.1.toList, c.Within t) ∧ b.drain.2.Below t := by
  unfold drain
  split
  · exact ⟨nofun, h⟩
  · next some => exact ⟨h.close valid (by simpa using some), below_empty t⟩

end Batcher
end TopicPublisher
