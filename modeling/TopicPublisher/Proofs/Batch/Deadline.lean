import TopicPublisher.Proofs.Batch.Contents

/-!
The deadline of the open batch. It is armed with the first entry of a batch and disarmed when the
batch is closed, so it is armed just while the open batch holds entries. A flush closes the open
batch just when it is due, a drain whenever it holds entries.
-/

namespace TopicPublisher
namespace Batcher

def Armed (b : Batcher) : Prop := b.deadline = none ↔ b.current.entries = []

variable {t : Thresholds} {now : Nat} {x : Entry} {b next : Batcher} {closed : List Batch}

theorem armed_empty : ({} : Batcher).Armed := ⟨fun _ => rfl, fun _ => rfl⟩

theorem makeRoom_armed (h : b.Armed) (t : Thresholds) (size : Nat) :
    (b.makeRoom t size).2.Armed := by
  unfold makeRoom
  split
  · exact armed_empty
  · exact h

/-- A batcher that is about to take an entry has a deadline. -/
theorem arm_deadline (h : b.Armed) (ha : b.arm t now = some next) : next.deadline ≠ none := by
  unfold arm at ha
  split at ha
  · split at ha
    · cases ha
      exact nofun
    · cases ha
  · next some =>
    cases ha
    exact fun none => some (List.isEmpty_iff.mpr (h.mp none))

theorem append_armed (armed : b.deadline ≠ none) (t : Thresholds) (x : Entry) :
    (b.append t x).2.Armed := by
  unfold append
  dsimp only
  split
  · exact armed_empty
  · exact ⟨fun none => absurd none armed, fun empty => absurd empty (by simp)⟩

theorem add_armed (h : b.Armed) (ha : b.add t now x = .ok (closed, next)) : next.Armed := by
  rw [add_eq] at ha
  split at ha
  · cases ha
  split at ha
  · cases ha
  next armed room =>
  obtain ⟨-, rfl⟩ := Prod.mk.inj (Except.ok.inj ha)
  exact append_armed (arm_deadline (makeRoom_armed h t x.size) room) t x

/-! The open batch after an entry came -/

theorem makeRoom_open (t : Thresholds) (size : Nat) (b : Batcher) :
    (b.makeRoom t size).2 = {} ∨ (b.makeRoom t size).2 = b := by
  unfold makeRoom
  split
  · exact .inl rfl
  · exact .inr rfl

theorem arm_open (ha : b.arm t now = some next) :
    (next.current.entries = [] ∧ next.deadline = some (now + t.delay.nanos)) ∨
      (next = b ∧ b.current.entries ≠ []) := by
  unfold arm at ha
  split at ha
  · next empty =>
    split at ha
    · cases ha
      exact .inl ⟨List.isEmpty_iff.mp empty, rfl⟩
    · cases ha
  · next some =>
    cases ha
    exact .inr ⟨rfl, fun none => some (List.isEmpty_iff.mpr none)⟩

theorem append_open (t : Thresholds) (x : Entry) (b : Batcher) :
    (b.append t x).2 = {} ∨ ((b.append t x).2.current.entries = b.current.entries ++ [x] ∧
      (b.append t x).2.deadline = b.deadline) := by
  unfold append
  dsimp only
  split
  · exact .inl rfl
  · exact .inr ⟨rfl, rfl⟩

/-- An entry that stays in the open batch begins it and sets its deadline, or joins it and leaves
the deadline as it is. -/
theorem add_open (ha : b.add t now x = .ok (closed, next)) :
    next = {} ∨ (next.current.entries = [x] ∧ next.deadline = some (now + t.delay.nanos)) ∨
      (next.current.entries = b.current.entries ++ [x] ∧ next.deadline = b.deadline ∧
        b.current.entries ≠ []) := by
  rw [add_eq] at ha
  split at ha
  · cases ha
  split at ha
  · cases ha
  next armed room =>
  obtain ⟨-, rfl⟩ := Prod.mk.inj (Except.ok.inj ha)
  refine (append_open t x armed).imp_right fun ⟨entries, deadline⟩ => ?_
  rw [entries, deadline]
  rcases arm_open room with ⟨empty, armed⟩ | ⟨rfl, old⟩
  · exact .inl ⟨by rw [empty, List.nil_append], armed⟩
  · rcases makeRoom_open t x.size b with fresh | same
    · exact absurd (by rw [fresh]) old
    · rw [same] at old ⊢
      exact .inr ⟨rfl, rfl, old⟩

/-! Flushing and draining -/

/-- The open batch has entries, and its deadline is `x` or earlier. -/
def Due (b : Batcher) (x : Nat) : Prop :=
  b.current.entries ≠ [] ∧ ∃ deadline, b.deadline = some deadline ∧ deadline ≤ x

instance (b : Batcher) (x : Nat) : Decidable (b.Due x) :=
  match armed : b.deadline with
  | none => isFalse fun due => nomatch armed.symm.trans due.2.choose_spec.1
  | some deadline =>
    decidable_of_iff (b.current.entries ≠ [] ∧ deadline ≤ x)
      ⟨fun due => ⟨due.1, deadline, armed, due.2⟩, fun ⟨full, _, other, past⟩ =>
        ⟨full, Option.some.inj (armed.symm.trans other) ▸ past⟩⟩

theorem flushExpired_due {x : Nat} (due : b.Due x) : b.flushExpired x = (some b.current, {}) := by
  obtain ⟨some, deadline, armed, past⟩ := due
  unfold flushExpired
  rw [armed]
  exact if_pos ⟨past, List.isEmpty_eq_false_iff.mpr some⟩

theorem flushExpired_early {x : Nat} (early : ¬ b.Due x) : b.flushExpired x = (none, b) := by
  unfold flushExpired
  split
  · next deadline armed =>
    refine if_neg fun due => early ⟨?_, deadline, armed, due.1⟩
    exact List.isEmpty_eq_false_iff.mp due.2
  · rfl

/-- A flush returns the open batch just if it is due. -/
theorem flushExpired_iff {x : Nat} : (b.flushExpired x).1 = some b.current ↔ b.Due x := by
  refine ⟨fun closed => ?_, fun due => by rw [flushExpired_due due]⟩
  refine Decidable.byContradiction fun early => ?_
  rw [flushExpired_early early] at closed
  cases closed

theorem drain_some (some : b.current.entries ≠ []) : b.drain = (.some b.current, {}) :=
  if_neg fun empty => some (List.isEmpty_iff.mp empty)

theorem drain_none (empty : b.current.entries = []) : b.drain = (none, b) :=
  if_pos (List.isEmpty_iff.mpr empty)

theorem drain_iff : b.drain.1 = some b.current ↔ b.current.entries ≠ [] := by
  refine ⟨fun closed empty => ?_, fun some => by rw [drain_some some]⟩
  rw [drain_none empty] at closed
  cases closed

theorem not_due (empty : b.current.entries = []) (x : Nat) : ¬ b.Due x := fun due => due.1 empty

theorem flushExpired_armed (h : b.Armed) (now : Nat) : (b.flushExpired now).2.Armed := by
  by_cases due : b.Due now
  · rw [flushExpired_due due]
    exact armed_empty
  · rw [flushExpired_early due]
    exact h

/-- When its deadline is past, the open batch is closed and is not empty. -/
theorem flushExpired_past (h : b.Armed) {deadline : Nat} (armed : b.deadline = some deadline)
    (past : deadline ≤ now) :
    b.flushExpired now = (some b.current, {}) ∧ b.current.entries ≠ [] := by
  have some : b.current.entries ≠ [] := fun none => nomatch armed.symm.trans (h.mpr none)
  exact ⟨flushExpired_due ⟨some, deadline, armed, past⟩, some⟩

theorem drain_armed (h : b.Armed) : b.drain.2.Armed := by
  by_cases empty : b.current.entries = []
  · rw [drain_none empty]
    exact h
  · rw [drain_some empty]
    exact armed_empty

end Batcher
end TopicPublisher
