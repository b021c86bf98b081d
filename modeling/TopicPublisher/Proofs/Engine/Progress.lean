import TopicPublisher.Proofs.Batch.Deadline
import TopicPublisher.Proofs.Engine.Attention.Steps
import TopicPublisher.Proofs.Engine.Sides

/-!
An engine never gets stuck. Main statement: when nothing can go on at the moment, every
outstanding message waits for a time that has been set, in the open batch or in the sending of
its batch, and publish calls wait only for outstanding messages.
-/

namespace TopicPublisher
namespace Engine

variable {σ τ : Type} {v : Service σ τ} {c : Config} {e f : Engine σ τ} {x : Entry}

/-! The deadline -/

theorem dispatchAll_batcher (bs : List Batch) (e : Engine σ τ) :
    (e.dispatchAll bs).batcher = e.batcher :=
  (dispatchAll_same bs e).1

theorem Taken.armed (taken : Taken c e x f) (armed : e.batcher.Armed) : f.batcher.Armed := by
  cases taken with
  | added closed batcher added =>
    rw [dispatchAll_batcher]
    exact Batcher.add_armed armed added
  | refused size _ =>
    rw [log, record_eq, resolve_eq]
    exact armed
  | killed _ =>
    rw [killBatching, wakeShutdowns_eq, dropEntries, resolveAll_eq]
    exact Batcher.armed_empty

theorem Batches.armed (batches : Batches c e f) (armed : e.batcher.Armed) : f.batcher.Armed := by
  cases batches with
  | take x rest _ _ taken => exact taken.armed armed
  | flush _ =>
    rw [dispatchAll_batcher]
    exact Batcher.flushExpired_armed armed _
  | retire _ _ =>
    rw [wakeShutdowns_eq, dispatchAll_batcher]
    exact Batcher.drain_armed armed
  | wait _ => exact armed

theorem batchingTurn_armed (armed : e.batcher.Armed) : (e.batchingTurn c).2.batcher.Armed := by
  have turn := batchingTurn_batches c e
  generalize (e.batchingTurn c).2 = f at turn ⊢
  induction turn with
  | refl => exact armed
  | tail _ batches ih => exact batches.armed ih

theorem Step.armed (step : Step v c e f) (armed : e.batcher.Armed) : f.batcher.Armed := by
  rcases step.bench with same | rfl | ⟨now, -, rfl⟩
  · have batcher : f.batcher = e.batcher := congrArg Workbench.batcher same
    exact batcher ▸ armed
  · obtain ⟨ready, same⟩ := run_eq (v := v) (c := c) e .batching
    rw [same]
    exact batchingTurn_armed (e := { e with ready := _ }) armed
  · rw [moveTo, wakeAll_eq]
    exact armed

/-- The deadline is armed just while the open batch holds entries. -/
theorem Reachable.armed (h : Reachable v c e) : e.batcher.Armed := by
  obtain ⟨service, run⟩ := h
  induction run with
  | refl => exact Batcher.armed_empty
  | tail _ step ih => exact step.armed ih

/-! Outstanding messages -/

/-- The outstanding messages are those that are underway. -/
theorem Reachable.outstanding_iff (h : Reachable v c e) :
    x ∈ e.admitted ∧ e.isOutstanding x = true ↔ x ∈ e.custody.outstanding := by
  have placed := h.placed
  have ordered := h.ordered
  constructor
  · rintro ⟨admitted, outstanding⟩
    rcases placed.answered x.id (ordered.returned x admitted) with resolved | there
    · have some := outcomeOf_isSome h.sound.kept resolved
      rw [isOutstanding, Option.isNone_iff_eq_none] at outstanding
      rw [outstanding] at some
      cases some
    · obtain ⟨y, hy, same⟩ := List.mem_map.mp there
      obtain rfl : y = x :=
        List.inj_on_of_nodup_map ordered.admitted (placed.admitted y hy) admitted same
      exact hy
  · intro underway
    refine ⟨placed.admitted x underway, ?_⟩
    have unresolved := (h.sound.kept.unresolved x underway).1
    rw [isOutstanding, outcomeOf_eq_none unresolved]
    rfl

/-- The sending of a batch is in a call with a timeout to come, or in a pause that will end. -/
def Sending.Underway (s : Sending τ) (now : Nat) : Prop :=
  (∃ timeout limit answerAt call, s.phase = .calling timeout limit answerAt call ∧ now < limit) ∨
    ∃ wake error, s.phase = .pausing wake error ∧ now < wake

theorem Sending.Waits.underway {s : Sending τ} {now : Nat} (h : Sending.Waits s now) :
    Sending.Underway s now := by
  obtain ⟨wake, waits, early⟩ := h
  cases hp : s.phase with
  | ready =>
    rw [hp] at waits
    cases waits
  | calling timeout limit answerAt call =>
    rw [hp] at waits
    obtain rfl := Option.some.inj waits
    exact .inl ⟨timeout, limit, answerAt, call, hp, Nat.lt_of_lt_of_le early (Nat.min_le_left _ _)⟩
  | pausing resumes error =>
    rw [hp] at waits
    obtain rfl := Option.some.inj waits
    exact .inr ⟨_, error, hp, early⟩

/-- Where nothing can go on, an outstanding message is in the open batch before its deadline, or
in a batch whose sending waits. -/
theorem Reachable.outstanding_waits (h : Reachable v c e) (settled : e.isSettled = true)
    (underway : x ∈ e.custody.outstanding) :
    (x ∈ e.batcher.current.entries ∧
        ∃ wake, e.batchingWake? = some wake ∧ e.now < wake) ∨
      ∃ s ∈ e.sends, x ∈ s.batch.entries ∧ Sending.Waits s e.now := by
  have running (held : e.custody.current ++ e.custody.queue ≠ []) : e.batching = .running := by
    by_contra stopped
    obtain ⟨current, queue⟩ := h.placed.idle stopped
    exact held (by rw [current, queue]; rfl)
  rcases List.mem_append.mp underway with there | queued
  · rcases List.mem_append.mp there with sent | current
    · obtain ⟨d, hd, hx⟩ := List.mem_flatMap.mp sent
      obtain ⟨s, hs, rfl⟩ := List.mem_map.mp hd
      exact .inr ⟨s, hs, hx, h.idle settled (.sending s.id) s hs rfl⟩
    · have held : x ∈ e.batcher.current.entries := current
      obtain ⟨-, -, -, early⟩ := h.idle settled .batching
        (running (List.ne_nil_of_mem (List.mem_append_left _ current)))
      have armed : e.batcher.deadline ≠ none := fun none =>
        List.ne_nil_of_mem held (h.armed.mp none)
      obtain ⟨deadline, hd⟩ := Option.ne_none_iff_exists'.mp armed
      have wakes : e.batchingWake? = some (Clock.ceilMillis deadline) := by
        rw [batchingWake?, hd, Option.map_some]
      exact .inl ⟨held, _, wakes, early _ wakes⟩
  · obtain ⟨-, -, queue, -⟩ := h.idle settled .batching
      (running (List.ne_nil_of_mem (List.mem_append_right _ queued)))
    have none : e.custody.queue = [] := queue
    rw [none] at queued
    cases queued

/-! Calls that wait -/

theorem Reachable.told_nil (h : Reachable v c e) (settled : e.isSettled = true) :
    e.admission.told = [] :=
  List.eq_nil_iff_forall_not_mem.mpr fun call => h.idle settled (.publishing call)

/-- Where nothing can go on and no message is outstanding, no publish call waits. -/
theorem Reachable.nobody_blocked (h : Reachable v c e) (valid : c.ceilings.validate = .ok ())
    (settled : e.isSettled = true) (done : e.custody.outstanding = []) : e.blocked = [] := by
  have sound := h.sound
  have idle : e.admission.live.toList = [] := by
    have live : e.admission.live.toList.Perm (e.custody.outstanding.map Entry.reservation) :=
      sound.kept.live
    rw [done] at live
    exact live.eq_nil
  have asked : e.admission.asked.Perm (e.blocked.map Entry.reservation) := sound.kept.asked
  have nobody : e.admission.waiting = [] := by
    refine sound.balanced.nobody_waits h.tight (h.told_nil settled) valid ?_ idle
    intro r hr limit hc
    obtain ⟨x, hx, same⟩ := List.mem_map.mp (asked.subset (List.mem_map_of_mem hr))
    have size : x.size = r.size := congrArg Reservation.size same
    exact size ▸ h.placed.fits x hx limit hc
  rw [Admission.asked, nobody] at asked
  exact List.map_eq_nil_iff.mp asked.symm.eq_nil

/-- Under valid ceilings, whatever the service does, an engine in which nothing can go on at the
moment waits for times that are set. Every outstanding message is in the open batch, whose
deadline is to come, or in a batch that is sent and is in a call with a timeout to come or in a
pause that will end. A publish call waits for admission only while a message is outstanding. So if
no time is set, no call waits, no message is outstanding, and every handle has its outcome. -/
theorem never_stuck (valid : c.ceilings.validate = .ok ()) (h : Reachable v c e)
    (settled : e.isSettled = true) :
    (∀ x ∈ e.admitted, e.isOutstanding x = true →
        (x ∈ e.batcher.current.entries ∧ ∃ deadline, e.batcher.deadline = some deadline ∧
          e.now < Clock.ceilMillis deadline) ∨
        ∃ s ∈ e.sends, x ∈ s.batch.entries ∧
          ((∃ timeout limit answerAt call,
              s.phase = .calling timeout limit answerAt call ∧ e.now < limit) ∨
            ∃ wake error, s.phase = .pausing wake error ∧ e.now < wake)) ∧
      (e.blocked ≠ [] → ∃ x ∈ e.admitted, e.isOutstanding x = true) ∧
      (e.pending = [] → e.blocked = [] ∧ (∀ x ∈ e.admitted, e.isOutstanding x = false) ∧
        ∀ call ∈ e.returned, (e.outcomeOf call).isSome = true) := by
  have blocked (none : ∀ x ∈ e.admitted, e.isOutstanding x = false) :
      e.custody.outstanding = [] ∧ e.blocked = [] := by
    have done : e.custody.outstanding = [] := by
      refine List.eq_nil_iff_forall_not_mem.mpr fun x hx => ?_
      obtain ⟨admitted, outstanding⟩ := h.outstanding_iff.mpr hx
      rw [none x admitted] at outstanding
      cases outstanding
    exact ⟨done, h.nobody_blocked valid settled done⟩
  refine ⟨fun x admitted outstanding => ?_, fun waiting => ?_, fun nothing => ?_⟩
  · rcases h.outstanding_waits settled (h.outstanding_iff.mp ⟨admitted, outstanding⟩) with
      ⟨current, wake, wakes, early⟩ | ⟨s, hs, hx, waits⟩
    · obtain ⟨deadline, armed, rfl⟩ := Option.map_eq_some_iff.mp wakes
      exact .inl ⟨current, deadline, armed, early⟩
    · exact .inr ⟨s, hs, hx, waits.underway⟩
  · by_contra none
    refine waiting (blocked fun x hx => ?_).2
    exact Bool.eq_false_iff.mpr fun outstanding => none ⟨x, hx, outstanding⟩
  · have none : ∀ x ∈ e.admitted, e.isOutstanding x = false := by
      intro x hx
      refine Bool.eq_false_iff.mpr fun outstanding => ?_
      rcases h.outstanding_waits settled (h.outstanding_iff.mp ⟨hx, outstanding⟩) with
        ⟨-, wake, wakes, -⟩ | ⟨s, hs, -, wake, waits, -⟩
      · exact List.ne_nil_of_mem (pending_batching wakes) nothing
      · exact List.ne_nil_of_mem (pending_sending hs waits) nothing
    obtain ⟨done, free⟩ := blocked none
    exact ⟨free, none, fun call returned => h.answered done returned⟩

/-- One element at a time: the first message waits in the open batch for its deadline, and the
second publish call waits for the first message. -/
theorem never_stuck_one_element :
    ∃ (v : Service Unit Unit) (c : Config) (e : Engine Unit Unit),
      c.ceilings.validate = .ok () ∧ Reachable v c e ∧ e.isSettled = true ∧
      e.blocked.map Entry.id = [1] ∧ (∃ x ∈ e.admitted, e.isOutstanding x = true) ∧
      e.pending.map (fun p => (p.1, p.2.2)) = [(5, .batching)] := by
  have started : Reachable
      (⟨fun _ _ => (none, (), ()), fun _ _ => (.ids [], ())⟩ : Service Unit Unit)
      { topic := ⟨"project", "topic"⟩, thresholds := ⟨10, 10, ⟨5000000⟩⟩
        ceilings := { elements := some 1 } } _ := .init ()
  have first := started.step (.publish ⟨0, ⟨⟨#[1, 2]⟩, []⟩⟩ (by decide) (by decide) (by decide))
  have second := first.step (.publish ⟨1, ⟨⟨#[3]⟩, []⟩⟩ (by decide) (by decide) (by decide))
  have opened := second.step (.run .batching (by decide))
  have waits := opened.step (.run .batching (by decide))
  obtain ⟨-, outstanding, -⟩ := never_stuck (by decide) waits (by decide)
  exact ⟨_, _, _, by decide, waits, by decide, by decide, outstanding (by decide), by decide⟩

end Engine
end TopicPublisher
