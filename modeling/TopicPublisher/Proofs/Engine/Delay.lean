import TopicPublisher.Proofs.Engine.Prompt
import TopicPublisher.Proofs.Engine.Progress
import TopicPublisher.Proofs.Engine.Transit.Steps

/-!
The delay of messages in the open batch. The deadline of the open batch is set when its first
message is added, in the millisecond of its admission, and the clock does not pass it. Main
statement: on a virtual clock every admitted message is dispatched by the end of its delay.
-/

namespace TopicPublisher

namespace Clock

theorem lt_ceilMillis_iff (n t : Nat) : n < ceilMillis t ↔ instant n < t := by
  rw [← Nat.not_le, ceilMillis_le_iff, Nat.not_le]

end Clock

/-- The instant by which a message that was admitted at a reading is to be dispatched. -/
def Config.due (c : Config) (since : Nat) : Nat :=
  Clock.instant since + c.thresholds.delay.nanos

theorem Config.due_mono (c : Config) {since now : Nat} (h : since ≤ now) :
    c.due since ≤ c.due now :=
  Nat.add_le_add_right (Nat.mul_le_mul_right _ h) _

theorem Config.le_due (c : Config) (since : Nat) : since ≤ Clock.ceilMillis (c.due since) := by
  unfold Config.due Clock.ceilMillis Clock.instant
  omega

namespace Transit

variable {σ τ : Type} {v : Service σ τ} {c : Config} {k l : Transit σ τ} {s : Sending τ}
  {x : Entry}

/-- An entry whose delay is not over. -/
def Fresh (c : Config) (k : Transit σ τ) (x : Entry) : Prop :=
  ∃ since ≤ k.now, (since, .admitted x) ∈ k.log ∧ k.now ≤ Clock.ceilMillis (c.due since)

/-- Entries are queued in the millisecond of their admission and gathered under a deadline that
all of them can meet, and those that were dispatched have met it. -/
structure Timely (c : Config) (k : Transit σ τ) : Prop where
  armed : k.batcher.Armed
  queued : ∀ x ∈ k.queue, (k.now, .admitted x) ∈ k.log
  deadline : ∀ d, k.batcher.deadline = some d → k.now ≤ Clock.ceilMillis d ∧ d ≤ c.due k.now
  gathered : ∀ x ∈ k.batcher.current.entries, ∃ since ≤ k.now,
    (since, .admitted x) ∈ k.log ∧ ∀ d, k.batcher.deadline = some d → d ≤ c.due since
  dispatched : ∀ t n b, (t, .dispatched n b) ∈ k.log → ∀ x ∈ b.entries, ∃ since ≤ t,
    (since, .admitted x) ∈ k.log ∧ t ≤ Clock.ceilMillis (c.due since)

theorem Timely.fresh (h : k.Timely c) (hx : x ∈ k.batcher.current.entries) : k.Fresh c x := by
  obtain ⟨since, past, admitted, within⟩ := h.gathered x hx
  refine ⟨since, past, admitted, ?_⟩
  cases armed : k.batcher.deadline with
  | none =>
    rw [h.armed.mp armed] at hx
    cases hx
  | some d =>
    exact Nat.le_trans (h.deadline d armed).1 (Clock.ceilMillis_mono (within d armed))

/-- Happenings are entered; a batch that is dispatched has no message whose delay is over. -/
theorem Timely.note (h : k.Timely c) {hs : List Happening}
    (fresh : ∀ n b, .dispatched n b ∈ hs → ∀ x ∈ b.entries, k.Fresh c x) :
    (k.note hs).Timely c := by
  refine { h with queued := fun x hx => ?_, gathered := fun x hx => ?_, dispatched := ?_ }
  · exact List.mem_append_left _ (h.queued x hx)
  · obtain ⟨since, past, admitted, within⟩ := h.gathered x hx
    exact ⟨since, past, List.mem_append_left _ admitted, within⟩
  · intro t n b hd x hx
    rcases List.mem_append.mp hd with old | new
    · obtain ⟨since, past, admitted, within⟩ := h.dispatched t n b old x hx
      exact ⟨since, past, List.mem_append_left _ admitted, within⟩
    · obtain ⟨happening, now, same⟩ := List.mem_map.mp new
      cases same
      obtain ⟨since, past, admitted, within⟩ := fresh n b now x hx
      exact ⟨since, past, List.mem_append_left _ admitted, within⟩

/-! Batches -/

theorem Fresh.dispatch (h : k.Fresh c x) (b : Batch) : (k.dispatch b).Fresh c x := by
  obtain ⟨since, past, admitted, within⟩ := h
  exact ⟨since, past, List.mem_append_left _ admitted, within⟩

theorem Timely.dispatch (h : k.Timely c) {b : Batch} (fresh : ∀ x ∈ b.entries, k.Fresh c x) :
    (k.dispatch b).Timely c := by
  have noted : (k.note [.dispatched k.dispatched b]).Timely c := by
    refine h.note fun n b' now => ?_
    cases List.mem_singleton.mp now
    exact fresh
  exact { noted with }

theorem Timely.dispatchAll (h : k.Timely c) {bs : List Batch}
    (fresh : ∀ b ∈ bs, ∀ x ∈ b.entries, k.Fresh c x) : (k.dispatchAll bs).Timely c := by
  unfold Transit.dispatchAll
  induction bs generalizing k with
  | nil => exact h
  | cons b rest ih =>
    refine ih (h.dispatch (fresh b (List.mem_cons_self ..))) fun b' hb x hx => ?_
    exact (fresh b' (List.mem_cons_of_mem _ hb) x hx).dispatch b

/-- An entry that was taken from the queue begins the open batch, whose deadline then is one delay
away, or joins a batch whose deadline comes sooner. -/
theorem Timely.take (h : k.Timely c) {rest : List Entry} {closed : List Batch}
    {batcher : Batcher} (hq : k.queue = x :: rest)
    (added : k.batcher.add c.thresholds (Clock.instant k.now) x = .ok (closed, batcher)) :
    Timely c { k with queue := rest, batcher := batcher } := by
  have admitted : (k.now, .admitted x) ∈ k.log := h.queued x (hq ▸ List.mem_cons_self ..)
  have queued : ∀ y ∈ rest, (k.now, .admitted y) ∈ k.log :=
    fun y hy => h.queued y (hq ▸ List.mem_cons_of_mem _ hy)
  have armed := Batcher.add_armed h.armed added
  rcases Batcher.add_open added with rfl | ⟨entries, deadline⟩ | ⟨entries, deadline, -⟩
  · exact { h with armed := armed, queued := queued, deadline := nofun, gathered := nofun }
  · refine { h with armed := armed, queued := queued, deadline := ?_, gathered := ?_ }
    · intro d hd
      obtain rfl : c.due k.now = d := Option.some.inj (deadline.symm.trans hd)
      exact ⟨c.le_due k.now, Nat.le_refl _⟩
    · intro y hy
      obtain rfl : y = x := List.mem_singleton.mp (entries ▸ hy)
      refine ⟨k.now, Nat.le_refl _, admitted, fun d hd => ?_⟩
      exact Nat.le_of_eq (Option.some.inj (deadline.symm.trans hd)).symm
  · refine { h with armed := armed, queued := queued, deadline := ?_, gathered := ?_ }
    · exact fun d hd => h.deadline d (deadline.symm.trans hd)
    · intro y hy
      rcases List.mem_append.mp (entries ▸ hy) with old | new
      · obtain ⟨since, past, admitted, within⟩ := h.gathered y old
        exact ⟨since, past, admitted, fun d hd => within d (deadline.symm.trans hd)⟩
      · obtain rfl := List.mem_singleton.mp new
        refine ⟨k.now, Nat.le_refl _, admitted, fun d hd => ?_⟩
        exact (h.deadline d (deadline.symm.trans hd)).2

theorem Timely.gather (h : k.Timely c) (gather : Gather c k l) : l.Timely c := by
  cases gather with
  | enqueue x _ =>
    have noted : (k.note [.admitted x]).Timely c := h.note (by simp)
    refine { noted with queued := fun y hy => ?_ }
    rcases List.mem_append.mp hy with old | new
    · exact noted.queued y old
    · obtain rfl := List.mem_singleton.mp new
      exact List.mem_concat_self
  | add x rest closed batcher _ hq added =>
    refine (h.take hq added).dispatchAll fun b hb y hy => ?_
    have there : y ∈ k.batcher.current.entries ++ [x] :=
      Batcher.add_contents added ▸
        List.mem_append_left _ (List.mem_flatMap.mpr ⟨b, hb, hy⟩)
    rcases List.mem_append.mp there with old | new
    · exact h.fresh old
    · obtain rfl := List.mem_singleton.mp new
      exact ⟨k.now, Nat.le_refl _, h.queued y (hq ▸ List.mem_cons_self ..), c.le_due k.now⟩
  | close _ _ =>
    refine Timely.dispatch (k := { k with batcher := {} }) ?_ fun x hx => h.fresh hx
    exact { h with armed := Batcher.armed_empty, deadline := nofun, gathered := nofun }
  | retire _ _ _ => exact { h with }
  | kill _ _ =>
    exact { h with
      armed := Batcher.armed_empty, queued := nofun, deadline := nofun, gathered := nofun }

/-- Nothing is admitted or dispatched while a batch is forwarded. -/
theorem Timely.forward (h : k.Timely c) (turn : Forward v c k s l) : l.Timely c := by
  have answered (reply : Option Reply) : (k.note [.answered s.id s.attempts reply]).Timely c :=
    h.note (by simp)
  have ended {m : Transit σ τ} (h : m.Timely c) (result : SendResult) :
      (m.note [.sendEnded s.id result]).Timely c :=
    h.note (by simp)
  cases turn with
  | call ready =>
    have called : (k.note [.called s.id (s.attempts + 1) s.batch.messages]).Timely c :=
      h.note (by simp)
    exact { called with }
  | wait wake alarm waits early => exact { h with }
  | settle timeout limit answerAt call reply service result phase ends verdict =>
    exact { ended (answered reply) result with }
  | fail timeout limit answerAt call reply service error phase ends verdict =>
    exact { answered reply with }
  | resume wake error phase past left => exact { h with }
  | exhaust wake error phase past spent =>
    exact { ended h (.failed (c.retries.exhausted s.attempts error)) with }

end Transit

namespace Engine

variable {σ τ : Type} {v : Service σ τ} {c : Config} {e : Engine σ τ}

theorem start_timely (c : Config) (service : σ) :
    (start c service : Engine σ τ).transit.Timely c :=
  ⟨Batcher.armed_empty, nofun, nofun, nofun, nofun⟩

/-- The open batch of an engine in which nothing can go on has a deadline to come, and nothing is
queued. -/
theorem Reachable.gathering_settled (h : Reachable v c e) (settled : e.isSettled = true) :
    e.queue.toList = [] ∧ ∀ d, e.batcher.deadline = some d → e.now < Clock.ceilMillis d := by
  by_cases running : e.batching = .running
  · obtain ⟨-, -, queue, early⟩ := h.idle settled .batching running
    exact ⟨queue, fun d armed => early _ (congrArg (Option.map Clock.ceilMillis) armed)⟩
  · obtain ⟨current, queue⟩ := h.placed.idle running
    refine ⟨queue, fun d armed => ?_⟩
    rw [h.armed.mpr current] at armed
    cases armed

/-- On a virtual clock entries are gathered and dispatched in time. -/
theorem PromptlyReachable.timely (h : PromptlyReachable v c e) : e.transit.Timely c := by
  refine h.carries (start_timely c) Transit.Timely.gather
    (fun _ timely _ turn => timely.forward turn) ?_
  intro e now reached timely settled later next
  obtain ⟨queue, -⟩ := reached.reachable.gathering_settled settled
  refine { timely with queued := fun x hx => ?_, deadline := fun d armed => ?_, gathered := ?_ }
  · rw [show e.transit.queue = [] from queue] at hx
    cases hx
  · have pending := pending_batching (congrArg (Option.map Clock.ceilMillis) armed)
    exact ⟨next _ pending,
      Nat.le_trans (timely.deadline d armed).2 (c.due_mono (Nat.le_of_lt later))⟩
  · intro x hx
    obtain ⟨since, past, admitted, within⟩ := timely.gathered x hx
    exact ⟨since, Nat.le_trans past (Nat.le_of_lt later), admitted, within⟩

/-! Messages -/

/-- The messages that were admitted, each with the reading at which it was. -/
def admissions (e : Engine σ τ) : List (Nat × Entry) := e.picked Happening.admitted?

theorem mem_admissions {a : Nat × Entry} :
    a ∈ e.admissions ↔ (a.1, .admitted a.2) ∈ e.history :=
  mem_picked fun _ _ => Happening.admitted?_eq_some

theorem entries_admissions (e : Engine σ τ) : e.admissions.map Prod.snd = e.admitted :=
  e.map_snd_picked Happening.admitted?

/-- A message is admitted once. -/
theorem Reachable.admitted_once (h : Reachable v c e) {x : Entry} {since again : Nat}
    (first : (since, .admitted x) ∈ e.history) (second : (again, .admitted x) ∈ e.history) :
    since = again := by
  have once : (e.admissions.map fun a => a.2.id).Nodup := by
    have ids : (e.admitted.map Entry.id).Nodup := h.ordered.admitted
    rwa [← entries_admissions, List.map_map] at ids
  have first := mem_admissions (a := (since, x)).mpr first
  have second := mem_admissions (a := (again, x)).mpr second
  exact congrArg Prod.fst (List.inj_on_of_nodup_map once first second rfl)

/-- The delay of a message in the open batch is not over. -/
theorem PromptlyReachable.gathered (h : PromptlyReachable v c e) {x : Entry}
    (hx : x ∈ e.batcher.current.entries) : ∃ since, (since, .admitted x) ∈ e.history ∧
      e.now ≤ Clock.ceilMillis (c.due since) ∧
        (e.isSettled = true → Clock.instant e.now < c.due since) := by
  have timely := h.timely
  obtain ⟨since, -, admitted, within⟩ := timely.gathered x hx
  obtain ⟨again, -, readmitted, inTime⟩ := timely.fresh hx
  have admitted := (mem_log.mp admitted).1
  obtain rfl := h.reachable.admitted_once admitted (mem_log.mp readmitted).1
  refine ⟨since, admitted, inTime, fun settled => ?_⟩
  cases armed : e.batcher.deadline with
  | none =>
    rw [h.reachable.armed.mp armed] at hx
    cases hx
  | some d =>
    have early := (h.reachable.gathering_settled settled).2 d armed
    exact Nat.lt_of_lt_of_le ((Clock.lt_ceilMillis_iff e.now d).mp early) (within d armed)

/-- On a virtual clock, as long as the deadlines of batches can be represented, whatever else is
published, and whether batches close at their thresholds, at their deadlines or because of a
shutdown: when nothing can go on, the delay of the first message of the open batch, and that of
every other one in it, is not over. Each admitted message was dispatched by the first whole
millisecond at or after the end of its delay, or waits for it and this reading has not passed. -/
theorem delay_honoured (h : PromptlyReachable v c e)
    (representable :
      Clock.representable (Clock.instant e.now + c.thresholds.delay.nanos) = true) :
    (e.isSettled = true → ∀ x ∈ e.batcher.current.entries, ∃ since,
        (∀ t, (t, .admitted x) ∈ e.history ↔ t = since) ∧
          Clock.instant e.now < Clock.instant since + c.thresholds.delay.nanos) ∧
      ∀ since x, (since, .admitted x) ∈ e.history →
        (∃ t n b, (t, .dispatched n b) ∈ e.history ∧ x ∈ b.entries ∧ since ≤ t ∧
            t ≤ Clock.ceilMillis (Clock.instant since + c.thresholds.delay.nanos)) ∨
          (x ∈ e.batcher.current.entries ++ e.queue.toList ∧
            e.now ≤ Clock.ceilMillis (Clock.instant since + c.thresholds.delay.nanos) ∧
            (e.isSettled = true →
              e.now < Clock.ceilMillis (Clock.instant since + c.thresholds.delay.nanos))) := by
  have once {x : Entry} {since again : Nat} (first : (since, .admitted x) ∈ e.history)
      (second : (again, .admitted x) ∈ e.history) : since = again :=
    h.reachable.admitted_once first second
  refine ⟨fun settled x hx => ?_, fun since x there => ?_⟩
  · obtain ⟨since, admitted, -, early⟩ := h.gathered hx
    refine ⟨since, fun t => ⟨fun again => once again admitted, ?_⟩, early settled⟩
    rintro rfl
    exact admitted
  have alive : e.batching ≠ .killed := by
    intro dead
    have killed := h.reachable.ordered.killed dead
    exact absurd (representable.symm.trans killed) nofun
  have order : e.admitted =
      e.dispatches.flatMap (·.2.entries) ++ e.batcher.current.entries ++ e.queue.toList :=
    h.reachable.ordered.order alive
  have places : x ∈ e.admitted :=
    entries_admissions e ▸ List.mem_map_of_mem (mem_admissions (a := (since, x)).mpr there)
  rw [order] at places
  rcases List.mem_append.mp places with sent | queued
  · rcases List.mem_append.mp sent with sent | current
    · left
      obtain ⟨⟨n, b⟩, dispatched, hx⟩ := List.mem_flatMap.mp sent
      obtain ⟨t, dispatched⟩ := mem_dispatches.mp dispatched
      obtain ⟨again, past, admitted, inTime⟩ :=
        h.timely.dispatched t n b (mem_log.mpr ⟨dispatched, rfl⟩) x hx
      obtain rfl := once there (mem_log.mp admitted).1
      exact ⟨t, n, b, dispatched, hx, past, inTime⟩
    · right
      obtain ⟨again, admitted, inTime, early⟩ := h.gathered current
      obtain rfl := once there admitted
      exact ⟨List.mem_append_left _ current, inTime,
        fun settled => (Clock.lt_ceilMillis_iff _ _).mpr (early settled)⟩
  · right
    obtain rfl : since = e.now := once there (mem_log.mp (h.timely.queued x queued)).1
    refine ⟨List.mem_append_right _ queued, c.le_due _, fun settled => ?_⟩
    rw [(h.reachable.gathering_settled settled).1] at queued
    cases queued

/-- Two messages share a batch that is dispatched in the millisecond after its deadline, and a third
one begins the next batch. -/
theorem delay_honoured_three_messages :
    ∃ (v : Service Unit Unit) (c : Config) (e : Engine Unit Unit) (x y : Entry),
      c.thresholds.delay = ⟨5500000⟩ ∧ PromptlyReachable v c e ∧
      Clock.representable (Clock.instant e.now + c.thresholds.delay.nanos) = true ∧
      e.now = 6 ∧ e.isSettled = true ∧ e.batcher.current.entries = [y] ∧
      (∃ since, (∀ t, (t, .admitted y) ∈ e.history ↔ t = since) ∧
        Clock.instant e.now < Clock.instant since + c.thresholds.delay.nanos) ∧
      (0, .admitted x) ∈ e.history ∧
      ∃ t n b, (t, .dispatched n b) ∈ e.history ∧ x ∈ b.entries ∧ 0 ≤ t ∧ t ≤ 6 := by
  have started : PromptlyReachable
      (⟨fun _ _ => (none, (), ()), fun _ _ => (.ids [], ())⟩ : Service Unit Unit)
      { topic := ⟨"project", "topic"⟩, thresholds := ⟨10, 10, ⟨5500000⟩⟩ } _ := .init ()
  have first := started.step
    (.publish ⟨0, ⟨⟨#[1, 2]⟩, []⟩⟩ (by decide) (by decide) (by decide))
  have opened := first.step (.turn .batching (by decide))
  have waits := opened.step (.turn .batching (by decide))
  have later := waits.step (.pass (by decide) (by decide) (by decide : ∀ wake ∈ _, 3 ≤ wake))
  have second := later.step
    (.publish ⟨1, ⟨⟨#[3]⟩, []⟩⟩ (by decide +kernel) (by decide +kernel) (by decide +kernel))
  have joined := second.step (.turn .batching (by decide +kernel))
  have again := joined.step (.turn .batching (by decide +kernel))
  have elapsed := again.step (.pass (by decide +kernel) (by decide +kernel)
    (by decide +kernel : ∀ wake ∈ _, 6 ≤ wake))
  have closed := elapsed.step (.turn .batching (by decide +kernel))
  have idle := closed.step (.turn .batching (by decide +kernel))
  have called := idle.step (.turn (.sending 0) (by decide +kernel))
  have calling := called.step (.turn (.sending 0) (by decide +kernel))
  have third := calling.step
    (.publish ⟨2, ⟨⟨#[4]⟩, []⟩⟩ (by decide +kernel) (by decide +kernel) (by decide +kernel))
  have reopened := third.step (.turn .batching (by decide +kernel))
  have settled := reopened.step (.turn .batching (by decide +kernel))
  obtain ⟨gathered, admitted⟩ := delay_honoured settled (by decide +kernel)
  refine ⟨_, _, _, ⟨0, ⟨⟨#[1, 2]⟩, []⟩⟩, ⟨2, ⟨⟨#[4]⟩, []⟩⟩, rfl, settled, by decide +kernel,
    by decide +kernel, by decide +kernel, by decide +kernel,
    gathered (by decide +kernel) _ (by decide +kernel),
    mem_admissions (a := (0, _)).mp (by decide +kernel),
    (admitted 0 _ (mem_admissions (a := (0, _)).mp (by decide +kernel))).resolve_right ?_⟩
  intro waits
  exact absurd waits.1 (by decide +kernel)

end Engine
end TopicPublisher
