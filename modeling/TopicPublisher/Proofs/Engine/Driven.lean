import TopicPublisher.Proofs.Engine.Delay
import TopicPublisher.Proofs.Engine.Grace

/-!
Engines whose clock is driven by what they wait for. Time passes only to the next reading at which
a task is due, and no batch is without a message. So with every message that is admitted the clock
goes on by no more than the delay of an open batch and the budget of a send, and never comes to
readings at which the batching task would be killed.
-/

namespace TopicPublisher

/-- The longest time that a batch can take from its first message to its end. -/
def Config.span (c : Config) : Nat :=
  Clock.ceilMillis c.thresholds.delay.nanos + Clock.ceilMillis c.retries.totalTimeout.nanos

/-- The clock can represent whatever a driven engine comes to with so many messages. -/
def Config.Lasts (c : Config) (messages : Nat) : Prop :=
  Clock.representable (Clock.instant (c.span * (messages + 2))) = true

theorem Config.Lasts.mono {c : Config} {fewer messages : Nat} (lasts : c.Lasts messages)
    (le : fewer ≤ messages) : c.Lasts fewer :=
  Clock.representable_mono
    (Clock.instant_mono (Nat.mul_le_mul_left _ (Nat.add_le_add_right le 2))) lasts

theorem RetryPolicy.limit_eq (p : RetryPolicy) (started : Nat) :
    p.limit started = started + Clock.ceilMillis p.totalTimeout.nanos :=
  Clock.ceilMillis_instant_add _ _

theorem Config.ceilMillis_due (c : Config) (since : Nat) :
    Clock.ceilMillis (c.due since) = since + Clock.ceilMillis c.thresholds.delay.nanos :=
  Clock.ceilMillis_instant_add _ _

namespace Transit

variable {σ τ : Type} {v : Service σ τ} {c : Config} {k l : Transit σ τ} {s t : Sending τ}

theorem dispatchAll_dispatched (bs : List Batch) (k : Transit σ τ) :
    (k.dispatchAll bs).dispatched = k.dispatched + bs.length := by
  induction bs generalizing k with
  | nil => rfl
  | cons b rest ih =>
    refine (ih (k.dispatch b)).trans ?_
    rw [List.length_cons, Nat.add_comm rest.length, ← Nat.add_assoc]
    rfl

theorem dispatchAll_same (bs : List Batch) (k : Transit σ τ) :
    (k.dispatchAll bs).now = k.now ∧ (k.dispatchAll bs).batcher = k.batcher ∧
      (k.dispatchAll bs).batching = k.batching :=
  dispatchAll_carries
    (motive := fun l => l.now = k.now ∧ l.batcher = k.batcher ∧ l.batching = k.batching)
    (fun _ same => same) ⟨rfl, rfl, rfl⟩ bs

theorem mem_dispatchAll_sends {bs : List Batch} (hs : s ∈ (k.dispatchAll bs).sends) :
    s ∈ k.sends ∨ bs ≠ [] ∧ s.started = k.now := by
  induction bs generalizing k with
  | nil => exact .inl hs
  | cons b rest ih =>
    rcases ih (k := k.dispatch b) hs with old | ⟨-, now⟩
    · rcases List.mem_append.mp old with old | new
      · exact .inl old
      · obtain rfl := List.mem_singleton.mp new
        exact .inr ⟨List.cons_ne_nil b rest, rfl⟩
    · exact .inr ⟨List.cons_ne_nil b rest, now⟩

/-! Every batch has a message -/

def Filled (k : Transit σ τ) : Prop := ∀ time n b, (time, .dispatched n b) ∈ k.log → b.entries ≠ []

theorem Filled.note (h : k.Filled) {hs : List Happening}
    (filled : ∀ n b, .dispatched n b ∈ hs → b.entries ≠ []) : (k.note hs).Filled := by
  intro time n b there
  rcases List.mem_append.mp there with old | new
  · exact h time n b old
  · obtain ⟨happening, new, same⟩ := List.mem_map.mp new
    exact filled n b ((Prod.mk.inj same).2 ▸ new)

theorem Filled.dispatch (h : k.Filled) {b : Batch} (some : b.entries ≠ []) :
    (k.dispatch b).Filled :=
  Filled.note (k := { k with dispatched := _, sends := _ }) h fun _ _ there => by
    cases List.mem_singleton.mp there
    exact some

theorem Filled.dispatchAll (h : k.Filled) {bs : List Batch} (some : ∀ b ∈ bs, b.entries ≠ []) :
    (k.dispatchAll bs).Filled := by
  induction bs generalizing k with
  | nil => exact h
  | cons b rest ih =>
    obtain ⟨first, others⟩ := List.forall_mem_cons.mp some
    exact ih (h.dispatch first) others

theorem Filled.gather (h : k.Filled) (gather : Gather c k l) : l.Filled := by
  cases gather with
  | enqueue x _ => exact Filled.note (k := { k with queue := _ }) h (by simp)
  | add x rest closed batcher _ _ added =>
    exact Filled.dispatchAll (k := { k with queue := rest, batcher := batcher }) h
      (Batcher.add_nonempty added)
  | close _ some =>
    refine Filled.dispatch (k := { k with batcher := {} }) h fun none => ?_
    rw [Batch.isEmpty, none] at some
    cases some
  | retire _ _ _ => exact h
  | kill _ _ => exact h

theorem Filled.forward (h : k.Filled) (turn : Forward v c k s l) : l.Filled := by
  cases turn with
  | call ready => exact Filled.note (k := { k with service := _, counters := _ }) h (by simp)
  | wait wake alarm waits early => exact h
  | settle timeout limit answerAt call reply service result phase ends verdict =>
    have answered : (k.answer s service reply).Filled :=
      Filled.note (k := { k with service := service }) h (by simp)
    exact Filled.note (k := { k.answer s service reply with counters := _, sends := _ }) answered
      (by simp)
  | fail timeout limit answerAt call reply service error phase ends verdict =>
    exact Filled.note (k := { k with service := service }) h (by simp)
  | resume wake error phase past left => exact h
  | exhaust wake error phase past spent =>
    exact Filled.note (k := { k with counters := _, sends := _ }) h (by simp)

/-! The clock against the number of batches -/

/-- All that is underway ends within one span for each batch that was dispatched, and the open
batch is dispatched within one delay after that. -/
structure OnTime (c : Config) (k : Transit σ τ) : Prop where
  alive : k.batching ≠ .killed
  armed : k.batcher.Armed
  sends : ∀ s ∈ k.sends, c.retries.limit s.started ≤ c.span * k.dispatched
  deadline : ∀ d, k.batcher.deadline = some d →
    Clock.ceilMillis d ≤ c.span * k.dispatched + Clock.ceilMillis c.thresholds.delay.nanos
  now : k.now ≤ c.span * k.dispatched ∨
    ∃ d, k.batcher.deadline = some d ∧ k.now ≤ Clock.ceilMillis d

theorem OnTime.now_le (h : k.OnTime c) :
    k.now ≤ c.span * k.dispatched + Clock.ceilMillis c.thresholds.delay.nanos := by
  rcases h.now with early | ⟨d, armed, early⟩
  · exact Nat.le_add_right_of_le early
  · exact Nat.le_trans early (h.deadline d armed)

/-- A batch that is dispatched now ends within one span more. -/
theorem OnTime.dispatched (h : k.OnTime c) {batches : Nat} (more : k.dispatched < batches) :
    c.retries.limit k.now ≤ c.span * batches := by
  have early := h.now_le
  have room := Nat.mul_le_mul_left c.span more
  rw [Nat.mul_succ] at room
  rw [RetryPolicy.limit_eq]
  unfold Config.span at early room ⊢
  omega

theorem OnTime.add (h : k.OnTime c) {x : Entry} {rest : List Entry} {closed : List Batch}
    {batcher : Batcher}
    (added : k.batcher.add c.thresholds (Clock.instant k.now) x = .ok (closed, batcher)) :
    (({ k with queue := rest, batcher := batcher } : Transit σ τ).dispatchAll closed).OnTime c := by
  have armed := Batcher.add_armed h.armed added
  have contents := Batcher.add_contents added
  have opened := Batcher.add_open added
  obtain ⟨now, same, alive⟩ := dispatchAll_same closed { k with queue := rest, batcher := batcher }
  have count := dispatchAll_dispatched closed { k with queue := rest, batcher := batcher }
  cases closed with
  | nil =>
    rcases opened with rfl | ⟨entries, deadline⟩ | ⟨-, deadline, -⟩
    · exact absurd contents.symm (List.concat_ne_nil x _)
    · -- The entry is the first one of its batch.
      have none : k.batcher.deadline = .none := by
        refine h.armed.mpr ?_
        rw [List.flatMap_nil, List.nil_append, entries] at contents
        exact (List.self_eq_append_left.mp contents)
      have early : k.now ≤ c.span * k.dispatched := h.now.resolve_right fun ⟨d, there, _⟩ =>
        nomatch none.symm.trans there
      refine ⟨h.alive, armed, h.sends, fun d there => ?_, .inl early⟩
      obtain rfl : c.due k.now = d := Option.some.inj (deadline.symm.trans there)
      rw [c.ceilMillis_due]
      exact Nat.add_le_add_right early _
    · refine ⟨h.alive, armed, h.sends, fun d there => h.deadline d (deadline.symm.trans there), ?_⟩
      exact h.now.imp_right fun ⟨d, there, early⟩ => ⟨d, deadline.trans there, early⟩
  | cons b others =>
    have more : k.dispatched < k.dispatched + (b :: others).length :=
      Nat.lt_add_of_pos_right (Nat.succ_pos _)
    have room := Nat.mul_le_mul_left c.span (Nat.le_of_lt more)
    have ends := h.dispatched more
    have early : k.now ≤ c.span * (k.dispatched + (b :: others).length) :=
      Nat.le_trans (Engine.le_limit c.retries k.now) ends
    refine ⟨fun dead => h.alive (alive.symm.trans dead), same ▸ armed, fun s hs => ?_,
      fun d there => ?_, .inl ?_⟩
    · rw [count]
      rcases mem_dispatchAll_sends hs with old | ⟨-, started⟩
      · exact Nat.le_trans (h.sends s old) room
      · rw [started]
        exact ends
    · rw [same] at there
      rw [count]
      rcases opened with rfl | ⟨-, deadline⟩ | ⟨-, deadline, -⟩
      · cases there
      · obtain rfl : c.due k.now = d := Option.some.inj (deadline.symm.trans there)
        rw [c.ceilMillis_due]
        exact Nat.add_le_add_right early _
      · exact Nat.le_trans (h.deadline d (deadline.symm.trans there)) (Nat.add_le_add_right room _)
    · rw [now, count]
      exact early

theorem OnTime.gather (h : k.OnTime c)
    (timely : Clock.representable (Clock.instant k.now + c.thresholds.delay.nanos) = true)
    (gather : Gather c k l) : l.OnTime c := by
  cases gather with
  | enqueue x _ => exact { h with }
  | add x rest closed batcher _ _ added => exact h.add added
  | close _ _ =>
    have ends := h.dispatched (Nat.lt_succ_self k.dispatched)
    have room := Nat.mul_le_mul_left c.span (Nat.le_succ k.dispatched)
    refine ⟨h.alive, Batcher.armed_empty, fun s hs => ?_, nofun,
      .inl (Nat.le_trans (Engine.le_limit c.retries k.now) ends)⟩
    rcases List.mem_append.mp hs with old | new
    · exact Nat.le_trans (h.sends s old) room
    · obtain rfl := List.mem_singleton.mp new
      exact ends
  | retire _ _ _ => exact { h with alive := nofun }
  | kill _ late => exact nomatch timely.symm.trans late

theorem OnTime.set (h : k.OnTime c) (hs : s ∈ k.sends) (same : t.started = s.started) :
    (k.set t).OnTime c := by
  refine { h with sends := fun u hu => ?_ }
  obtain ⟨w, hw, rfl⟩ := List.mem_map.mp hu
  split
  · rw [same]
    exact h.sends s hs
  · exact h.sends w hw

theorem OnTime.forward (h : k.OnTime c) (hs : s ∈ k.sends) (turn : Forward v c k s l) :
    l.OnTime c := by
  cases turn with
  | call ready =>
    exact OnTime.set (k := note { k with service := _, counters := _ } _) { h with } hs rfl
  | wait wake alarm waits early => exact h.set hs rfl
  | settle timeout limit answerAt call reply service result phase ends verdict =>
    exact { h with sends := fun t ht => h.sends t (List.mem_of_mem_filter ht) }
  | fail timeout limit answerAt call reply service error phase ends verdict =>
    exact OnTime.set (k := k.answer s service reply) { h with } hs rfl
  | resume wake error phase past left =>
    exact OnTime.set (k := { k with counters := _ }) { h with } hs rfl
  | exhaust wake error phase past spent =>
    exact { h with sends := fun t ht => h.sends t (List.mem_of_mem_filter ht) }

/-- A deadline that is armed now can be represented. -/
theorem OnTime.timely (h : k.OnTime c) {messages : Nat}
    (few : k.dispatched ≤ messages) (lasts : c.Lasts messages) :
    Clock.representable (Clock.instant k.now + c.thresholds.delay.nanos) = true := by
  refine Clock.representable_mono ?_ lasts
  have early := h.now_le
  have room := Nat.mul_le_mul_left c.span few
  rw [← Clock.ceilMillis_le_iff, Clock.ceilMillis_instant_add, Nat.mul_add]
  unfold Config.span at early room ⊢
  omega

/-- The end of what is underway can be represented. -/
theorem OnTime.bounded (h : k.OnTime c) {messages : Nat}
    (few : k.dispatched ≤ messages) (lasts : c.Lasts messages) (hs : s ∈ k.sends) :
    c.retries.Bounded s.started := by
  refine Clock.representable_mono ?_ lasts
  have ends := h.sends s hs
  have room := Nat.mul_le_mul_left c.span (Nat.le_add_right_of_le few : k.dispatched ≤ messages + 2)
  rw [← Clock.ceilMillis_le_iff]
  exact Nat.le_trans ends room

end Transit

namespace Engine

variable {σ τ : Type} {v : Service σ τ} {c : Config} {e f : Engine σ τ}

/-- A step of an engine that is driven: it takes no time, or moves the clock to the next reading at
which a task is due. -/
inductive Drive (v : Service σ τ) (c : Config) (e : Engine σ τ) : Engine σ τ → Prop where
  | act (f : Engine σ τ) : Step v c e f → f.now = e.now → Drive v c e f
  | wake (now : Nat) : e.isSettled = true → e.nextWake? = some now → Drive v c e (e.moveTo now)

/-- The engines that a new publisher can come to while it is driven. -/
def Driven (v : Service σ τ) (c : Config) (e : Engine σ τ) : Prop :=
  ∃ service : σ, Relation.ReflTransGen (Drive v c) (start c service) e

theorem Driven.init (service : σ) : Driven v c (start c service) := ⟨service, .refl⟩

theorem Driven.step (h : Driven v c e) (drive : Drive v c e f) : Driven v c f := by
  obtain ⟨service, run⟩ := h
  exact ⟨service, run.tail drive⟩

theorem Driven.act (h : Driven v c e) (step : Step v c e f) (still : f.now = e.now) :
    Driven v c f :=
  h.step (.act f step still)

/-! What a settled engine waits for -/

theorem mem_pending {p : Nat × Nat × Task} (hp : p ∈ e.pending) :
    e.batchingWake? = some p.1 ∨ ∃ s ∈ e.sends, s.phase.wake? = some p.1 := by
  have sending (there : p ∈ e.sends.filterMap fun s =>
      s.phase.wake?.map (·, s.alarm, .sending s.id)) :
      ∃ s ∈ e.sends, s.phase.wake? = some p.1 := by
    obtain ⟨s, hs, made⟩ := List.mem_filterMap.mp there
    obtain ⟨wake, waits, rfl⟩ := Option.map_eq_some_iff.mp made
    exact ⟨s, hs, waits⟩
  unfold pending at hp
  dsimp only at hp
  split at hp
  · next wake waits =>
    rcases List.mem_cons.mp hp with rfl | there
    · exact .inl waits
    · exact .inr (sending there)
  · exact .inr (sending hp)

theorem Reachable.pending_later (h : Reachable v c e) (settled : e.isSettled = true)
    {p : Nat × Nat × Task} (hp : p ∈ e.pending) : e.now < p.1 := by
  rcases mem_pending hp with batching | ⟨s, hs, waits⟩
  · obtain ⟨d, armed, ends⟩ := Option.map_eq_some_iff.mp batching
    exact ends ▸ (h.gathering_settled settled).2 d armed
  · obtain ⟨wake, again, later⟩ := h.idle settled (.sending s.id) s hs rfl
    cases waits.symm.trans again
    exact later

theorem nextWake?_eq_some {now : Nat} (next : e.nextWake? = some now) :
    (∃ p ∈ e.pending, p.1 = now) ∧ ∀ p ∈ e.pending, now ≤ p.1 := by
  obtain ⟨there, least⟩ := List.min?_eq_some_iff.mp next
  exact ⟨List.mem_map.mp there, fun p hp => least p.1 (List.mem_map_of_mem hp)⟩

theorem Reachable.nextWake_later (h : Reachable v c e) (settled : e.isSettled = true) {now : Nat}
    (next : e.nextWake? = some now) : e.now < now := by
  obtain ⟨⟨p, hp, rfl⟩, -⟩ := nextWake?_eq_some next
  exact h.pending_later settled hp

/-- A driven engine is one on a virtual clock. -/
theorem Driven.prompt (h : Driven v c e) : PromptlyReachable v c e := by
  obtain ⟨service, run⟩ := h
  induction run with
  | refl => exact .init service
  | tail _ drive ih =>
    cases drive with
    | act _ step still => exact ih.step (.still step still)
    | wake now settled next =>
      have later := Nat.le_of_lt (ih.reachable.nextWake_later settled next)
      refine ih.step (.pass settled later fun wake first => ?_)
      exact Nat.le_of_eq (Option.some.inj (next.symm.trans first))

theorem Driven.reachable (h : Driven v c e) : Reachable v c e := h.prompt.reachable

/-! Batches and messages -/

theorem length_le_flatMap {α β : Type} {f : α → List β} {xs : List α} (some : ∀ x ∈ xs, f x ≠ []) :
    xs.length ≤ (xs.flatMap f).length := by
  induction xs with
  | nil => exact Nat.le_refl _
  | cons x rest ih =>
    obtain ⟨first, others⟩ := List.forall_mem_cons.mp some
    rw [List.flatMap_cons, List.length_append, List.length_cons, Nat.add_comm]
    exact Nat.add_le_add (List.length_pos_of_ne_nil first) (ih others)

theorem Reachable.filled (h : Reachable v c e) : e.transit.Filled :=
  h.carries (fun _ => nofun) Transit.Filled.gather (fun _ filled _ turn => filled.forward turn) id

theorem Reachable.dispatches_nonempty (h : Reachable v c e) :
    ∀ d ∈ e.dispatches, d.2.entries ≠ [] := by
  intro d hd
  obtain ⟨time, there⟩ := mem_dispatches.mp hd
  exact h.filled time d.1 d.2 (mem_log.mpr ⟨there, rfl⟩)

/-- There are no more batches than messages. -/
theorem Reachable.dispatched_le (h : Reachable v c e) (alive : e.batching ≠ .killed) :
    e.dispatched ≤ e.admitted.length := by
  have order : e.admitted = _ := h.ordered.order alive
  rw [order, ← h.length_dispatches, List.length_append, List.length_append]
  have entries : e.dispatches.length ≤ (e.dispatches.flatMap (·.2.entries)).length :=
    length_le_flatMap h.dispatches_nonempty
  exact Nat.le_add_right_of_le (Nat.le_add_right_of_le entries)

theorem Step.admitted_le (step : Step v c e f) : e.admitted.length ≤ f.admitted.length :=
  (step.events_prefix.filterMap _).length_le

/-! Driven engines are on time -/

/-- The clock is moved to what is due next. -/
theorem moveTo_onTime (h : e.transit.OnTime c) (reached : PromptlyReachable v c e)
    {messages now : Nat}
    (few : e.dispatched ≤ messages) (lasts : c.Lasts messages)
    (next : e.nextWake? = some now) : (e.moveTo now).transit.OnTime c := by
  rw [transit_moveTo]
  obtain ⟨⟨p, hp, rfl⟩, least⟩ := nextWake?_eq_some next
  refine { h with now := ?_ }
  cases armed : e.batcher.deadline with
  | some d =>
    exact .inr ⟨d, armed, least _ (pending_batching (congrArg (Option.map Clock.ceilMillis) armed))⟩
  | none =>
    rcases mem_pending hp with batching | ⟨s, hs, waits⟩
    · rw [batchingWake?, armed] at batching
      cases batching
    · have bounded := h.bounded few lasts hs
      exact .inl (Nat.le_trans ((reached.punctual s hs).bounded bounded _ waits) (h.sends s hs))

/-- As long as the clock can represent what its messages come to, a driven engine is on time, and
its batching task is not killed. -/
theorem Driven.onTime (h : Driven v c e) (lasts : c.Lasts e.admitted.length) :
    e.transit.OnTime c := by
  obtain ⟨service, run⟩ := h
  induction run with
  | refl => exact ⟨nofun, Batcher.armed_empty, nofun, nofun, .inl (Nat.zero_le _)⟩
  | @tail e f before drive ih =>
    have driven : Driven v c e := ⟨service, before⟩
    cases drive with
    | act _ step still =>
      have lasted := lasts.mono step.admitted_le
      have onTime := ih lasted
      have few := driven.reachable.dispatched_le onTime.alive
      have timely := onTime.timely few lasted
      cases step.transits driven.reachable.sound with
      | gather gathers =>
        have both : f.transit.OnTime c ∧ f.transit.now = e.now :=
          Gathers.carries (motive := fun k => k.OnTime c ∧ k.now = e.now)
            (fun h gather => ⟨h.1.gather (h.2 ▸ timely) gather, gather.follows.now.trans h.2⟩)
            ⟨onTime, rfl⟩ gathers
        exact both.1
      | forward s here _ turn => exact onTime.forward (List.mem_of_find?_eq_some here) turn
      | pass now later passed =>
        obtain rfl : f.now = now := passed ▸ now_moveTo e now
        rw [passed, transit_moveTo, still]
        exact onTime
    | wake now settled next =>
      have same : (e.moveTo now).admitted = e.admitted :=
        congrArg Desk.admitted (desk_moveTo e now)
      have onTime := ih (same ▸ lasts)
      have few := driven.reachable.dispatched_le onTime.alive
      exact moveTo_onTime onTime driven.prompt few (same ▸ lasts) next

end Engine
end TopicPublisher
