import TopicPublisher.Proofs.Engine.Prompt
import TopicPublisher.Proofs.Engine.Punctual
import TopicPublisher.Proofs.Engine.Shutdown

/-!
The grace that a shutdown call gives to what is underway. The batching task drains in the
millisecond of the call, so no batch is dispatched later, and every batch keeps to its budget.
Main statement: on a virtual clock no shutdown call waits beyond one budget from when it was made.
-/

namespace TopicPublisher
namespace Transit

variable {σ τ : Type} {v : Service σ τ} {c : Config} {k l m : Transit σ τ} {s : Sending τ}

/-- What takes no time. Only a running batching task begins to send a batch, and does so now. -/
structure Follows (k l : Transit σ τ) : Prop where
  now : l.now = k.now
  running : l.batching = .running → k.batching = .running
  sends : ∀ s ∈ l.sends, (∃ t ∈ k.sends, s.started = t.started) ∨
    (k.batching = .running ∧ s.started = k.now)

theorem Follows.refl (k : Transit σ τ) : k.Follows k :=
  ⟨rfl, id, fun s hs => .inl ⟨s, hs, rfl⟩⟩

theorem Follows.trans (h : k.Follows l) (h' : l.Follows m) : k.Follows m := by
  refine ⟨h'.now.trans h.now, fun running => h.running (h'.running running), fun s hs => ?_⟩
  rcases h'.sends s hs with ⟨t, ht, same⟩ | ⟨running, started⟩
  · rw [same]
    exact h.sends t ht
  · exact .inr ⟨h.running running, started.trans h.now⟩

theorem Follows.dispatchAll (running : k.batching = .running) (bs : List Batch) :
    k.Follows (k.dispatchAll bs) := by
  unfold Transit.dispatchAll
  induction bs generalizing k with
  | nil => exact .refl k
  | cons b rest ih =>
    have one : k.Follows (k.dispatch b) := by
      refine ⟨rfl, fun _ => running, fun s hs => ?_⟩
      rcases List.mem_append.mp hs with hs | hs
      · exact .inl ⟨s, hs, rfl⟩
      · exact .inr ⟨running, List.mem_singleton.mp hs ▸ rfl⟩
    exact one.trans (ih running)

theorem Gather.follows (gather : Gather c k l) : k.Follows l := by
  have same : ∀ s ∈ k.sends, (∃ t ∈ k.sends, s.started = t.started) ∨
      (k.batching = .running ∧ s.started = k.now) := fun s hs => .inl ⟨s, hs, rfl⟩
  cases gather with
  | enqueue x running => exact ⟨rfl, fun _ => running, same⟩
  | add x rest closed batcher running _ _ =>
    have dispatched := Follows.dispatchAll (k := { k with queue := rest, batcher := batcher })
      running closed
    exact ⟨dispatched.now, dispatched.running, dispatched.sends⟩
  | close running _ =>
    have dispatched := Follows.dispatchAll (k := { k with batcher := {} })
      running [k.batcher.current]
    exact ⟨dispatched.now, dispatched.running, dispatched.sends⟩
  | retire running _ _ => exact ⟨rfl, nofun, same⟩
  | kill running _ => exact ⟨rfl, nofun, same⟩

theorem Gathers.follows (gathers : Gathers c k l) : k.Follows l := by
  induction gathers with
  | refl => exact .refl k
  | tail _ step ih => exact ih.trans step.follows

theorem Forward.follows (hs : s ∈ k.sends) (turn : Forward v c k s l) : k.Follows l := by
  -- The task that has its turn stays, with the start that it had, or is gone.
  have turned (t : Sending τ) (same : t.started = s.started) :
      ∀ u ∈ k.sends.map (fun u => if u.id == t.id then t else u),
        (∃ w ∈ k.sends, u.started = w.started) ∨ (k.batching = .running ∧ u.started = k.now) := by
    intro u hu
    obtain ⟨w, hw, rfl⟩ := List.mem_map.mp hu
    split
    · exact .inl ⟨s, hs, same⟩
    · exact .inl ⟨w, hw, rfl⟩
  have gone : ∀ t ∈ k.sends.filter (·.id != s.id), (∃ u ∈ k.sends, t.started = u.started) ∨
      (k.batching = .running ∧ t.started = k.now) :=
    fun t ht => .inl ⟨t, List.mem_of_mem_filter ht, rfl⟩
  cases turn with
  | call ready =>
    exact ⟨rfl, id, turned _ rfl⟩
  | wait wake alarm waits early => exact ⟨rfl, id, turned _ rfl⟩
  | settle timeout limit answerAt call reply service result phase ends verdict =>
    exact ⟨rfl, id, gone⟩
  | fail timeout limit answerAt call reply service error phase ends verdict =>
    exact ⟨rfl, id, turned _ rfl⟩
  | resume wake error phase past left =>
    exact ⟨rfl, id, turned _ rfl⟩
  | exhaust wake error phase past spent => exact ⟨rfl, id, gone⟩

end Transit

namespace Engine

variable {σ τ : Type} {v : Service σ τ} {c : Config} {e f : Engine σ τ}

/-- A shutdown call is entered with the time at which it is made. -/
theorem Visit.shutdowns (visit : Visit v c e f) {d : Nat × Nat} (hd : d ∈ f.shutdowns) :
    d ∈ e.shutdowns ∨ d.2 = e.now := by
  have kept {l : List (Nat × Nat)} (same : f.shutdowns = l) (hl : l ⊆ e.shutdowns) :
      d ∈ e.shutdowns ∨ d.2 = e.now := .inl (hl (same ▸ hd))
  cases visit with
  | inner _ same | cancel _ same _ | clones _ _ _ same _ =>
    exact kept (congrArg Desk.shutdowns same) (.refl _)
  | arrive x _ _ handled | resume x _ handled =>
    obtain ⟨_, _, _, same⟩ := handled.desk
    exact kept (congrArg Desk.shutdowns same) (.refl _)
  | shutdown call _ _ same _ =>
    have shutdowns : f.shutdowns = e.shutdowns ++ [(call, e.now)] := congrArg Desk.shutdowns same
    rcases List.mem_append.mp (shutdowns ▸ hd) with old | new
    · exact .inl old
    · exact .inr (List.mem_singleton.mp new ▸ rfl)
  | finish call _ _ same _ =>
    exact kept (congrArg Desk.shutdowns same) List.filter_sublist.subset

theorem limit_mono (p : RetryPolicy) {since started : Nat} (h : started ≤ since) :
    p.limit started ≤ p.limit since := by
  have instants := Clock.instant_mono h
  unfold RetryPolicy.limit Clock.ceilMillis
  omega

theorem le_limit (p : RetryPolicy) (since : Nat) : since ≤ p.limit since := by
  unfold RetryPolicy.limit Clock.ceilMillis Clock.instant
  omega

theorem bounded_mono {p : RetryPolicy} {since started : Nat} (h : started ≤ since)
    (bounded : p.Bounded since) : p.Bounded started := by
  by_contra late
  have later := Custody.representable_mono
    (Nat.add_le_add_right (Clock.instant_mono h) p.totalTimeout.nanos) (Bool.eq_false_iff.mpr late)
  rw [bounded] at later
  cases later

/-- What a shutdown call waits for was underway when it was made, so its budget bounds the wait. -/
structure Grace (c : Config) (e : Engine σ τ) (since : Nat) : Prop where
  drained : e.batching = .running → since = e.now
  sends : ∀ s ∈ e.sends, s.started ≤ since
  within : c.retries.Bounded since → e.now ≤ c.retries.limit since

theorem Grace.begin (punctual : e.transit.Punctual c) : e.Grace c e.now :=
  ⟨fun _ => rfl, fun s hs => (punctual s hs).began, fun _ => le_limit c.retries e.now⟩

theorem Grace.follows {since : Nat} (h : e.Grace c since)
    (follows : e.transit.Follows f.transit) : f.Grace c since := by
  have now : f.now = e.now := follows.now
  refine ⟨fun running => ?_, fun s hs => ?_, fun bounded => ?_⟩
  · rw [now]
    exact h.drained (follows.running running)
  · rcases follows.sends s hs with ⟨t, ht, same⟩ | ⟨running, started⟩
    · exact same ▸ h.sends t ht
    · rw [started, h.drained running]
      exact Nat.le_refl _
  · exact now ▸ h.within bounded

/-- In a settled engine a shutdown call waits for the sending of a batch, which has a time to come
within the budget. -/
theorem PromptlyReachable.waits (h : PromptlyReachable v c e) (settled : e.isSettled = true)
    {d : Nat × Nat} (hd : d ∈ e.shutdowns) (grace : e.Grace c d.2)
    (bounded : c.retries.Bounded d.2) :
    ∃ p ∈ e.pending, e.now < p.1 ∧ p.1 ≤ c.retries.limit d.2 := by
  have asked := List.ne_nil_of_mem hd
  have closing : e.closing = true := h.reachable.orderly.asked asked
  obtain ⟨-, none⟩ := h.reachable.closing_settled closing settled
  obtain ⟨s, hs⟩ := List.exists_mem_of_ne_nil e.sends fun done => asked (none done)
  obtain ⟨wake, waits, early⟩ := h.reachable.idle settled (.sending s.id) s hs rfl
  have began := grace.sends s hs
  refine ⟨_, pending_sending hs waits, early, ?_⟩
  exact Nat.le_trans ((h.punctual s hs).bounded (bounded_mono began bounded) wake waits)
    (limit_mono c.retries began)

theorem PromptlyReachable.grace (h : PromptlyReachable v c e) {d : Nat × Nat}
    (hd : d ∈ e.shutdowns) : e.Grace c d.2 := by
  obtain ⟨service, run⟩ := h
  induction run with
  | refl => cases hd
  | @tail e f before step ih =>
    have reached : PromptlyReachable v c e := ⟨service, before⟩
    have still (follows : e.transit.Follows f.transit) : f.Grace c d.2 := by
      rcases (reached.reachable.visit step.step).shutdowns hd with old | new
      · exact (ih old).follows follows
      · rw [new]
        exact (Grace.begin reached.punctual).follows follows
    cases step.step.transits reached.reachable.sound with
    | gather gathers => exact still gathers.follows
    | forward s here _ turn => exact still (turn.follows (List.mem_of_find?_eq_some here))
    | pass now later passed =>
      have moved : f.transit = { e.transit with now := now } := passed ▸ transit_moveTo e now
      have clock : f.now = now := congrArg Transit.now moved
      have batching : f.batching = e.batching := congrArg Transit.batching moved
      have sends : f.sends = e.sends := congrArg Transit.sends moved
      have shutdowns : f.shutdowns = e.shutdowns := by
        rw [passed]
        exact congrArg Desk.shutdowns (desk_moveTo e now)
      rcases Nat.eq_or_lt_of_le later with same | later
      · exact still (moved ▸ same ▸ .refl _)
      rw [← clock] at later
      have settled := step.settled later
      have old : d ∈ e.shutdowns := shutdowns ▸ hd
      have closing := reached.reachable.orderly.asked (List.ne_nil_of_mem old)
      have stopped := (reached.reachable.closing_settled closing settled).1
      have grace := ih old
      refine ⟨fun running => ?_, fun s hs => ?_, fun bounded => ?_⟩
      · exact absurd (batching ▸ running) stopped
      · exact grace.sends s (sends ▸ hs)
      · obtain ⟨p, pending, -, within⟩ := reached.waits settled old grace bounded
        exact Nat.le_trans (step.le_pending later pending) within

/-- On a virtual clock, whatever the service does, and however many batches are open, queued or
sent when a shutdown call is made: the call waits no longer than to the first whole millisecond at
or after the end of one budget from then, if the end of this budget can be represented; and at
that reading nothing is left for it to wait for. -/
theorem shutdown_within_budget (h : PromptlyReachable v c e) {call since : Nat}
    (asked : (call, since) ∈ e.shutdowns)
    (bounded :
      Clock.representable (Clock.instant since + c.retries.totalTimeout.nanos) = true) :
    e.now ≤ Clock.ceilMillis (Clock.instant since + c.retries.totalTimeout.nanos) ∧
      (e.isSettled = true →
        e.now < Clock.ceilMillis (Clock.instant since + c.retries.totalTimeout.nanos)) := by
  have grace := h.grace asked
  refine ⟨grace.within bounded, fun settled => ?_⟩
  obtain ⟨p, -, early, within⟩ := h.waits settled asked grace bounded
  exact Nat.lt_of_lt_of_le early within

/-- A message is in the open batch when the shutdown call is made, and the service never answers:
the first call of the batch ends with its timeout, and the call still waits. -/
theorem shutdown_within_budget_no_answer :
    ∃ (v : Service Unit Unit) (c : Config) (e : Engine Unit Unit),
      c.retries.totalTimeout = ⟨100500000⟩ ∧ PromptlyReachable v c e ∧ (9, 3) ∈ e.shutdowns ∧
      Clock.representable (Clock.instant 3 + c.retries.totalTimeout.nanos) = true ∧
      e.now = 33 ∧ e.isSettled = true ∧
      Clock.ceilMillis (Clock.instant 3 + c.retries.totalTimeout.nanos) = 104 ∧
      e.now < Clock.ceilMillis (Clock.instant 3 + c.retries.totalTimeout.nanos) := by
  have started : PromptlyReachable
      (⟨fun _ _ => (none, (), ()), fun _ _ => (.ids [], ())⟩ : Service Unit Unit)
      { topic := ⟨"project", "topic"⟩, thresholds := ⟨10, 10, ⟨5000000⟩⟩
        retries := {
          totalTimeout := ⟨100500000⟩
          initialDelay := .ofMillis 40
          initialRpcTimeout := .ofMillis 30
          maxRpcTimeout := .ofMillis 30 } } _ := .init ()
  have published := started.step
    (.publish ⟨0, ⟨⟨#[1, 2]⟩, []⟩⟩ (by decide) (by decide) (by decide))
  have opened := published.step (.turn .batching (by decide))
  have waits := opened.step (.turn .batching (by decide))
  have later := waits.step (.pass (by decide) (by decide) (by decide : ∀ wake ∈ _, 3 ≤ wake))
  have asked := later.step (.still (.shutdown 9 (by decide +kernel) (by decide +kernel)
    (mem_finished.not.mp (by decide +kernel))) (by decide +kernel))
  have drained := asked.step (.turn .batching (by decide +kernel))
  have called := drained.step (.turn (.sending 0) (by decide +kernel))
  have calling := called.step (.turn (.sending 0) (by decide +kernel))
  have looked := calling.step (.turn (.shutdown 9) (by decide +kernel))
  have elapsed := looked.step (.pass (by decide +kernel) (by decide +kernel)
    (by decide +kernel : ∀ wake ∈ _, 33 ≤ wake))
  have failed := elapsed.step (.turn (.sending 0) (by decide +kernel))
  have pausing := failed.step (.turn (.sending 0) (by decide +kernel))
  obtain ⟨-, early⟩ := shutdown_within_budget pausing
    (by decide +kernel : (9, 3) ∈ _) (by decide)
  exact ⟨_, _, _, rfl, pausing, by decide +kernel, by decide, by decide +kernel,
    by decide +kernel, by decide, early (by decide +kernel)⟩

end Engine
end TopicPublisher
