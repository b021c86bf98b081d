import TopicPublisher.Proofs.Bench.Finish
import TopicPublisher.Proofs.Engine.Handles

/-!
What a benchmark reports. Main statement: every run ends, and when it does each of its messages
was either published or failed, and none is outstanding.
-/

namespace TopicPublisher

theorem Admission.close_ledger (a : Admission) : a.close.1.ledger = a.ledger := by
  rw [close, closeBytes_fst, closeElements_fst]

/-- The simulated service answers every call, with identifiers or with an outage. -/
theorem Simulated.calm : ¬ Simulated.service.MayCrash := by
  rintro ⟨state, count, crash⟩
  change (state.answer count).1 = .crash at crash
  unfold Simulated.answer at crash
  dsimp only at crash
  split at crash <;> cases crash

namespace Engine

variable {σ τ : Type} {e : Engine σ τ}

theorem Vacant.outstanding (h : e.Vacant) : e.custody.outstanding = [] := by
  have sends : e.custody.sends = [] := List.map_eq_nil_iff.mpr h.sends
  have current : e.custody.current = [] := h.current
  have queue : e.custody.queue = [] := h.queue
  rw [Custody.outstanding, sends, current, queue]
  rfl

end Engine

namespace Bench

open Clock (ceilMillis)

/-! The configuration of a benchmark -/

namespace Options

variable {o : Options} {c : Config}

theorem config_eq (built : o.draft.build true = .ok c) :
    c.thresholds = o.batching.thresholds ∧ c.ceilings = { elements := o.maxOutstanding } ∧
      c.retries = {} ∧ c.ceilings.validate = .ok () := by
  obtain ⟨-, thresholds, ceilings, retries, -, valid, -⟩ :=
    (Draft.build_eq_ok_iff _ _ _).mp built
  exact ⟨thresholds.symm, ceilings.symm, retries.symm, valid⟩

/-- No message is sent more often than this. -/
def mostAttempts : Nat := 14

theorem steady (built : o.draft.build true = .ok c) : c.Steady mostAttempts := by
  obtain ⟨-, ceilings, retries, -⟩ := config_eq built
  refine ⟨by rw [ceilings], ?_, ?_⟩
  · rw [retries]
    decide
  · rw [retries]
    exact RetryPolicy.tires_default

theorem delay_le (built : o.draft.build true = .ok c) :
    ceilMillis c.thresholds.delay.nanos ≤ 50 := by
  rw [(config_eq built).1]
  cases o.batching <;> decide

theorem span_le (built : o.draft.build true = .ok c) : c.span ≤ 60050 := by
  have delay := delay_le built
  have budget : ceilMillis c.retries.totalTimeout.nanos = 60000 := by
    rw [(config_eq built).2.2.1]
    rfl
  unfold Config.span
  omega

theorem lasts (built : o.draft.build true = .ok c) (few : o.messages < maxItems) :
    c.Lasts o.messages := by
  have latest : c.span * (o.messages + 2) ≤ 60050 * (maxItems + 1) :=
    Nat.mul_le_mul (span_le built) (Nat.succ_le_succ few)
  have near : Clock.representable (Clock.instant (60050 * (maxItems + 1))) = true := by
    decide +kernel
  exact Clock.representable_mono (Nat.mul_le_mul_right _ latest) near

theorem room (few : o.messages < maxItems) :
    (effort mostAttempts + 2) * o.messages + 1 ≤ Session.maxTurns := by
  have turns := Nat.mul_le_mul_left (effort mostAttempts + 2) (Nat.le_of_lt few)
  have enough : (effort mostAttempts + 2) * maxItems + 1 ≤ Session.maxTurns := by decide +kernel
  omega

theorem late (built : o.draft.build true = .ok c) (few : o.messages < maxItems) :
    c.span * o.messages + ceilMillis c.thresholds.delay.nanos < Session.maxTurns := by
  have last := Nat.mul_le_mul (span_le built) (Nat.le_of_lt few)
  have delay := delay_le built
  have enough : 60050 * maxItems + 50 < Session.maxTurns := by decide +kernel
  omega

/-- The shares of a run that fits in memory come to all its messages. -/
theorem total_counts (fits : o.fitsMemory = true) (few : o.messages < maxItems) :
    total id o.shares = o.messages := by
  have bounds : o.publishers < maxItems ∧ _ := of_decide_eq_true fits
  have words : maxItems < Nat.pow 2 60 ∧ Nat.pow 2 60 ≤ UInt64.size := by decide
  have publishers : (UInt64.ofNat o.publishers).toNat = o.publishers :=
    UInt64.toNat_ofNat_of_lt' (by omega)
  have messages : (UInt64.ofNat o.messages).toNat = o.messages :=
    UInt64.toNat_ofNat_of_lt' (by omega)
  have short : (UInt64.ofNat o.publishers).toNat < Nat.pow 2 60 := by omega
  obtain ⟨shares, split, same⟩ := splitMessages_eq (.ofNat o.messages) short
  rw [Options.shares, split, Option.getD_some, same, total_shares, messages]

end Options

/-! The course of a run -/

namespace Run

variable {o : Options} {c : Config}

/-- The failures of a run are the handles with errors. -/
theorem countP_isFailure {σ τ : Type} (e : Engine σ τ) :
    e.history.countP isFailure = e.resolved.countP (!·.2.isOk) := by
  rw [Engine.resolved, Engine.events, List.countP_filterMap, List.countP_reverse, List.countP_map]
  congr 1
  funext entry
  obtain ⟨time, happening⟩ := entry
  cases happening with
  | resolved call outcome => cases outcome <;> rfl
  | _ => rfl

/-- A run before the shutdown of the publisher. -/
def beforeShutdown (o : Options) (c : Config) : State :=
  finish c Session.maxTurns
    ((beginAll c ⟨payload o.messageSize, []⟩ o.shares
      (Session.ofEngine (Engine.start c o.service))).settle Simulated.service c)

theorem course_eq (o : Options) (c : Config) :
    course o c = ((beforeShutdown o c).beginShutdown c).settle Simulated.service c := rfl

/-- Before the shutdown every message has its outcome. -/
theorem beforeShutdown_done (built : o.draft.build true = .ok c) (fits : o.fitsMemory = true)
    (few : o.messages < maxItems) :
    (beforeShutdown o c).Ongoing Simulated.service c o.messageSize [] ∧
      (beforeShutdown o c).engine.isSettled = true ∧ isDone (beforeShutdown o c) = true ∧
      (beforeShutdown o c).published = o.messages := by
  obtain ⟨-, ceilings, -, valid⟩ := o.config_eq built
  have steady := o.steady built
  have lasts := o.lasts built few
  have room := o.room few
  have blocks : c.ceilings.behavior = .block := by rw [ceilings]
  have all := o.total_counts fits few
  have sized : Message.size ⟨payload o.messageSize, []⟩ = o.messageSize := size_payload _
  have started : Session.Ongoing Simulated.service c o.messageSize []
      (Session.ofEngine (Engine.start c o.service)) :=
    Session.start_ongoing _ _ (lasts.mono (Nat.zero_le _))
  obtain ⟨begun, load, published⟩ := beginAll_ongoing o.shares started steady blocks sized
    (by rw [all]; exact lasts.mono (Nat.le_of_eq (Nat.zero_add _)))
  rw [all] at load published
  have nothing : Session.load Options.mostAttempts
      (Session.ofEngine (Engine.start c o.service) : State) = 0 := rfl
  have none : (Session.ofEngine (Engine.start c o.service) : State).published = 0 := rfl
  rw [nothing, Nat.zero_add] at load
  rw [none, Nat.zero_add] at published
  obtain ⟨⟨ongoing, same, -⟩, settled⟩ :=
    begun.runReady steady blocks (Nat.le_trans load (Nat.le_of_succ_le room))
  rw [published] at same
  obtain ⟨last, rests, done, still⟩ : _ ∧ _ ∧ isDone (beforeShutdown o c) = true ∧ _ :=
    finish_done ongoing steady blocks valid (by rw [same]; exact room) settled
      (by rw [same]; exact Nat.lt_add_left _ (o.late built few))
  exact ⟨last, rests, done, still.trans same⟩

/-- Then the publisher holds nothing, and shuts down at once. -/
theorem course_engine (built : o.draft.build true = .ok c) (fits : o.fitsMemory = true)
    (few : o.messages < maxItems) :
    (beforeShutdown o c).engine.Vacant ∧
      ∃ call, (course o c).engine =
        Engine.note { (beforeShutdown o c).engine with
            closing := true
            admission := (beforeShutdown o c).engine.admission.close.1
            batching := .ended }
          [.logged none (.shutdownStarted c.topic), .logged none (.shutdownComplete c.topic),
            .shutdownReturned call] := by
  obtain ⟨ongoing, settled, done, -⟩ := beforeShutdown_done built fits few
  obtain ⟨clients, live⟩ := isDone_iff.mp done
  have vacant := ongoing.vacant (o.steady built) settled clients live
  refine ⟨vacant, (beforeShutdown o c).shutdowns, ?_⟩
  rw [course_eq]
  exact Session.shutdown_vacant vacant

theorem course_resolved (built : o.draft.build true = .ok c) (fits : o.fitsMemory = true)
    (few : o.messages < maxItems) :
    (course o c).engine.resolved = (beforeShutdown o c).engine.resolved := by
  obtain ⟨-, call, same⟩ := course_engine built fits few
  rw [same, Engine.resolved_note]
  exact List.append_nil _

theorem course_snapshot (built : o.draft.build true = .ok c) (fits : o.fitsMemory = true)
    (few : o.messages < maxItems) :
    (course o c).engine.snapshot = ⟨(beforeShutdown o c).engine.counters, ⟨0, 0⟩⟩ := by
  obtain ⟨vacant, call, same⟩ := course_engine built fits few
  have reached := (beforeShutdown_done built fits few).1.driven.reachable
  obtain ⟨elements, bytes⟩ := Engine.ledger_eq reached.sound
  rw [vacant.outstanding] at elements bytes
  have ledger := Admission.close_ledger (beforeShutdown o c).engine.admission
  rw [same]
  exact congrArg (Snapshot.mk _) (ledger.trans (congrArg₂ Ledger.mk elements bytes))

/-- The calls that have returned are those of the messages. -/
theorem beforeShutdown_returned (built : o.draft.build true = .ok c) (fits : o.fitsMemory = true)
    (few : o.messages < maxItems) :
    (beforeShutdown o c).engine.returned.Perm (List.range o.messages) := by
  obtain ⟨ongoing, -, done, published⟩ := beforeShutdown_done built fits few
  have numbers := ongoing.counted.numbers
  rw [(isDone_iff.mp done).1, published] at numbers
  simpa using numbers

/-- Every handle has an outcome, and just one. -/
theorem beforeShutdown_resolved (built : o.draft.build true = .ok c) (fits : o.fitsMemory = true)
    (few : o.messages < maxItems) :
    ((beforeShutdown o c).engine.resolved.map Prod.fst).Perm (List.range o.messages) := by
  have returned := beforeShutdown_returned built fits few
  have reached := (beforeShutdown_done built fits few).1.driven.reachable
  have vacant := (course_engine built fits few).1
  have once := returned.nodup_iff.mpr List.nodup_range
  exact (reached.resolved_perm vacant.outstanding once).trans returned

/-- The counters of a run are numbers of handles. -/
theorem beforeShutdown_counters (built : o.draft.build true = .ok c) (fits : o.fitsMemory = true)
    (few : o.messages < maxItems) :
    (beforeShutdown o c).engine.counters.messagesPublished.toNat =
        (beforeShutdown o c).engine.resolved.countP (·.2.isOk) ∧
      (o.messageSize ≤ maxBatchBytes →
        (beforeShutdown o c).engine.counters.messagesFailed.toNat =
          (beforeShutdown o c).engine.resolved.countP (!·.2.isOk)) := by
  obtain ⟨ongoing, -⟩ := beforeShutdown_done built fits few
  have reached := ongoing.driven.reachable
  have alive : (beforeShutdown o c).engine.batching ≠ .killed := by
    rw [(course_engine built fits few).1.running]
    exact nofun
  have all := (beforeShutdown_resolved built fits few).length_eq
  rw [List.length_map, List.length_range] at all
  have exact (q : Nat × Outcome → Bool) :
      (UInt64.ofNat ((beforeShutdown o c).engine.resolved.countP q)).toNat =
        (beforeShutdown o c).engine.resolved.countP q := by
    have some := List.countP_le_length (p := q) (l := (beforeShutdown o c).engine.resolved)
    refine UInt64.toNat_ofNat_of_lt' (Nat.lt_of_le_of_lt (all ▸ some) (Nat.lt_trans few ?_))
    decide +kernel
  refine ⟨?_, fun sendable => ?_⟩
  · rw [reached.published_eq Simulated.calm alive, exact]
  · rw [reached.failed_eq Simulated.calm alive (ongoing.counted.taken sendable), exact]

end Run

/-- Whatever the latency and the rate of outages, a run ends: its shutdown call returns, every
message has got one outcome, and those that were published and the handles that failed are all of
them. The handles of all messages are held at once, so there are no more than fit in memory. -/
theorem Options.run_conserves_messages {o : Options} {c : Config}
    (built : o.draft.build true = .ok c) (fits : o.fitsMemory = true)
    (few : o.messages < maxItems) :
    ∃ r, o.run = .ok r ∧
      r.failed + r.snapshot.counters.messagesPublished.toNat = o.messages ∧
      r.snapshot.ledger = ⟨0, 0⟩ ∧
      (o.messageSize ≤ maxBatchBytes →
        r.snapshot.counters.messagesFailed.toNat = r.failed) ∧
      (Run.course o c).engine.isSettled = true ∧
      (∃ call, .shutdownReturned call ∈ (Run.course o c).engine.events) ∧
      ((Run.course o c).engine.resolved.map Prod.fst).Perm (List.range o.messages) := by
  obtain ⟨vacant, call, same⟩ := Run.course_engine built fits few
  have handles := Run.beforeShutdown_resolved built fits few
  have resolved := Run.course_resolved built fits few
  have snapshot := Run.course_snapshot built fits few
  obtain ⟨published, unpublished⟩ := Run.beforeShutdown_counters built fits few
  have failed := Run.countP_isFailure (Run.course o c).engine
  rw [resolved] at failed
  have all := handles.length_eq
  rw [List.length_map, List.length_range, List.length_eq_countP_add_countP (·.2.isOk)] at all
  simp only [decide_not, Bool.decide_eq_true] at all
  have ran : o.run = .ok {
      elapsed := .ofMillis (Run.course o c).engine.now
      failed := (Run.course o c).engine.history.countP Run.isFailure
      snapshot := (Run.course o c).engine.snapshot } := by
    unfold Options.run
    rw [built]
    exact if_pos fits
  refine ⟨_, ran, ?_, congrArg Snapshot.ledger snapshot, fun sendable => ?_, ?_, ⟨call, ?_⟩, ?_⟩
  · dsimp only
    rw [failed, snapshot, published, Nat.add_comm]
    exact all
  · dsimp only
    rw [failed, snapshot, unpublished sendable]
  · rw [same]
    exact vacant.settled
  · rw [same, Engine.events_note]
    exact List.mem_append_right _ (by simp)
  · rw [resolved]
    exact handles

/-- Seven messages, of which two at a time are outstanding, and a service that is always out. -/
theorem Options.run_conserves_messages_seven :
    ∃ (o : Options) (c : Config) (r : Run), o.messages = 7 ∧ o.publishers = 0 ∧
      o.maxOutstanding = some 2 ∧ o.draft.build true = .ok c ∧ o.fitsMemory = true ∧
      o.messages < maxItems ∧ o.messageSize ≤ maxBatchBytes ∧ o.run = .ok r ∧
      r.failed + r.snapshot.counters.messagesPublished.toNat = 7 ∧
      r.snapshot.ledger = ⟨0, 0⟩ ∧ r.snapshot.counters.messagesFailed.toNat = r.failed := by
  have built : ({
      messages := 7
      publishers := 0
      batching := .lowLatency
      failureRate := ⟨0x3FF0000000000000⟩
      maxOutstanding := some 2 } : Options).draft.build true = .ok _ := rfl
  obtain ⟨r, ran, all, none, failed, -⟩ :=
    run_conserves_messages built (by decide +kernel) (by decide +kernel)
  exact ⟨_, _, r, rfl, rfl, rfl, built, by decide +kernel, by decide +kernel, by decide, ran, all,
    none, failed (by decide)⟩

end Bench
end TopicPublisher
