import TopicPublisher.Proofs.Engine.Attention.Steps
import TopicPublisher.Proofs.Engine.Reception

/-!
The end of an engine. Main statement: when a shutdown call returns, nothing is left to do and
nothing will be done any more; and from the first shutdown call on nothing is admitted.
-/

namespace TopicPublisher

/-- What is done with admitted entries. -/
structure Works (τ : Type) where
  batching : BatchingLife
  sends : List (Sending τ)
  counters : Counters
  calls : List (Nat × Nat × List Message)

namespace Engine

variable {σ τ : Type} {v : Service σ τ} {c : Config} {e f : Engine σ τ} {x : Entry}

def works (e : Engine σ τ) : Works τ where
  batching := e.batching
  sends := e.sends
  counters := e.counters
  calls := e.calls

theorem works_refuse (e : Engine σ τ) (call : Nat) (error : PublishError) :
    (e.refuse call error).works = e.works := by
  rw [refuse_eq, works, calls_note]
  simp [List.filterMap_cons, works, note]

/-! Closing -/

/-- The error of a publish call that comes after a shutdown call. -/
def closedError (x : Entry) : PublishError :=
  if maxBatchBytes < x.size then .messageTooLarge x.size maxBatchBytes else .engineShutdown

theorem publish_closing (closing : e.closing = true) (x : Entry) :
    e.publish x = e.refuse x.id (closedError x) := by
  have arrives := publish_arrives e x
  generalize e.publish x = f at arrives ⊢
  cases arrives with
  | tooLarge large => rw [closedError, if_pos large]
  | late fits _ => rw [closedError, if_neg (Nat.not_lt.mpr fits)]
  | asks _ opened _ => exact nomatch opened.symm.trans closing

/-- A publish call that waited for admission is refused when it looks after a shutdown call. -/
theorem publishingTurn_closing (sound : e.custody.Sound c) (shut : e.admission.Shut true)
    (hx : x ∈ e.blocked) :
    ∃ admission ready, e.publishingTurn x.id =
      { e with
        admission := admission
        blocked := e.blocked.filter (·.id != x.id)
        ready := ready }.refuse x.id .engineShutdown := by
  obtain ⟨r, hr, hid⟩ := exists_waiting sound hx
  have refused : (e.admission.resume x.id).1 = .refused .engineShutdown :=
    hid ▸ sound.balanced.resume_refused shut hr
  have looks := publishingTurn_looks e x.id
  generalize e.publishingTurn x.id = f at looks ⊢
  cases looks with
  | gone gone => exact absurd (List.mem_map_of_mem hx) gone
  | asks y found decided =>
    obtain rfl : x = y := Option.some.inj ((find?_blocked sound hx).symm.trans found)
    rw [refused, wakeCalls_eq] at decided
    cases decided
    exact ⟨_, _, rfl⟩

/-! Quiet engines -/

/-- A shutdown call was made, and neither the batching task nor any task that sends is left. -/
structure Quiet (e : Engine σ τ) : Prop where
  closing : e.closing = true
  stopped : e.batching ≠ .running
  sends : e.sends = []

theorem Quiet.of_drained (closing : e.closing = true) (drained : e.isDrained = true) : e.Quiet := by
  rw [isDrained, Bool.and_eq_true, decide_eq_true_eq, List.isEmpty_iff] at drained
  exact ⟨closing, drained.1, drained.2⟩

theorem run_works (h : Reachable v c e) (quiet : e.Quiet) (t : Task) :
    (e.run v c t).works = e.works := by
  cases t with
  | batching =>
    obtain ⟨ready, same⟩ := run_eq (v := v) (c := c) e .batching
    rw [same, turn, batchingTurn_stopped c (by exact quiet.stopped)]
    rfl
  | sending id =>
    rcases run_sending v c e id with ⟨ready, same, -⟩ | ⟨s, _, _, _, _, here, _⟩
    · rw [same]
      rfl
    · have hs := List.mem_of_find?_eq_some here
      rw [quiet.sends] at hs
      cases hs
  | publishing call =>
    rw [run_publishing]
    by_cases waits : call ∈ e.blocked.map Entry.id
    · obtain ⟨x, hx, rfl⟩ := List.mem_map.mp waits
      obtain ⟨admission, ready, same⟩ := publishingTurn_closing (c := c)
        (e := { e with ready := e.ready.erase (.publishing x.id) }) h.sound
        (quiet.closing ▸ h.shut) hx
      rw [same, works_refuse]
      rfl
    · rw [publishingTurn_gone (e := { e with ready := e.ready.erase (.publishing call) }) waits]
      rfl
  | shutdown call =>
    rw [run_shutdown]
    rcases shutdownTurn_eq { e with ready := e.ready.erase (.shutdown call) } c call with
      ⟨-, same⟩ | ⟨-, -, same⟩
    · rw [same]
      rfl
    · rw [same, works, calls_note]
      simp [works, note, calls, events]

theorem Step.works (h : Reachable v c e) (quiet : e.Quiet) (step : Step v c e f) :
    f.works = e.works := by
  cases step with
  | publish x _ _ _ =>
    rw [publish_closing quiet.closing]
    exact works_refuse e x.id _
  | cancel call _ =>
    rw [cancel_eq]
    rfl
  | clone _ => rfl
  | dropClone _ _ =>
    rw [dropClone_eq]
    rfl
  | shutdown call _ _ _ =>
    rw [shutdown_eq, announced, if_pos quiet.closing]
    rfl
  | pass now _ =>
    rw [moveTo, wakeAll_eq]
    rfl
  | run t _ => exact run_works h quiet t

theorem Step.quiet (h : Reachable v c e) (quiet : e.Quiet) (step : Step v c e f) : f.Quiet where
  closing := (h.visit step).closing quiet.closing
  stopped running :=
    quiet.stopped ((congrArg Works.batching (step.works h quiet)).symm.trans running)
  sends := (congrArg Works.sends (step.works h quiet)).trans quiet.sends

theorem Run.works (h : Reachable v c e) (quiet : e.Quiet) (run : Run v c e f) :
    f.Quiet ∧ f.works = e.works := by
  induction run with
  | refl => exact ⟨quiet, rfl⟩
  | tail before step ih =>
    obtain ⟨quiet, same⟩ := ih
    exact ⟨step.quiet (h.run before) quiet, (step.works (h.run before) quiet).trans same⟩

/-- An engine is quiet once a shutdown call has returned. -/
theorem Reachable.quiet (h : Reachable v c e) (finished : e.finished ≠ []) : e.Quiet := by
  obtain ⟨service, run⟩ := h
  induction run with
  | refl => exact absurd rfl finished
  | @tail g f before step ih =>
    have reached : Reachable v c g := ⟨service, before⟩
    rcases (reached.visit step).finished with same | ⟨drained, asked⟩
    · exact step.quiet reached (ih (same ▸ finished))
    · exact step.quiet reached (.of_drained (reached.orderly.asked asked) drained)

theorem Quiet.outstanding (h : Reachable v c e) (quiet : e.Quiet) : e.custody.outstanding = [] := by
  obtain ⟨current, queue⟩ := h.placed.idle quiet.stopped
  have sends : e.custody.sends = [] := by
    rw [custody, quiet.sends]
    rfl
  rw [Custody.outstanding, sends, current, queue]
  rfl

theorem Quiet.ledger (h : Reachable v c e) (quiet : e.Quiet) : e.admission.ledger = ⟨0, 0⟩ := by
  obtain ⟨elements, bytes⟩ := ledger_eq h.sound
  rw [quiet.outstanding h] at elements bytes
  rw [show e.admission.ledger = ⟨e.admission.ledger.elements, e.admission.ledger.bytes⟩ from rfl,
    elements, bytes]
  rfl

/-! Publish calls after a shutdown call -/

/-- The errors that publish calls return with after a shutdown call. -/
inductive Declines : PublishError → Prop where
  | tooLarge (size : Nat) : maxBatchBytes < size →
      Declines (.messageTooLarge size maxBatchBytes)
  | shutdown : Declines .engineShutdown

theorem Refuses.declines {error : PublishError} (refuses : e.Refuses x error)
    (closing : e.closing = true) : Declines error := by
  cases refuses with
  | tooLarge large => exact .tooLarge _ large
  | noRoom limit opened => exact nomatch closing.symm.trans opened
  | stopped _ => exact .shutdown

theorem Handled.declines (handled : e.Handled x f) (closing : e.closing = true) :
    ∃ error, Declines error ∧ f.admitted = e.admitted ∧ f.returned = e.returned ++ [x.id] ∧
      f.resolved = e.resolved ++ [(x.id, .error error)] := by
  cases handled with
  | admitted opened _ _ _ => exact nomatch closing.symm.trans opened
  | waiting opened _ _ => exact nomatch closing.symm.trans opened
  | refused error refuses same resolved =>
    exact ⟨error, refuses.declines closing, congrArg Desk.admitted same,
      congrArg Desk.returned same, resolved⟩

theorem Visit.declines (visit : Visit v c e f) (closing : e.closing = true) :
    f.admitted = e.admitted ∧ (f.returned = e.returned ∨ ∃ call error, Declines error ∧
      f.returned = e.returned ++ [call] ∧ (call, .error error) ∈ f.resolved) := by
  cases visit with
  | inner _ same | cancel _ same _ | clones _ _ _ same _ | shutdown _ _ _ same _
  | finish _ _ _ same _ =>
    exact ⟨congrArg Desk.admitted same, .inl (congrArg Desk.returned same)⟩
  | arrive x _ _ handled | resume x _ handled =>
    obtain ⟨error, declines, admitted, returned, resolved⟩ := handled.declines closing
    exact ⟨admitted, .inr ⟨x.id, error, declines, returned, resolved ▸ List.mem_concat_self⟩⟩

theorem Run.declines (h : Reachable v c e) (closing : e.closing = true) (run : Run v c e f) :
    f.closing = true ∧ f.admitted = e.admitted ∧ ∀ call ∈ f.returned, call ∈ e.returned ∨
      ∃ error, Declines error ∧ (call, .error error) ∈ f.resolved := by
  induction run with
  | refl => exact ⟨closing, rfl, fun _ returned => .inl returned⟩
  | @tail g f before step ih =>
    obtain ⟨closing, admitted, declined⟩ := ih
    have reached := h.run before
    have visit := reached.visit step
    obtain ⟨same, returns⟩ := visit.declines closing
    have grows : g.resolved ⊆ f.resolved := (step.moves reached.sound).grows.1
    have before : ∀ call ∈ g.returned, call ∈ e.returned ∨
        ∃ error, Declines error ∧ (call, .error error) ∈ f.resolved := fun call hc =>
      (declined call hc).imp_right fun ⟨error, declines, given⟩ => ⟨error, declines, grows given⟩
    refine ⟨visit.closing closing, same.trans admitted, fun call hc => ?_⟩
    rcases returns with returned | ⟨other, error, declines, returned, resolved⟩
    · exact before call (returned ▸ hc)
    · rw [returned] at hc
      rcases List.mem_append.mp hc with hc | hc
      · exact before call hc
      · obtain rfl := List.mem_singleton.mp hc
        exact .inr ⟨error, declines, resolved⟩

theorem outcomeOf_refuse {call : Nat} {error : PublishError}
    (kept : (e.refuse call error).custody.Kept) : call ∈ (e.refuse call error).returned ∧
      (e.refuse call error).outcomeOf call = some (.error error) := by
  refine ⟨?_, outcomeOf_eq_some kept ?_⟩
  · rw [refuse_eq, returned_note]
    simp
  · rw [resolved_refuse]
    exact List.mem_concat_self

/-- A publish call that waits when a shutdown call is made can go on. -/
theorem Reachable.blocked_ready (h : Reachable v c e) (closing : e.closing = true)
    (hx : x ∈ e.blocked) : .publishing x.id ∈ e.ready := by
  rcases h.heeds (.publishing x.id) with ready | idle
  · exact ready
  · obtain ⟨r, hr, same⟩ := exists_waiting h.sound hx
    have told := h.sound.balanced.all_told h.tight (closing ▸ h.shut) hr
    exact absurd (same ▸ told) idle

theorem Reachable.blocked_refused (h : Reachable v c e) (closing : e.closing = true)
    (hx : x ∈ e.blocked) : x.id ∈ (e.run v c (.publishing x.id)).returned ∧
      (e.run v c (.publishing x.id)).outcomeOf x.id = some (.error .engineShutdown) := by
  have kept := (h.step (.run _ (h.blocked_ready closing hx))).sound.kept
  rw [run_publishing] at kept ⊢
  obtain ⟨admission, ready, same⟩ := publishingTurn_closing (c := c)
    (e := { e with ready := e.ready.erase (.publishing x.id) }) h.sound (closing ▸ h.shut) hx
  rw [same] at kept ⊢
  exact outcomeOf_refuse kept

/-- A shutdown call that waits when everything has ended can go on, and then returns. -/
theorem Reachable.shutdown_returns (h : Reachable v c e) (drained : e.isDrained = true)
    {s : Nat × Nat} (hs : s ∈ e.shutdowns) : .shutdown s.1 ∈ e.ready ∧
      .shutdownReturned s.1 ∈ (e.run v c (.shutdown s.1)).events := by
  refine ⟨(h.heeds (.shutdown s.1)).resolve_right fun idle =>
    idle drained (List.mem_map_of_mem hs), ?_⟩
  rw [run_shutdown]
  rcases shutdownTurn_eq { e with ready := e.ready.erase (.shutdown s.1) } c s.1 with
    ⟨unasked, -⟩ | ⟨-, -, same⟩
  · exact absurd (List.mem_map_of_mem hs) (unasked drained)
  · rw [same, events_note]
    exact List.mem_append_right _ (List.mem_cons_of_mem _ (List.mem_singleton_self _))

/-- Where nothing can go on after a shutdown call, the batching task has ended, and shutdown calls
wait only for batches that are being sent. -/
theorem Reachable.closing_settled (h : Reachable v c e) (closing : e.closing = true)
    (settled : e.isSettled = true) :
    e.batching ≠ .running ∧ (e.sends = [] → e.shutdowns = []) := by
  have stopped : e.batching ≠ .running := fun running =>
    absurd closing (Bool.eq_false_iff.mp (h.idle settled .batching running).1)
  refine ⟨stopped, fun none => List.eq_nil_iff_forall_not_mem.mpr fun s hs => ?_⟩
  have drained : e.isDrained = true := by simp [isDrained, stopped, none]
  exact h.idle settled (.shutdown s.1) drained (List.mem_map_of_mem hs)

/-- Under any configuration, whatever the service does, and however many shutdown calls are made:
once one of them has returned, the batching task has ended, no batch is being sent, nothing is
outstanding, and every handle has its outcome; from then on no call of the service is made and no
number of the statistics changes. After a shutdown call was made, nothing is admitted: publish
calls that return later return handles that have failed, a new one at once, and one that waits with
its next turn, which it can take. Shutdown calls wait only for batches that are being sent: when
everything has ended, every one that waits can take its turn, and returns with it. -/
theorem shutdown_drains (h : Reachable v c e) :
    (∀ call, .shutdownReturned call ∈ e.events →
      e.batching ≠ .running ∧ e.sends = [] ∧ e.snapshot.ledger = ⟨0, 0⟩ ∧
        (∀ call ∈ e.returned, (e.outcomeOf call).isSome = true) ∧
        ∀ f, Run v c e f → f.calls = e.calls ∧ f.snapshot = e.snapshot) ∧
      ∀ call f, 0 < e.clones → call ∉ e.shutdowns.map Prod.fst →
        .shutdownReturned call ∉ e.events → Run v c (e.shutdown c call) f →
        f.admitted = e.admitted ∧
          (∀ call ∈ f.returned, call ∈ e.returned ∨
            ∃ error, Declines error ∧ f.outcomeOf call = some (.error error)) ∧
          (∀ x, 0 < f.clones → x.id ∉ f.returned → x.id ∉ f.blocked.map Entry.id →
            x.id ∈ (f.publish x).returned ∧ (f.publish x).outcomeOf x.id =
              some (.error (if maxBatchBytes < x.size then .messageTooLarge x.size maxBatchBytes
                else .engineShutdown))) ∧
          (∀ x ∈ f.blocked, .publishing x.id ∈ f.ready ∧
            x.id ∈ (f.run v c (.publishing x.id)).returned ∧
            (f.run v c (.publishing x.id)).outcomeOf x.id = some (.error .engineShutdown)) ∧
          (f.isDrained = true → ∀ s ∈ f.shutdowns, .shutdown s.1 ∈ f.ready ∧
            .shutdownReturned s.1 ∈ (f.run v c (.shutdown s.1)).events) ∧
          (f.isSettled = true → f.batching ≠ .running ∧ (f.sends = [] → f.shutdowns = [])) := by
  refine ⟨fun call finished => ?_, fun call f clones new unfinished run => ?_⟩
  · have quiet := h.quiet (List.ne_nil_of_mem (mem_finished.mpr finished))
    have done := quiet.outstanding h
    refine ⟨quiet.stopped, quiet.sends, quiet.ledger h, fun _ => h.answered done, fun f run => ?_⟩
    obtain ⟨still, works⟩ := run.works h quiet
    refine ⟨congrArg Works.calls works, ?_⟩
    rw [snapshot, snapshot, still.ledger (h.run run), quiet.ledger h]
    exact congrArg (Snapshot.mk · ⟨0, 0⟩) (congrArg Works.counters works)
  · have begun : Reachable v c (e.shutdown c call) := h.step (.shutdown call clones new unfinished)
    have desk := desk_shutdown e c call
    obtain ⟨closing, admitted, declined⟩ :=
      Run.declines begun (congrArg Desk.closing desk) run
    have reached := begun.run run
    refine ⟨admitted.trans (congrArg Desk.admitted desk), fun other ho => ?_,
      fun x held unreturned unused => ?_, fun x hx => ?_, fun drained s hs => ?_,
      fun settled => reached.closing_settled closing settled⟩
    · rw [show (e.shutdown c call).returned = e.returned from congrArg Desk.returned desk]
        at declined
      refine (declined other ho).imp_right fun ⟨error, declines, given⟩ => ?_
      exact ⟨error, declines, outcomeOf_eq_some reached.sound.kept given⟩
    · have kept := (reached.step (.publish x held unreturned unused)).sound.kept
      rw [publish_closing closing] at kept ⊢
      exact outcomeOf_refuse kept
    · exact ⟨reached.blocked_ready closing hx, reached.blocked_refused closing hx⟩
    · exact reached.shutdown_returns drained hs

/-- One element at a time: while the first message is in the open batch and the second publish call
waits, a shutdown call is made. The first message is published, the second is not admitted. -/
theorem shutdown_drains_one_waiting :
    ∃ (v : Service Unit Unit) (c : Config) (e f : Engine Unit Unit),
      Reachable v c e ∧ e.blocked.map Entry.id = [1] ∧ Run v c (e.shutdown c 9) f ∧
      .shutdownReturned 9 ∈ f.events ∧ f.snapshot.ledger = ⟨0, 0⟩ ∧ f.admitted = e.admitted ∧
      f.outcomeOf 0 = some (.ok "7") ∧ f.outcomeOf 1 = some (.error .engineShutdown) := by
  have started : Reachable
      (⟨fun _ _ => (some 0, (), ()), fun _ _ => (.ids ["7"], ())⟩ : Service Unit Unit)
      { topic := ⟨"project", "topic"⟩, thresholds := ⟨10, 10, ⟨5000000⟩⟩
        ceilings := { elements := some 1 } } _ := .init ()
  have first := started.step (.publish ⟨0, ⟨⟨#[1, 2]⟩, []⟩⟩ (by decide) (by decide) (by decide))
  have second := first.step (.publish ⟨1, ⟨⟨#[3]⟩, []⟩⟩ (by decide) (by decide) (by decide))
  have opened := second.step (.run .batching (by decide))
  have asked := opened.step
    (.shutdown 9 (by decide) (by decide) (mem_finished.not.mp (by decide)))
  have run {v : Service Unit Unit} {c : Config} {e : Engine Unit Unit} (_ : Reachable v c e) :
      Run v c e e := .refl
  have refused := (run asked).tail (.run (.publishing 1) (by decide))
  have closed := refused.tail (.run .batching (by decide))
  have called := closed.tail (.run (.sending 0) (by decide))
  have answered := called.tail (.run (.sending 0) (by decide))
  have finished := answered.tail (.run (.shutdown 9) (by decide))
  obtain ⟨-, after⟩ := shutdown_drains opened
  obtain ⟨drained, -⟩ := shutdown_drains (asked.run finished)
  obtain ⟨-, -, empty, -⟩ := drained 9 (mem_finished.mp (by decide))
  obtain ⟨admitted, -⟩ := after 9 _ (by decide) (by decide)
    (mem_finished.not.mp (by decide)) finished
  exact ⟨_, _, _, _, opened, by decide, finished, mem_finished.mp (by decide), empty, admitted,
    by decide, by decide⟩

end Engine
end TopicPublisher
