import TopicPublisher.Proofs.Engine.Places
import TopicPublisher.Proofs.Engine.Sides

/-!
What becomes of publish calls. Whenever a publish call is looked at, it returns with its message
admitted, returns with a handle that has failed, or waits. The reasons for a failure are few, and
each of them says something about the message or the engine.
-/

namespace TopicPublisher

theorem Admission.shut_iff {a : Admission} {closed : Bool} : a.Shut closed ↔
    (∀ b ∈ a.doors.1, b = closed) ∧ ∀ b ∈ a.doors.2, b = closed := by
  simp [doors, Shut, Both]

/-- Admission is closed with the engine, which is closing while a shutdown call waits, and whoever
waits holds a clone. -/
structure Desk.Orderly (d : Desk) : Prop where
  shut : (∀ b ∈ d.doors.1, b = d.closing) ∧ ∀ b ∈ d.doors.2, b = d.closing
  asked : d.shutdowns ≠ [] → d.closing = true
  alone : d.clones = 0 → d.blocked = [] ∧ d.shutdowns = []

namespace Engine

variable {σ τ : Type} {v : Service σ τ} {c : Config} {e f g : Engine σ τ} {x : Entry}

/-- The reasons to refuse a publish call. -/
inductive Refuses (e : Engine σ τ) (x : Entry) : PublishError → Prop where
  | tooLarge : maxBatchBytes < x.size → Refuses e x (.messageTooLarge x.size maxBatchBytes)
  | noRoom (limit : Limit) : e.closing = false → Refuses e x (.admissionRejected limit)
  | stopped : e.closing = true ∨ e.batching ≠ .running → Refuses e x .engineShutdown

/-- What becomes of a publish call that is looked at. -/
inductive Handled (e : Engine σ τ) (x : Entry) (f : Engine σ τ) : Prop where
  | admitted : e.closing = false → e.batching = .running →
      f.desk = { e.desk with returned := e.returned ++ [x.id], admitted := e.admitted ++ [x] } →
      f.resolved = e.resolved → Handled e x f
  | waiting : e.closing = false → f.desk = { e.desk with blocked := e.blocked ++ [x] } →
      f.resolved = e.resolved → Handled e x f
  | refused (error : PublishError) : e.Refuses x error →
      f.desk = { e.desk with returned := e.returned ++ [x.id] } →
      f.resolved = e.resolved ++ [(x.id, .error error)] → Handled e x f

theorem Refuses.congr {error : PublishError} (h : e.Refuses x error)
    (closing : f.closing = e.closing) (batching : f.batching = e.batching) :
    f.Refuses x error := by
  cases h with
  | tooLarge large => exact .tooLarge large
  | noRoom limit opened => exact .noRoom limit (closing.trans opened)
  | stopped why => exact .stopped (closing ▸ batching ▸ why)

/-- Only the desk, the outcomes so far and the life of the batching task matter. -/
theorem Handled.congr (h : f.Handled x g) (desk : f.desk = e.desk)
    (resolved : f.resolved = e.resolved) (batching : f.batching = e.batching) :
    e.Handled x g := by
  have closing : f.closing = e.closing := congrArg Desk.closing desk
  have blocked : f.blocked = e.blocked := congrArg Desk.blocked desk
  have returned : f.returned = e.returned := congrArg Desk.returned desk
  have admitted : f.admitted = e.admitted := congrArg Desk.admitted desk
  cases h with
  | admitted opened running hd hr =>
    rw [desk, returned, admitted] at hd
    exact .admitted (closing ▸ opened) (batching ▸ running) hd (resolved ▸ hr)
  | waiting opened hd hr =>
    rw [desk, blocked] at hd
    exact .waiting (closing ▸ opened) hd (resolved ▸ hr)
  | refused error reason hd hr =>
    rw [desk, returned] at hd
    exact .refused error (reason.congr closing.symm batching.symm) hd (resolved ▸ hr)

theorem desk_refuse (e : Engine σ τ) (call : Nat) (error : PublishError) :
    (e.refuse call error).desk = { e.desk with returned := e.returned ++ [call] } := by
  rw [refuse_eq, desk_note]
  simp [Desk.note, List.filterMap_cons, desk]

theorem resolved_refuse (e : Engine σ τ) (call : Nat) (error : PublishError) :
    (e.refuse call error).resolved = e.resolved ++ [(call, .error error)] := by
  rw [refuse_eq, resolved_note]
  simp [List.filterMap_cons]

theorem refuse_handled {error : PublishError} (reason : e.Refuses x error) :
    e.Handled x (e.refuse x.id error) :=
  .refused error reason (desk_refuse e x.id error) (resolved_refuse e x.id error)

theorem resolved_releaseCall (e : Engine σ τ) (call : Nat) :
    (e.releaseCall call).resolved = e.resolved := by
  rw [releaseCall_eq, resolved_note]
  exact List.append_nil _

theorem desk_releaseCall (e : Engine σ τ) (call : Nat) : (e.releaseCall call).desk = e.desk := by
  rw [releaseCall_eq, 
    desk_note_inner _ _ (List.forall_mem_singleton.mpr ⟨rfl, rfl, rfl⟩), desk]
  dsimp only
  rw [(Admission.release_changed e.admission call).doors]
  rfl

/-- What admission decides about a publish call is carried out, unless the engine has stopped. -/
theorem Decided.handled {d : Decision} (decided : Decided e x d f)
    (waits : d = .waiting → e.closing = false)
    (refused : ∀ error, d = .refused error → e.Refuses x error) : e.Handled x f := by
  cases decided with
  | waits => exact .waiting (waits rfl) rfl rfl
  | refused error =>
    have reason := refused error rfl
    exact Handled.congr (refuse_handled (reason.congr rfl rfl)) rfl rfl rfl
  | accepted opened running =>
    rw [wake_eq]
    refine .admitted opened running ?_ ?_
    · rw [desk_note]
      simp [Desk.note, List.filterMap_cons, desk, finished, returned, admitted, events]
    · simp [resolved, events, note]
  | late closing =>
    have same : (e.releaseCall x.id).closing = e.closing :=
      congrArg Desk.closing (desk_releaseCall e x.id)
    exact (refuse_handled (.stopped (.inl (same.trans closing)))).congr
      (desk_releaseCall e x.id) (resolved_releaseCall e x.id)
      (congrArg Workbench.batching (releaseCall_byCall e x.id).bench)
  | orphaned _ stopped =>
    rw [resolve, record_eq, note_note]
    refine .refused .engineShutdown (.stopped (.inr stopped)) ?_ ?_
    · rw [desk_note, desk_releaseCall]
      simp [Desk.note, List.filterMap_cons, desk]
    · rw [resolved_note, resolved_releaseCall]
      simp [List.filterMap_cons]

/-- A change of admission that closes nothing and wakes some calls is not seen at the desk. -/
theorem desk_admission {a : Admission} {told : List Nat} {ready : List Task}
    (changed : Admission.Changed told e.admission a) :
    ({ e with admission := a, ready := ready }).desk = e.desk := by
  rw [desk]
  dsimp only
  rw [changed.doors]
  rfl

/-- A new publish call is admitted, waits, or is refused for a reason. -/
theorem publish_handled (shut : e.admission.Shut e.closing) (x : Entry) :
    e.Handled x (e.publish x) := by
  have arrives := publish_arrives e x
  generalize e.publish x = f at arrives ⊢
  cases arrives with
  | tooLarge large => exact refuse_handled (.tooLarge large)
  | late _ closing => exact refuse_handled (.stopped (.inl closing))
  | asks _ opened decided =>
    have changed := Admission.reserve_changed e.admission x.id x.size
    rw [wakeCalls_eq] at decided
    refine (decided.handled (fun _ => opened) fun error refused => ?_).congr ?_ rfl rfl
    · obtain ⟨limit, rfl⟩ := Admission.reserve_open (opened ▸ shut) refused
      exact .noRoom limit opened
    · exact desk_admission changed

theorem exists_waiting (sound : e.custody.Sound c) (hx : x ∈ e.blocked) :
    ∃ r ∈ e.admission.waiting, r.id = x.id := by
  obtain ⟨r, hr, same⟩ :=
    List.mem_map.mp (sound.kept.asked.symm.subset (List.mem_map_of_mem hx))
  exact ⟨r, hr, congrArg Reservation.id same⟩

theorem publishingTurn_gone {call : Nat} (gone : call ∉ e.blocked.map Entry.id) :
    e.publishingTurn call = e := by
  have looks := publishingTurn_looks e call
  generalize e.publishingTurn call = f at looks ⊢
  cases looks with
  | gone _ => rfl
  | asks x found _ =>
    have here : x.id = call := by simpa using List.find?_some found
    exact absurd (here ▸ List.mem_map_of_mem (List.mem_of_find?_eq_some found)) gone

theorem find?_blocked (sound : e.custody.Sound c) (hx : x ∈ e.blocked) :
    e.blocked.find? (·.id == x.id) = some x := by
  have apart : (e.blocked.map Entry.id).Nodup := sound.kept.apart
  exact find?_key apart hx

/-- A waiting publish call that is looked at is admitted, waits on, or is refused because the
engine is closing. -/
theorem publishingTurn_handled (sound : e.custody.Sound c) (tight : e.admission.Tight)
    (shut : e.admission.Shut e.closing) (hx : x ∈ e.blocked) :
    Handled { e with blocked := e.blocked.filter (·.id != x.id) } x (e.publishingTurn x.id) := by
  obtain ⟨r, hr, hid⟩ := exists_waiting sound hx
  have changed := Admission.resume_changed tight x.id
  have refused (closing : e.closing = true) :
      (e.admission.resume x.id).1 = .refused .engineShutdown :=
    hid ▸ sound.balanced.resume_refused (closing ▸ shut) hr
  have looks := publishingTurn_looks e x.id
  generalize e.publishingTurn x.id = f at looks ⊢
  cases looks with
  | gone gone => exact absurd (List.mem_map_of_mem hx) gone
  | asks y found decided =>
    obtain rfl : x = y := Option.some.inj ((find?_blocked sound hx).symm.trans found)
    rw [wakeCalls_eq] at decided
    refine (decided.handled (fun waits => ?_) fun error why => ?_).congr ?_ rfl rfl
    · refine Bool.eq_false_iff.mpr fun closing => ?_
      rw [refused closing] at waits
      cases waits
    · have closing : e.closing = true := by
        by_contra opened
        exact Admission.resume_open tight (Bool.eq_false_iff.mpr opened ▸ shut) x.id why
      rw [refused closing] at why
      cases why
      exact .stopped (.inl closing)
    · exact desk_admission (e := { e with blocked := e.blocked.filter (·.id != x.id) }) changed

/-! Other calls -/

theorem desk_cancel (e : Engine σ τ) (call : Nat) :
    (e.cancel call).desk = { e.desk with blocked := e.blocked.filter (·.id != call) } :=
  (congrArg desk (cancel_eq e call)).trans (desk_admission
    (e := { e with blocked := e.blocked.filter (·.id != call) })
    (Admission.cancel_changed e.admission call))

theorem resolved_cancel (e : Engine σ τ) (call : Nat) : (e.cancel call).resolved = e.resolved := by
  rw [cancel_eq]
  rfl

theorem desk_shutdown (e : Engine σ τ) (c : Config) (call : Nat) :
    (e.shutdown c call).desk =
      { e.desk with
        closing := true
        shutdowns := e.shutdowns ++ [(call, e.now)]
        doors := e.admission.close.1.doors } := by
  have inner : (e.note (e.announced c)).desk = e.desk :=
    desk_note_inner e _ fun h hh => mem_announced hh ▸ ⟨rfl, rfl, rfl⟩
  rw [shutdown_eq, ← inner]
  rfl

theorem resolved_shutdown (e : Engine σ τ) (c : Config) (call : Nat) :
    (e.shutdown c call).resolved = e.resolved := by
  have none : (e.announced c).filterMap Happening.resolved? = [] :=
    List.filterMap_eq_nil_iff.mpr fun h hh => mem_announced hh ▸ rfl
  have noted := resolved_note e (e.announced c)
  rw [none, List.append_nil] at noted
  rw [shutdown_eq]
  exact noted

/-! Steps -/

/-- What a step can do at the desk. Only the tasks that batch and send give outcomes without it. -/
inductive Visit (v : Service σ τ) (c : Config) (e f : Engine σ τ) : Prop where
  | inner : f = e.run v c .batching ∨ (∃ id, f = e.run v c (.sending id)) ∨
      f.resolved = e.resolved → f.desk = e.desk → Visit v c e f
  | arrive (x : Entry) : 0 < e.clones → x.id ∉ e.returned → e.Handled x f → Visit v c e f
  | resume (x : Entry) : x ∈ e.blocked →
      Handled { e with blocked := e.blocked.filter (·.id != x.id) } x f → Visit v c e f
  | cancel (call : Nat) : f.desk = { e.desk with blocked := e.blocked.filter (·.id != call) } →
      f.resolved = e.resolved → Visit v c e f
  | clones (clones : Nat) : 0 < e.clones →
      (clones = 0 → e.blocked = [] ∧ e.shutdowns = []) →
      f.desk = { e.desk with clones := clones } → f.resolved = e.resolved → Visit v c e f
  | shutdown (call : Nat) : 0 < e.clones → f.admission.Shut true → f.desk =
      { e.desk with
        closing := true
        shutdowns := e.shutdowns ++ [(call, e.now)]
        doors := f.admission.doors } → f.resolved = e.resolved → Visit v c e f
  | finish (call : Nat) : e.isDrained = true → call ∈ e.shutdowns.map Prod.fst → f.desk =
      { e.desk with
        shutdowns := e.shutdowns.filter (·.1 != call)
        finished := e.finished ++ [call] } → f.resolved = e.resolved → Visit v c e f

theorem Step.visit (sound : e.custody.Sound c) (tight : e.admission.Tight)
    (shut : e.admission.Shut e.closing) (step : Step v c e f) : Visit v c e f := by
  cases step with
  | publish x clones new _ => exact .arrive x clones new (publish_handled shut x)
  | cancel call _ => exact .cancel call (desk_cancel e call) (resolved_cancel e call)
  | clone clones => exact .clones (e.clones + 1) clones nofun rfl rfl
  | dropClone clones last =>
    rw [dropClone_eq]
    exact .clones (e.clones - 1) clones (fun none => last (by omega)) rfl rfl
  | shutdown call clones _ _ =>
    have admission : (e.shutdown c call).admission = e.admission.close.1 := by rw [shutdown_eq]
    refine .shutdown call clones ?_ ?_ (resolved_shutdown e c call)
    · exact admission ▸ Admission.close_shut e.admission
    · exact admission ▸ desk_shutdown e c call
  | pass now _ =>
    refine .inner (.inr (.inr ?_)) (desk_moveTo e now)
    rw [moveTo, wakeAll_eq]
    rfl
  | run t _ =>
    cases t with
    | batching => exact .inner (.inl rfl) (desk_run_batching e)
    | sending id => exact .inner (.inr (.inl ⟨id, rfl⟩)) (desk_run_sending e id)
    | publishing call =>
      rw [run_publishing]
      by_cases waits : call ∈ e.blocked.map Entry.id
      · obtain ⟨x, hx, rfl⟩ := List.mem_map.mp waits
        refine .resume x hx ?_
        exact (publishingTurn_handled (e := { e with ready := e.ready.erase (.publishing x.id) })
          sound tight shut hx).congr rfl rfl rfl
      · rw [publishingTurn_gone (e := { e with ready := e.ready.erase (.publishing call) }) waits]
        exact .inner (.inr (.inr rfl)) rfl
    | shutdown call =>
      rw [run_shutdown]
      rcases shutdownTurn_eq { e with ready := e.ready.erase (.shutdown call) } c call with
        ⟨-, same⟩ | ⟨drained, asked, same⟩
      · rw [same]
        exact .inner (.inr (.inr rfl)) rfl
      · rw [same]
        refine .finish call drained asked ?_ ?_
        · rw [desk_note]
          simp [Desk.note, List.filterMap_cons, desk, finished, returned, admitted, events]
        · rw [resolved_note]
          exact List.append_nil _

/-! Runs -/

/-- Nothing but calls and entries changes at the desk when a publish call is handled. -/
theorem Handled.desk (h : e.Handled x f) :
    ∃ blocked returned admitted, f.desk =
      { e.desk with blocked := blocked, returned := returned, admitted := admitted } := by
  cases h with
  | admitted _ _ same _ => exact ⟨_, _, _, same⟩
  | waiting _ same _ => exact ⟨_, _, _, same⟩
  | refused _ _ same _ => exact ⟨_, _, _, same⟩

theorem Visit.orderly (visit : Visit v c e f) (h : e.desk.Orderly) : f.desk.Orderly := by
  cases visit with
  | inner _ same => exact same ▸ h
  | arrive x clones _ handled =>
    obtain ⟨blocked, returned, admitted, same⟩ := handled.desk
    rw [same]
    exact { h with alone := fun none => absurd none (Nat.ne_of_gt clones) }
  | resume x hx handled =>
    obtain ⟨blocked, returned, admitted, same⟩ := handled.desk
    rw [same]
    exact { h with alone := fun none => absurd (h.alone none).1 (List.ne_nil_of_mem hx) }
  | cancel call same _ =>
    rw [same]
    refine { h with alone := fun none => ?_ }
    obtain ⟨blocked, shutdowns⟩ := h.alone none
    exact ⟨by rw [show e.blocked = [] from blocked]; rfl, shutdowns⟩
  | clones clones _ alone same _ =>
    rw [same]
    exact { h with alone := alone }
  | shutdown call clones shut same _ =>
    rw [same]
    exact ⟨Admission.shut_iff.mp shut, fun _ => rfl, fun none => absurd none (Nat.ne_of_gt clones)⟩
  | finish call _ asked same _ =>
    rw [same]
    refine { h with asked := fun more => h.asked fun none => ?_, alone := fun none => ?_ }
    · rw [show e.shutdowns = [] from none] at asked
      cases asked
    · rw [show e.shutdowns = [] from (h.alone none).2] at asked
      cases asked

theorem Visit.closing (visit : Visit v c e f) (closing : e.closing = true) : f.closing = true := by
  cases visit with
  | inner _ same | cancel _ same _ | clones _ _ _ same _ | finish _ _ _ same _ =>
    exact (congrArg Desk.closing same).trans closing
  | arrive x _ _ handled | resume x _ handled =>
    obtain ⟨blocked, returned, admitted, same⟩ := handled.desk
    exact (congrArg Desk.closing same).trans closing
  | shutdown call _ _ same _ => exact congrArg Desk.closing same

/-- A shutdown call that returns was waiting, and finds that everything has ended. -/
theorem Visit.finished (visit : Visit v c e f) :
    f.finished = e.finished ∨ e.isDrained = true ∧ e.shutdowns ≠ [] := by
  cases visit with
  | inner _ same | cancel _ same _ | clones _ _ _ same _ | shutdown _ _ _ same _ =>
    exact .inl (congrArg Desk.finished same)
  | arrive x _ _ handled | resume x _ handled =>
    obtain ⟨blocked, returned, admitted, same⟩ := handled.desk
    exact .inl (congrArg Desk.finished same)
  | finish call drained asked _ _ =>
    refine .inr ⟨drained, fun none => ?_⟩
    rw [none] at asked
    cases asked

theorem start_orderly (c : Config) (service : σ) : (start c service : Engine σ τ).desk.Orderly :=
  ⟨Admission.shut_iff.mp (Admission.ofCeilings_shut c.ceilings), nofun, nofun⟩

/-- The desk of every reachable engine is in order. -/
theorem Reachable.orderly (h : Reachable v c e) : e.desk.Orderly := by
  obtain ⟨service, run⟩ := h
  induction run with
  | refl => exact start_orderly c service
  | tail before step ih =>
    have reached : Reachable v c _ := ⟨service, before⟩
    exact (step.visit reached.sound reached.tight (Admission.shut_iff.mpr ih.shut)).orderly ih

theorem Reachable.shut (h : Reachable v c e) : e.admission.Shut e.closing :=
  Admission.shut_iff.mpr h.orderly.shut

theorem Reachable.visit (h : Reachable v c e) (step : Step v c e f) : Visit v c e f :=
  step.visit h.sound h.tight h.shut

end Engine
end TopicPublisher
