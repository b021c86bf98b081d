import TopicPublisher.Proofs.Engine.Places

/-!
No task is forgotten. At every moment each task is ready, or cannot go on before something else
happens: the batching task without entries and before its deadline, the sending of a batch before
the end of its wait, a publish call that was not told to go on, and a shutdown call while anything
is left to do. Calls of the users make ready what they let go on.
-/

namespace TopicPublisher

theorem mem_enlist {t : Task} {ready woken : List Task} :
    t ∈ enlist ready woken ↔ t ∈ ready ∨ t ∈ woken := by
  unfold enlist
  induction woken generalizing ready with
  | nil => simp
  | cons u rest ih =>
    rw [List.foldl_cons, ih]
    split
    · next there =>
      rw [List.mem_cons]
      constructor
      · exact Or.imp_right .inr
      · rintro (h | rfl | h)
        · exact .inl h
        · exact .inl there
        · exact .inr h
    · rw [List.mem_append, List.mem_singleton, List.mem_cons, or_assoc]

namespace Engine

variable {σ τ : Type} {c : Config} {e f : Engine σ τ} {t : Task} {x : Entry}

/-- The sending of a batch waits for a time that has not come. -/
def Sending.Waits (s : Sending τ) (now : Nat) : Prop :=
  ∃ wake, s.phase.wake? = some wake ∧ now < wake

/-- The task cannot go on now. -/
def Idle (e : Engine σ τ) : Task → Prop
  | .batching => e.batching = .running → e.closing = false ∧ e.clones ≠ 0 ∧
      e.queue.toList = [] ∧ ∀ wake, e.batchingWake? = some wake → e.now < wake
  | .sending id => ∀ s ∈ e.sends, s.id = id → Sending.Waits s e.now
  | .publishing call => call ∉ e.admission.told
  | .shutdown call => e.isDrained = true → call ∉ e.shutdowns.map Prod.fst

/-- The task is ready, or could not go on if it were. -/
def Heeded (e : Engine σ τ) (t : Task) : Prop := t ∈ e.ready ∨ e.Idle t

/-! Operations -/

theorem heeded_note (hs : List Happening) : (e.note hs).Heeded t ↔ e.Heeded t := by
  cases t <;> exact Iff.rfl

theorem heeded_record (h : e.Heeded t) (happening : Happening) :
    (e.record happening).Heeded t :=
  (heeded_note [happening]).mpr h

theorem heeded_wakeAll {ts : List Task} (h : t ∈ ts ∨ e.Heeded t) : (e.wakeAll ts).Heeded t := by
  rw [wakeAll_eq]
  rcases h with woken | ready | idle
  · exact .inl (mem_enlist.mpr (.inr woken))
  · exact .inl (mem_enlist.mpr (.inl ready))
  · cases t <;> exact .inr idle

theorem heeded_wake {u : Task} (h : t ≠ u → e.Heeded t) : (e.wake u).Heeded t := by
  change (e.wakeAll [u]).Heeded t
  refine heeded_wakeAll ?_
  by_cases same : t = u
  · exact .inl (List.mem_singleton.mpr same)
  · exact .inr (h same)

/-- A shutdown call that can go on is woken. -/
theorem heeded_wakeShutdowns (h : (∀ call, t ≠ .shutdown call) → e.Heeded t) :
    e.wakeShutdowns.Heeded t := by
  cases t with
  | shutdown call =>
    unfold wakeShutdowns
    split
    · refine heeded_wakeAll ?_
      by_cases asked : call ∈ e.shutdowns.map Prod.fst
      · obtain ⟨s, hs, rfl⟩ := List.mem_map.mp asked
        exact .inl (List.mem_map_of_mem hs)
      · exact .inr (.inr fun _ => asked)
    · next busy => exact .inr fun drained => absurd drained busy
  | batching | sending | publishing =>
    unfold wakeShutdowns
    split
    · exact heeded_wakeAll (.inr (h nofun))
    · exact h nofun

/-- What only the batching task looks at. -/
theorem heeded_aside (other : t ≠ .batching) (h : e.Heeded t) {clones alarm alarms : Nat}
    {closing : Bool} {queue : Fifo Entry} {batcher : Batcher} :
    Heeded { e with
      clones := clones, closing := closing, queue := queue, batcher := batcher
      batchingAlarm := alarm, alarms := alarms } t := by
  cases t with
  | batching => exact absurd rfl other
  | sending | publishing | shutdown => exact h

/-- The end of the batching task concerns shutdown calls. -/
theorem heeded_stopped (other : t ≠ .batching) (calls : ∀ call, t ≠ .shutdown call)
    (h : e.Heeded t) {life : BatchingLife} {queue : Fifo Entry} {batcher : Batcher} :
    Heeded { e with batching := life, queue := queue, batcher := batcher } t := by
  cases t with
  | batching => exact absurd rfl other
  | shutdown call => exact absurd rfl (calls call)
  | sending | publishing => exact h

/-- Requests that are told to go on are woken. -/
theorem heeded_admission (h : e.Heeded t) {a : Admission} {told : List Nat}
    (among : a.told ⊆ e.admission.told ++ told) :
    ({ e with admission := a }.wakeCalls told).Heeded t := by
  refine heeded_wakeAll ?_
  rcases h with ready | idle
  · exact .inr (.inl ready)
  cases t with
  | publishing call =>
    by_cases woken : call ∈ told
    · exact .inl (List.mem_map_of_mem woken)
    · refine .inr (.inr fun now => ?_)
      rcases List.mem_append.mp (among now) with before | more
      · exact idle before
      · exact woken more
  | batching | sending | shutdown => exact .inr (.inr idle)

theorem heeded_releaseCall (h : e.Heeded t) (call : Nat) : (e.releaseCall call).Heeded t := by
  have released := heeded_admission h (Admission.release_changed e.admission call).told_subset
  rw [wakeCalls_eq] at released
  rwa [releaseCall_eq, heeded_note]

theorem heeded_resolve (h : e.Heeded t) (call : Nat) (outcome : Outcome) :
    (e.resolve call outcome).Heeded t :=
  heeded_record (heeded_releaseCall h call) _

theorem heeded_resolveAll (h : e.Heeded t) (outcomes : List (Nat × Outcome)) :
    (e.resolveAll outcomes).Heeded t := by
  unfold resolveAll
  induction outcomes generalizing e with
  | nil => exact h
  | cons o rest ih => exact ih (heeded_resolve h o.1 o.2)

/-! Publish calls -/

theorem heeded_refuse (h : e.Heeded t) (call : Nat) (error : PublishError) :
    (e.refuse call error).Heeded t := by
  rw [refuse_eq]
  exact (heeded_note _).mpr h

theorem Decided.heeds {d : Decision} (decided : Decided e x d f) (h : e.Heeded t) :
    f.Heeded t := by
  cases decided with
  | waits => cases t <;> exact h
  | refused error =>
    refine heeded_refuse ?_ _ _
    cases t <;> exact h
  | accepted _ _ =>
    exact (heeded_note _).mpr (heeded_wake fun other => heeded_aside other h)
  | late _ => exact heeded_refuse (heeded_releaseCall h x.id) _ _
  | orphaned _ _ => exact (heeded_note _).mpr (heeded_resolve h x.id _)

theorem publish_heeds (h : e.Heeded t) (x : Entry) : (e.publish x).Heeded t := by
  have arrives := publish_arrives e x
  generalize e.publish x = f at arrives ⊢
  cases arrives with
  | tooLarge _ | late _ _ => exact heeded_refuse h _ _
  | asks _ _ decided =>
    have changed := Admission.reserve_changed e.admission x.id x.size
    exact decided.heeds (heeded_admission h changed.told_subset)

/-- Only the task of the call itself is taken off the ready ones, and it is not told any more. -/
theorem cancel_heeds (sound : e.custody.Sound c) (h : e.Heeded t) (call : Nat) :
    (e.cancel call).Heeded t := by
  have changed := Admission.cancel_changed e.admission call
  by_cases own : t = .publishing call
  · have untold := Admission.cancel_untold sound.balanced call
    rw [own, cancel_eq]
    exact .inr untold
  · refine heeded_admission (e := { e with
      blocked := e.blocked.filter (·.id != call)
      ready := e.ready.erase (.publishing call) }) ?_ changed.told_subset
    rcases h with ready | idle
    · exact .inl ((List.mem_erase_of_ne own).mpr ready)
    · cases t <;> exact .inr idle

theorem publishingTurn_heeds (tight : e.admission.Tight) (h : e.Heeded t) (call : Nat) :
    (e.publishingTurn call).Heeded t := by
  have looks := publishingTurn_looks e call
  generalize e.publishingTurn call = f at looks ⊢
  cases looks with
  | gone _ => exact h
  | asks x _ decided =>
    have changed := Admission.resume_changed tight call
    refine decided.heeds (heeded_admission (e := { e with
      blocked := e.blocked.filter (·.id != call) }) ?_ changed.told_subset)
    cases t <;> exact h

/-! Clones and shutdown calls -/

theorem clone_heeds (h : e.Heeded t) : e.clone.Heeded t := by
  cases t with
  | batching =>
    refine h.imp_right fun idle running => ?_
    obtain ⟨opened, -, rest⟩ := idle running
    exact ⟨opened, Nat.succ_ne_zero _, rest⟩
  | sending | publishing | shutdown => exact h

theorem dropClone_heeds (h : e.Heeded t) : e.dropClone.Heeded t := by
  rw [dropClone_eq]
  rcases h with ready | idle
  · exact .inl (mem_enlist.mpr (.inl ready))
  cases t with
  | batching =>
    by_cases last : e.clones - 1 = 0 ∧ e.batching = .running
    · exact .inl (mem_enlist.mpr (.inr (if_pos last ▸ List.mem_singleton_self _)))
    · refine .inr fun running => ?_
      obtain ⟨opened, -, rest⟩ := idle running
      exact ⟨opened, fun none => last ⟨none, running⟩, rest⟩
  | sending | publishing | shutdown => exact .inr idle

/-- A shutdown call wakes the batching task and all who wait for admission, and then itself. -/
theorem shutdown_heeds (h : e.Heeded t) (call : Nat) : (e.shutdown c call).Heeded t := by
  rw [shutdown_eq]
  have woken : t ∈ e.ready ∨ (t = .batching ∧ e.batching = .running) ∨
      t ∈ e.admission.close.2.map Task.publishing ∨ t = .shutdown call →
      t ∈ enlist (enlist (enlist e.ready (if e.batching = .running then [.batching] else []))
        (e.admission.close.2.map .publishing)) [.shutdown call] := by
    simp only [mem_enlist, List.mem_singleton]
    rintro (ready | ⟨rfl, running⟩ | told | own)
    · exact .inl (.inl (.inl ready))
    · exact .inl (.inl (.inr (if_pos running ▸ List.mem_singleton_self _)))
    · exact .inl (.inr told)
    · exact .inr own
  rcases h with ready | idle
  · exact .inl (woken (.inl ready))
  cases t with
  | batching =>
    by_cases running : e.batching = .running
    · exact .inl (woken (.inr (.inl ⟨rfl, running⟩)))
    · exact .inr fun still => absurd still running
  | publishing call' =>
    by_cases told : call' ∈ e.admission.close.2
    · exact .inl (woken (.inr (.inr (.inl (List.mem_map_of_mem told)))))
    · refine .inr fun now => ?_
      rcases List.mem_append.mp (Admission.close_told e.admission now) with before | more
      · exact idle before
      · exact told more
  | shutdown call' =>
    by_cases own : call' = call
    · exact .inl (woken (.inr (.inr (.inr (congrArg _ own)))))
    · refine .inr fun drained asked => ?_
      rw [List.map_append, List.mem_append] at asked
      rcases asked with before | now
      · exact idle drained before
      · exact own (List.mem_singleton.mp now)
  | sending id => exact .inr idle

/-! Turns of calls that wait -/

theorem shutdownTurn_heeds {call : Nat} (h : e.Heeded t) : (e.shutdownTurn c call).Heeded t := by
  rcases shutdownTurn_eq e c call with ⟨-, same⟩ | ⟨-, -, same⟩
  · exact same.symm ▸ h
  · rw [same, heeded_note]
    cases t with
    | shutdown call' =>
      refine h.imp_right fun idle drained asked => idle drained ?_
      exact (List.filter_sublist.map _).subset asked
    | batching | sending | publishing => exact h

theorem shutdownTurn_idle (e : Engine σ τ) (call : Nat) :
    (e.shutdownTurn c call).Idle (.shutdown call) := by
  rcases shutdownTurn_eq e c call with ⟨unasked, same⟩ | ⟨-, -, same⟩
  · rw [same]
    exact unasked
  · rw [same]
    intro _ asked
    obtain ⟨s, hs, rfl⟩ := List.mem_map.mp asked
    simpa using (List.mem_filter.mp hs).2

theorem Decided.blocked {d : Decision} (decided : Decided e x d f) (settled : d ≠ .waiting) :
    f.blocked = e.blocked := by
  cases decided with
  | waits => exact absurd rfl settled
  | refused error => rfl
  | accepted _ _ =>
    rw [wake_eq]
    rfl
  | late _ =>
    rw [refuse_eq, releaseCall_eq]
    rfl
  | orphaned _ _ =>
    rw [resolve_eq]
    rfl

/-- A publish call that looked is not told any more. -/
theorem publishingTurn_idle (sound : e.custody.Sound c) (call : Nat) :
    (e.publishingTurn call).Idle (.publishing call) := by
  have after : (e.publishingTurn call).custody.Sound c :=
    sound.moves (publishingTurn_moves c False e call)
  have gone {f : Engine σ τ} (hf : f.custody.Sound c) (left : call ∉ f.blocked.map Entry.id) :
      f.Idle (.publishing call) := fun told => left (hf.told_blocked told)
  have looks := publishingTurn_looks e call
  generalize e.publishingTurn call = f at after looks ⊢
  cases looks with
  | gone left => exact gone sound left
  | asks x _ decided =>
    by_cases waits : (e.admission.resume call).1 = .waiting
    · have untold := Admission.resume_untold sound.balanced call
      rw [waits, wakeCalls_eq] at decided
      cases decided
      exact untold
    · refine gone after ?_
      rw [decided.blocked waits, wakeCalls_eq]
      intro there
      obtain ⟨y, hy, same⟩ := List.mem_map.mp there
      simpa [same] using (List.mem_filter.mp hy).2

end Engine
end TopicPublisher
