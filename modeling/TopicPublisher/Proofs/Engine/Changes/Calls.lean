import TopicPublisher.Proofs.Engine.History

/-!
What the calls of the users change. A publish call is refused at once or asks admission, and what
admission decides is carried out at once, or by a later turn of the call; the other calls change a
few fields each. None of them touches what the batching task and the tasks that send work with.
-/

namespace TopicPublisher

/-- What the batching task works with, apart from its queue, and the clock. -/
structure Workbench where
  now : Nat
  batcher : Batcher
  batching : BatchingLife
  dispatched : Nat

namespace Engine

variable {σ τ : Type} {c : Config} {e f g : Engine σ τ} {x : Entry}

def bench (e : Engine σ τ) : Workbench where
  now := e.now
  batcher := e.batcher
  batching := e.batching
  dispatched := e.dispatched

/-- What becomes of an entry once admission has decided on it. -/
inductive Decided (e : Engine σ τ) (x : Entry) : Decision → Engine σ τ → Prop where
  | waits : Decided e x .waiting { e with blocked := e.blocked ++ [x] }
  | refused (error : PublishError) : Decided e x (.refused error)
      ({ e with counters := if error.isRejection then e.counters.countRejection else e.counters
        }.refuse x.id error)
  | accepted : e.closing = false → e.batching = .running → Decided e x .granted
      (({ e with queue := e.queue.push x }.wake .batching).note [.admitted x, .returned x.id])
  | late : e.closing = true →
      Decided e x .granted ((e.releaseCall x.id).refuse x.id .engineShutdown)
  | orphaned : e.closing = false → e.batching ≠ .running →
      Decided e x .granted ((e.resolve x.id (.error .engineShutdown)).note [.returned x.id])

/-- What a publish call comes to when it is made. -/
inductive Arrives (e : Engine σ τ) (x : Entry) : Engine σ τ → Prop where
  | tooLarge : maxBatchBytes < x.size →
      Arrives e x (e.refuse x.id (.messageTooLarge x.size maxBatchBytes))
  | late : x.size ≤ maxBatchBytes → e.closing = true → Arrives e x (e.refuse x.id .engineShutdown)
  | asks {f : Engine σ τ} : x.size ≤ maxBatchBytes → e.closing = false →
      Decided ({ e with admission := (e.admission.reserve x.id x.size).2.1 }.wakeCalls
        (e.admission.reserve x.id x.size).2.2) x (e.admission.reserve x.id x.size).1 f →
      Arrives e x f

/-- What a waiting publish call comes to when it is looked at. -/
inductive Looks (e : Engine σ τ) (call : Nat) : Engine σ τ → Prop where
  | gone : call ∉ e.blocked.map Entry.id → Looks e call e
  | asks (x : Entry) {f : Engine σ τ} : e.blocked.find? (·.id == call) = some x →
      Decided ({ e with
        admission := (e.admission.resume call).2.1
        blocked := e.blocked.filter (·.id != call) }.wakeCalls
          (e.admission.resume call).2.2) x (e.admission.resume call).1 f →
      Looks e call f

theorem decide_decided (e : Engine σ τ) (x : Entry) (d : Decision) :
    Decided e x d (e.decide x d) := by
  cases d with
  | waiting => exact .waits
  | refused error =>
    have refused : Decided e x (.refused error) _ := .refused error
    unfold Engine.decide
    dsimp only
    split
    · next rejection =>
      rwa [if_pos rejection] at refused
    · next plain =>
      rwa [if_neg plain] at refused
  | granted =>
    change Decided e x .granted (e.submit x)
    unfold submit
    split
    · next closing => exact .late closing
    next opened =>
    have opened : e.closing = false := Bool.eq_false_iff.mpr opened
    split
    · next running =>
      have accepted : Decided e x .granted _ := .accepted opened running
      rw [wake_eq] at accepted
      rw [record_eq, wake_eq]
      exact accepted
    · next stopped => exact .orphaned opened stopped

theorem publish_arrives (e : Engine σ τ) (x : Entry) : Arrives e x (e.publish x) := by
  unfold publish
  split
  · next large => exact .tooLarge large
  next fits =>
  have fits : x.size ≤ maxBatchBytes := Nat.le_of_not_lt fits
  split
  · next closing => exact .late fits closing
  · next opened => exact .asks fits (Bool.eq_false_iff.mpr opened) (decide_decided _ x _)

theorem publishingTurn_looks (e : Engine σ τ) (call : Nat) :
    Looks e call (e.publishingTurn call) := by
  unfold publishingTurn
  split
  · next none =>
    refine .gone fun there => ?_
    obtain ⟨x, hx, same⟩ := List.mem_map.mp there
    simpa [same] using List.find?_eq_none.mp none x hx
  · next x found => exact .asks x found (decide_decided _ x _)

/-! Other calls -/

theorem cancel_eq (e : Engine σ τ) (call : Nat) :
    e.cancel call = { e with
      admission := (e.admission.cancel call).1
      blocked := e.blocked.filter (·.id != call)
      ready := enlist (e.ready.erase (.publishing call))
        ((e.admission.cancel call).2.map .publishing) } := by
  unfold Engine.cancel
  dsimp only
  rw [wakeCalls_eq]

theorem dropClone_eq (e : Engine σ τ) :
    e.dropClone = { e with
      clones := e.clones - 1
      ready := enlist e.ready
        (if e.clones - 1 = 0 ∧ e.batching = .running then [.batching] else []) } := by
  unfold dropClone
  dsimp only
  split
  · exact wake_eq _ _
  · rfl

/-- What is entered by a shutdown call: the first one is logged. -/
def announced (e : Engine σ τ) (c : Config) : List Happening :=
  if e.closing then [] else [.logged none (.shutdownStarted c.topic)]

theorem mem_announced {h : Happening} (there : h ∈ e.announced c) :
    h = .logged none (.shutdownStarted c.topic) := by
  unfold announced at there
  split at there
  · cases there
  · exact List.mem_singleton.mp there

theorem shutdown_eq (e : Engine σ τ) (c : Config) (call : Nat) :
    e.shutdown c call = { e.note (e.announced c) with
      closing := true
      admission := e.admission.close.1
      shutdowns := e.shutdowns ++ [(call, e.now)]
      ready := enlist (enlist (enlist e.ready (if e.batching = .running then [.batching] else []))
        (e.admission.close.2.map .publishing)) [.shutdown call] } := by
  unfold Engine.shutdown
  -- What is woken may be in line already, so the three lines are not just appended.
  extract_lets logged closing woken
  have noted : closing = { e.note (e.announced c) with closing := true } := by
    unfold closing logged announced
    split <;> rfl
  have woke : woken = { closing with
      ready := enlist closing.ready
        (if closing.batching = .running then [.batching] else []) } := by
    unfold woken
    split
    · exact wake_eq _ _
    · rfl
  dsimp only
  rw [woke, noted, wake_eq, wakeCalls_eq]
  rfl

/-- A shutdown call returns once everything has ended. -/
theorem shutdownTurn_eq (e : Engine σ τ) (c : Config) (call : Nat) :
    (e.isDrained = true → call ∉ e.shutdowns.map Prod.fst) ∧ e.shutdownTurn c call = e ∨
      e.isDrained = true ∧ call ∈ e.shutdowns.map Prod.fst ∧ e.shutdownTurn c call =
        { e with shutdowns := e.shutdowns.filter (·.1 != call) }.note
          [.logged none (.shutdownComplete c.topic), .shutdownReturned call] := by
  unfold shutdownTurn
  split
  · next done =>
    obtain ⟨s, hs, same⟩ := List.any_eq_true.mp done.2
    exact .inr ⟨done.1, List.mem_map.mpr ⟨s, hs, by simpa using same⟩, rfl⟩
  · next undone =>
    refine .inl ⟨fun drained asked => undone ⟨drained, ?_⟩, rfl⟩
    obtain ⟨s, hs, rfl⟩ := List.mem_map.mp asked
    exact List.any_eq_true.mpr ⟨s, hs, by simp⟩

/-! What calls leave as it is -/

/-- The second engine differs from the first only in what calls deal with: what the tasks that
batch and send work with is the same, and nothing is entered about calls of the service. -/
structure ByCall (e f : Engine σ τ) : Prop where
  bench : f.bench = e.bench
  service : f.service = e.service
  sends : f.sends = e.sends
  enters : ∃ hs, (∀ h ∈ hs, ∀ n, Happening.concerns n h = false) ∧ f.history = (e.note hs).history

theorem ByCall.of_same (bench : f.bench = e.bench) (service : f.service = e.service)
    (sends : f.sends = e.sends) (history : f.history = e.history) : ByCall e f :=
  ⟨bench, service, sends, [], nofun, history⟩

theorem ByCall.refl (e : Engine σ τ) : ByCall e e := .of_same rfl rfl rfl rfl

theorem ByCall.trans (first : ByCall e f) (second : ByCall f g) : ByCall e g := by
  obtain ⟨hs, apart, history⟩ := first.enters
  obtain ⟨more, apart', history'⟩ := second.enters
  refine ⟨second.bench.trans first.bench, second.service.trans first.service,
    second.sends.trans first.sends, hs ++ more, List.forall_mem_append.mpr ⟨apart, apart'⟩, ?_⟩
  rw [history', note_history (congrArg Workbench.now first.bench) history]

theorem ByCall.note {hs : List Happening} (h : ByCall e f)
    (apart : ∀ h ∈ hs, ∀ n, Happening.concerns n h = false) : ByCall e (f.note hs) :=
  h.trans ⟨rfl, rfl, rfl, hs, apart, rfl⟩

theorem wakeCalls_byCall (e : Engine σ τ) (admission : Admission) (blocked : List Entry)
    (calls : List Nat) :
    ByCall e ({ e with admission := admission, blocked := blocked }.wakeCalls calls) := by
  rw [wakeCalls_eq]
  exact .of_same rfl rfl rfl rfl

theorem refuse_byCall (e : Engine σ τ) (call : Nat) (error : PublishError) :
    ByCall e (e.refuse call error) := by
  rw [refuse_eq]
  exact (ByCall.refl e).note (by simp [Happening.concerns])

theorem releaseCall_byCall (e : Engine σ τ) (call : Nat) : ByCall e (e.releaseCall call) := by
  rw [releaseCall_eq]
  exact ⟨rfl, rfl, rfl, [.released call], by simp [Happening.concerns], rfl⟩

theorem Decided.byCall {d : Decision} (h : Decided e x d f) : ByCall e f := by
  cases h with
  | waits => exact .of_same rfl rfl rfl rfl
  | refused error =>
    refine .trans ?_ (refuse_byCall _ x.id error)
    exact .of_same rfl rfl rfl rfl
  | accepted _ _ =>
    rw [wake_eq]
    exact .note (.of_same rfl rfl rfl rfl) (by simp [Happening.concerns])
  | late _ => exact (releaseCall_byCall e x.id).trans (refuse_byCall _ x.id _)
  | orphaned _ _ =>
    rw [resolve, record_eq, note_note]
    exact (releaseCall_byCall e x.id).note (by simp [Happening.concerns])

theorem publish_byCall (e : Engine σ τ) (x : Entry) : ByCall e (e.publish x) := by
  have arrives := publish_arrives e x
  generalize e.publish x = f at arrives ⊢
  cases arrives with
  | tooLarge _ | late _ _ => exact refuse_byCall e x.id _
  | asks _ _ decided => exact (wakeCalls_byCall e _ e.blocked _).trans decided.byCall

theorem publishingTurn_byCall (e : Engine σ τ) (call : Nat) :
    ByCall e (e.publishingTurn call) := by
  have looks := publishingTurn_looks e call
  generalize e.publishingTurn call = f at looks ⊢
  cases looks with
  | gone _ => exact .refl e
  | asks x _ decided => exact (wakeCalls_byCall e _ _ _).trans decided.byCall

theorem cancel_byCall (e : Engine σ τ) (call : Nat) : ByCall e (e.cancel call) := by
  rw [cancel_eq]
  exact .of_same rfl rfl rfl rfl

theorem dropClone_byCall (e : Engine σ τ) : ByCall e e.dropClone := by
  rw [dropClone_eq]
  exact .of_same rfl rfl rfl rfl

theorem shutdown_byCall (e : Engine σ τ) (c : Config) (call : Nat) :
    ByCall e (e.shutdown c call) := by
  rw [shutdown_eq]
  exact ⟨rfl, rfl, rfl, e.announced c, fun h hh _ => mem_announced hh ▸ rfl, rfl⟩

theorem shutdownTurn_byCall (e : Engine σ τ) (c : Config) (call : Nat) :
    ByCall e (e.shutdownTurn c call) := by
  rcases shutdownTurn_eq e c call with ⟨-, same⟩ | ⟨-, -, same⟩
  · exact same.symm ▸ .refl e
  · rw [same]
    exact .note (.of_same rfl rfl rfl rfl) (by simp [Happening.concerns])

end Engine
end TopicPublisher
