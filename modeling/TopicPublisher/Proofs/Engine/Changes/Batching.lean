import Mathlib.Logic.Relation
import TopicPublisher.Proofs.Admission.Doors
import TopicPublisher.Proofs.Batch.Contents
import TopicPublisher.Proofs.Engine.Changes.Calls

/-!
What the batching task changes. In a turn it takes entries from the queue, closes the open batch at
its deadline, or comes to its end, and each of these is one thing that it does. It gives outcomes
for what it drops, but it deals with no call of the users.
-/

namespace TopicPublisher

theorem Admission.doors_releaseAll (a : Admission) (calls : List Nat) :
    (a.releaseAll calls).1.doors = a.doors := by
  induction calls generalizing a with
  | nil => rfl
  | cons call rest ih => exact (ih _).trans (release_changed a call).doors

/-- What the users of an engine deal with, apart from what their calls have come to. -/
structure Front where
  closing : Bool
  clones : Nat
  blocked : List Entry
  shutdowns : List (Nat × Nat)
  doors : Option Bool × Option Bool

/-- No call of a user returns with it, and no message is admitted. -/
structure Happening.IsInner (h : Happening) : Prop where
  returned : h.returned? = none
  admitted : h.admitted? = none
  finished : h.finished? = none

/-- The branches of the loop of the batching task, in the order in which they are tried: shutdown
has begun, the deadline of the open batch has come, the queue has an entry, nobody is left to bring
one. -/
inductive Branch where
  | closing
  | timer
  | entry (x : Entry)
  | deserted
deriving DecidableEq

/-- Whether the loop is left by this branch. -/
def Branch.leaves : Branch → Bool
  | .closing | .deserted => true
  | .timer | .entry _ => false

namespace Engine

variable {σ τ : Type} {c : Config} {e f g : Engine σ τ} {x : Entry}

def front (e : Engine σ τ) : Front where
  closing := e.closing
  clones := e.clones
  blocked := e.blocked
  shutdowns := e.shutdowns
  doors := e.admission.doors

/-- What becomes of an entry that the batching task has taken from the queue. -/
inductive Taken (c : Config) (e : Engine σ τ) (x : Entry) : Engine σ τ → Prop where
  | added (closed : List Batch) (batcher : Batcher) :
      e.batcher.add c.thresholds (Clock.instant e.now) x = .ok (closed, batcher) →
      Taken c e x ({ e with batcher := batcher }.dispatchAll closed)
  | refused (size : Nat) : maxBatchBytes < x.size →
      Taken c e x ((e.resolve x.id (.error (.messageTooLarge size maxBatchBytes))).log
        (.messageRejected (.messageTooLarge size maxBatchBytes)))
  | killed : Clock.representable (Clock.instant e.now + c.thresholds.delay.nanos) = false →
      Taken c e x (e.killBatching x)

/-- The things that the batching task does. -/
inductive Batches (c : Config) (e : Engine σ τ) : Engine σ τ → Prop where
  | take (x : Entry) (rest : Fifo Entry) {f : Engine σ τ} : e.batching = .running →
      e.queue.toList = x :: rest.toList → Taken c { e with queue := rest } x f → Batches c e f
  | flush : e.batching = .running →
      Batches c e ({ e with
        batcher := (e.batcher.flushExpired (Clock.instant e.now)).2 }.dispatchAll
          (e.batcher.flushExpired (Clock.instant e.now)).1.toList)
  | retire : e.batching = .running → e.queue.toList = [] →
      Batches c e ({ e with
        batcher := e.batcher.drain.2
        batching := .ended }.dispatchAll e.batcher.drain.1.toList).wakeShutdowns
  | wait : e.batching = .running →
      Batches c e { e with batchingAlarm := e.alarms, alarms := e.alarms + 1 }

/-- The branch that is open to the batching task now. With none the task waits, and the turn of
the loop that it is in is not over. -/
def branch? (e : Engine σ τ) : Option Branch :=
  if e.batching ≠ .running then none
  else if e.closing then some .closing
  else if e.batchingWake?.any (· ≤ e.now) then some .timer
  else
    match e.queue.pop? with
    | some (x, _) => some (.entry x)
    | none => if e.clones = 0 then some .deserted else none

/-- How a turn of the batching task goes, by the branch that is open to it; `true` asks for another
turn. -/
inductive BatchingTurn (c : Config) (e : Engine σ τ) :
    Option Branch → Bool × Engine σ τ → Prop where
  | stopped : e.batching ≠ .running → BatchingTurn c e none (false, e)
  | leaves (branch : Branch) : branch.leaves = true → e.batching = .running →
      e.closing = true ∨ e.queue.toList = [] ∧ e.clones = 0 →
      BatchingTurn c e (some branch) (false, e.endBatching c)
  | flushes (deadline : Nat) : e.batching = .running → e.batcher.deadline = some deadline →
      deadline ≤ Clock.instant e.now →
      BatchingTurn c e (some .timer) (true,
        { e with batcher := (e.batcher.flushExpired (Clock.instant e.now)).2 }.dispatchAll
          (e.batcher.flushExpired (Clock.instant e.now)).1.toList)
  | takes (x : Entry) (rest : Fifo Entry) {f : Engine σ τ} : e.batching = .running →
      e.queue.toList = x :: rest.toList → Taken c { e with queue := rest } x f →
      BatchingTurn c e (some (.entry x)) (f.batching = .running, f)
  | waits : e.batching = .running → e.closing = false → e.queue.toList = [] → e.clones ≠ 0 →
      (∀ wake, e.batchingWake? = some wake → e.now < wake) →
      BatchingTurn c e none (false, { e with batchingAlarm := e.alarms, alarms := e.alarms + 1 })

theorem addEntry_taken (c : Config) (e : Engine σ τ) (x : Entry) :
    Taken c e x (e.addEntry c x) := by
  unfold addEntry
  split
  · next closed batcher added => exact .added closed batcher added
  · next size large => exact .refused size (Batcher.add_tooLarge large)
  · next overflow => exact .killed (Batcher.add_deadlineOverflow overflow)

theorem batchingTurn_goes (c : Config) (e : Engine σ τ) :
    BatchingTurn c e e.branch? (e.batchingTurn c) := by
  unfold branch? batchingTurn
  split
  · next stopped => exact .stopped stopped
  next running =>
  have running : e.batching = .running := not_not.mp running
  split
  · next closing => exact .leaves .closing rfl running (.inl closing)
  next opened =>
  split
  · next due =>
    obtain ⟨wake, wakes, past⟩ := (Option.any_eq_true ..).mp due
    obtain ⟨deadline, armed, rfl⟩ := Option.map_eq_some_iff.mp wakes
    exact .flushes deadline running armed
      ((Clock.ceilMillis_le_iff _ _).mp (of_decide_eq_true past))
  next early =>
  cases hp : e.queue.pop? with
  | some taken =>
    exact .takes taken.1 taken.2 running (Fifo.toList_of_pop? hp) (addEntry_taken c _ taken.1)
  | none =>
    dsimp only
    split
    · next deserted =>
      exact .leaves .deserted rfl running (.inr ⟨(Fifo.pop?_eq_none_iff _).mp hp, deserted⟩)
    · next held =>
      refine .waits running (Bool.eq_false_iff.mpr opened) ((Fifo.pop?_eq_none_iff _).mp hp) held
        fun wake armed => ?_
      rw [armed] at early
      simpa using early

theorem batchingTurn_stopped (c : Config) (stopped : e.batching ≠ .running) :
    e.batchingTurn c = (false, e) := by
  have turn := batchingTurn_goes c e
  generalize e.branch? = branch at turn
  generalize e.batchingTurn c = result at turn ⊢
  cases turn with
  | stopped _ => rfl
  | leaves _ _ running _ | flushes _ running _ _ | takes _ _ running _ _
  | waits running _ _ _ _ => exact absurd running stopped

theorem killBatching_batching (e : Engine σ τ) (x : Entry) :
    (e.killBatching x).batching = .killed := by
  rw [killBatching, wakeShutdowns_eq, dropEntries, resolveAll_eq]
  rfl

theorem dispatchAll_same (bs : List Batch) (e : Engine σ τ) :
    (e.dispatchAll bs).batcher = e.batcher ∧ (e.dispatchAll bs).queue = e.queue ∧
      (e.dispatchAll bs).batching = e.batching := by
  unfold dispatchAll
  induction bs generalizing e with
  | nil => exact ⟨rfl, rfl, rfl⟩
  | cons b rest ih =>
    obtain ⟨batcher, queue, batching⟩ := ih (e.dispatch b)
    rw [List.foldl_cons, batcher, queue, batching, dispatch_eq]
    exact ⟨rfl, rfl, rfl⟩

/-- The queue is left to the batching task for as long as it runs. -/
theorem Taken.queue (taken : Taken c e x f) (running : f.batching = .running) :
    f.queue = e.queue := by
  cases taken with
  | added closed batcher _ => exact (dispatchAll_same _ _).2.1
  | refused size _ =>
    rw [log, record_eq, resolve_eq]
    rfl
  | killed _ =>
    rw [killBatching_batching] at running
    cases running

/-- Unless it is killed, the batching task goes on after it has taken an entry. -/
theorem Taken.running (taken : Taken c e x f) (running : e.batching = .running)
    (alive : f.batching ≠ .killed) : f.batching = .running := by
  cases taken with
  | added closed batcher _ => exact (dispatchAll_same _ _).2.2.trans running
  | refused size _ =>
    rw [log, record_eq, resolve_eq]
    exact running
  | killed _ => exact absurd (killBatching_batching e x) alive

theorem addQueued_batches (c : Config) {entries : List Entry} {e : Engine σ τ}
    (running : e.batching = .running) (queued : e.queue.toList = entries) :
    Relation.ReflTransGen (Batches c) e (addQueued c entries e) ∧
      ((addQueued c entries e).batching = .running →
        (addQueued c entries e).queue.toList = []) := by
  -- The loop ends early if an entry kills the task, which then does not run any more.
  induction entries generalizing e with
  | nil => exact ⟨.refl, fun _ => queued⟩
  | cons x rest ih =>
    have taken := addEntry_taken c { e with queue := .ofList rest } x
    have takes : Batches c e _ := .take x (.ofList rest) running (by simpa using queued) taken
    unfold addQueued
    dsimp only
    split
    · next still =>
      obtain ⟨more, done⟩ := ih still (by rw [taken.queue still, Fifo.toList_ofList])
      exact ⟨.head takes more, done⟩
    · next stopped => exact ⟨.single takes, fun still => absurd still stopped⟩

theorem endBatching_batches (c : Config) (running : e.batching = .running) :
    Relation.ReflTransGen (Batches c) e (e.endBatching c) := by
  obtain ⟨added, emptied⟩ := addQueued_batches c running rfl
  unfold endBatching
  extract_lets all
  split
  · next still => exact added.tail (.retire still (emptied still))
  · exact added

theorem endBatching_stops (c : Config) (e : Engine σ τ) :
    (e.endBatching c).batching ≠ .running := by
  unfold endBatching
  extract_lets added
  split
  · dsimp only
    rw [wakeShutdowns_eq]
    exact fun running => nomatch (dispatchAll_same _ _).2.2.symm.trans running
  · next stopped => exact stopped

/-- A turn of the batching task is a few of the things that it does. -/
theorem batchingTurn_batches (c : Config) (e : Engine σ τ) :
    Relation.ReflTransGen (Batches c) e (e.batchingTurn c).2 := by
  have turn := batchingTurn_goes c e
  generalize e.branch? = branch at turn
  generalize e.batchingTurn c = result at turn ⊢
  cases turn with
  | stopped _ => exact .refl
  | leaves _ _ running _ => exact endBatching_batches c running
  | flushes _ running _ _ => exact .single (.flush running)
  | takes x rest running queued taken => exact .single (.take x rest running queued taken)
  | waits running _ _ _ _ => exact .single (.wait running)

/-! What the batching task leaves as it is -/

/-- The second engine differs from the first only in what the batching task deals with: what the
calls of the users deal with is the same, new batches have new numbers, and nothing is entered about
calls of the users or of the service. -/
structure ByBatching (e f : Engine σ τ) : Prop where
  front : f.front = e.front
  now : f.now = e.now
  service : f.service = e.service
  dispatched : e.dispatched ≤ f.dispatched
  sends : ∃ new, f.sends = e.sends ++ new ∧ ∀ s ∈ new, e.dispatched ≤ s.id
  enters : ∃ hs, (∀ h ∈ hs, Happening.IsInner h ∧ ∀ n, Happening.concerns n h = false) ∧
    f.history = (e.note hs).history

theorem ByBatching.of_same (front : f.front = e.front) (now : f.now = e.now)
    (service : f.service = e.service) (dispatched : f.dispatched = e.dispatched)
    (sends : f.sends = e.sends) (history : f.history = e.history) : ByBatching e f where
  front := front
  now := now
  service := service
  dispatched := Nat.le_of_eq dispatched.symm
  sends := ⟨[], sends.trans (List.append_nil _).symm, nofun⟩
  enters := ⟨[], nofun, history⟩

theorem ByBatching.refl (e : Engine σ τ) : ByBatching e e := .of_same rfl rfl rfl rfl rfl rfl

theorem ByBatching.trans (first : ByBatching e f) (second : ByBatching f g) : ByBatching e g := by
  obtain ⟨new, sends, later⟩ := first.sends
  obtain ⟨more, sends', later'⟩ := second.sends
  obtain ⟨hs, apart, history⟩ := first.enters
  obtain ⟨added, apart', history'⟩ := second.enters
  refine ⟨second.front.trans first.front, second.now.trans first.now,
    second.service.trans first.service, Nat.le_trans first.dispatched second.dispatched,
    ⟨new ++ more, ?_, ?_⟩, hs ++ added, List.forall_mem_append.mpr ⟨apart, apart'⟩, ?_⟩
  · rw [sends', sends, List.append_assoc]
  · exact List.forall_mem_append.mpr
      ⟨later, fun s hs => Nat.le_trans first.dispatched (later' s hs)⟩
  · rw [history', note_history first.now history]

theorem wakeShutdowns_byBatching (e : Engine σ τ) : ByBatching e e.wakeShutdowns := by
  rw [wakeShutdowns_eq]
  exact .of_same rfl rfl rfl rfl rfl rfl

theorem inner_resolutionsOf (outcomes : List (Nat × Outcome)) :
    ∀ h ∈ resolutionsOf outcomes, h.IsInner ∧ ∀ n, Happening.concerns n h = false := by
  intro h there
  obtain ⟨o, -, there⟩ := List.mem_flatMap.mp there
  simp only [List.mem_cons, List.not_mem_nil, or_false] at there
  rcases there with rfl | rfl <;> exact ⟨⟨rfl, rfl, rfl⟩, fun _ => rfl⟩

theorem resolveAll_front (e : Engine σ τ) (outcomes : List (Nat × Outcome)) :
    (e.resolveAll outcomes).front = e.front := by
  rw [resolveAll_eq, note, front]
  dsimp only
  rw [Admission.doors_releaseAll]
  rfl

theorem resolveAll_byBatching (e : Engine σ τ) (outcomes : List (Nat × Outcome)) :
    ByBatching e (e.resolveAll outcomes) := by
  have front := e.resolveAll_front outcomes
  rw [resolveAll_eq] at front ⊢
  exact ⟨front, rfl, rfl, Nat.le_refl _, ⟨[], (List.append_nil _).symm, nofun⟩, _,
    inner_resolutionsOf outcomes, rfl⟩

theorem dispatch_byBatching (e : Engine σ τ) (b : Batch) : ByBatching e (e.dispatch b) := by
  rw [dispatch_eq]
  exact ⟨rfl, rfl, rfl, Nat.le_succ _,
    ⟨_, rfl, List.forall_mem_singleton.mpr (Nat.le_refl _)⟩,
    [.logged (some e.dispatched) (.batchClosed b.size b.bytes), .dispatched e.dispatched b],
    List.forall_mem_cons.mpr ⟨⟨⟨rfl, rfl, rfl⟩, fun _ => rfl⟩,
      List.forall_mem_singleton.mpr ⟨⟨rfl, rfl, rfl⟩, fun _ => rfl⟩⟩, rfl⟩

theorem dispatchAll_byBatching (bs : List Batch) (e : Engine σ τ) :
    ByBatching e (e.dispatchAll bs) := by
  unfold dispatchAll
  induction bs generalizing e with
  | nil => exact .refl e
  | cons b rest ih => exact (dispatch_byBatching e b).trans (ih _)

theorem Taken.byBatching (taken : Taken c e x f) : ByBatching e f := by
  cases taken with
  | added closed batcher _ =>
    refine .trans ?_ (dispatchAll_byBatching closed _)
    exact .of_same rfl rfl rfl rfl rfl rfl
  | refused size _ =>
    refine .trans (resolveAll_byBatching e
      [(x.id, .error (.messageTooLarge size maxBatchBytes))]) ?_
    exact ⟨rfl, rfl, rfl, Nat.le_refl _, ⟨[], (List.append_nil _).symm, nofun⟩,
      [.logged none (.messageRejected (.messageTooLarge size maxBatchBytes))],
      List.forall_mem_singleton.mpr ⟨⟨rfl, rfl, rfl⟩, fun _ => rfl⟩, rfl⟩
  | killed _ =>
    refine .trans ?_ (wakeShutdowns_byBatching _)
    refine .trans ?_ (resolveAll_byBatching _ _)
    exact .of_same rfl rfl rfl rfl rfl rfl

theorem Batches.byBatching (batches : Batches c e f) : ByBatching e f := by
  cases batches with
  | take x rest _ _ taken =>
    refine .trans ?_ taken.byBatching
    exact .of_same rfl rfl rfl rfl rfl rfl
  | flush _ =>
    refine .trans ?_ (dispatchAll_byBatching _ _)
    exact .of_same rfl rfl rfl rfl rfl rfl
  | retire _ _ =>
    refine .trans ?_ (wakeShutdowns_byBatching _)
    refine .trans ?_ (dispatchAll_byBatching _ _)
    exact .of_same rfl rfl rfl rfl rfl rfl
  | wait _ => exact .of_same rfl rfl rfl rfl rfl rfl

theorem batchingTurn_byBatching (c : Config) (e : Engine σ τ) :
    ByBatching e (e.batchingTurn c).2 := by
  have turn := batchingTurn_batches c e
  generalize (e.batchingTurn c).2 = f at turn ⊢
  induction turn with
  | refl => exact .refl e
  | tail _ batches ih => exact ih.trans batches.byBatching

end Engine
end TopicPublisher
