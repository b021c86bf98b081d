import TopicPublisher.Proofs.Admission.Turns
import TopicPublisher.Proofs.Engine.Driven
import TopicPublisher.Proofs.Engine.Pace
import TopicPublisher.Proofs.Engine.Survival
import TopicPublisher.Proofs.Engine.Tally

/-!
The load of an engine: a bound on the turns that its tasks can take before all of them wait. An
entry comes closer to its outcome with every turn that is taken for it, and what a turn wakes is
paid for by what the turn has done. Publish calls wait for elements only, and no policy goes on
for ever.
-/

namespace TopicPublisher

/-- No more tasks are added to a line than are woken. -/
theorem length_enlist (ready woken : List Task) :
    (enlist ready woken).length ≤ ready.length + woken.length := by
  unfold enlist
  induction woken generalizing ready with
  | nil => exact Nat.le_refl _
  | cons t rest ih =>
    have one : (if t ∈ ready then ready else ready ++ [t]).length ≤ ready.length + 1 := by
      split
      · exact Nat.le_succ _
      · rw [List.length_append, List.length_singleton]
    have others := @ih (if t ∈ ready then ready else ready ++ [t])
    rw [List.foldl_cons, List.length_cons]
    omega

namespace Admission

variable {c : Ceilings} {a : Admission} {between : List Reservation} {spare : Nat}

theorem Balanced.bytes_eq_none (h : a.Balanced c between spare) (unlimited : c.bytes = none) :
    a.bytes = none := by
  have backed := h.bytes
  rw [unlimited] at backed
  cases there : a.bytes with
  | none => rfl
  | some s =>
    rw [there] at backed
    cases backed

/-- With the element of a message that is resolved at most one request can go on. -/
theorem Balanced.release_told (h : a.Balanced c [] 0) (tight : a.Tight)
    (unlimited : c.bytes = none) (id : Nat) : (a.release id).2.length ≤ 1 := by
  have bytes := h.bytes_eq_none unlimited
  unfold Admission.release
  split
  · exact Nat.zero_le 1
  cases hs : a.elements with
  | none => simp [Admission.returnElement, Admission.returnBytes, bytes]
  | some s =>
    have lack : ∀ w ∈ s.queue, w.held < w.needed := fun w hw => by
      obtain ⟨held, needed⟩ := h.element_waiters tight hs w hw
      omega
    have served := Semaphore.distribute_served_length 1 s.queue lack
    simpa [Admission.returnElement, Admission.returnBytes, hs, bytes, Semaphore.release]
      using served

theorem Balanced.releaseAll_told (h : a.Balanced c [] 0) (tight : a.Tight)
    (unlimited : c.bytes = none) (calls : List Nat) :
    (a.releaseAll calls).2.length ≤ calls.length := by
  induction calls generalizing a with
  | nil => exact Nat.zero_le _
  | cons call rest ih =>
    have first := h.release_told tight unlimited call
    have others := ih (h.release call) (tight.changed (release_changed a call))
    rw [releaseAll, List.length_append, List.length_cons]
    omega

end Admission

/-- How far an attempt is from its end. -/
def SendPhase.rank {τ : Type} : SendPhase τ → Nat
  | .ready => 0
  | .pausing _ _ => 1
  | .calling _ _ _ _ => 2

theorem SendPhase.rank_le {τ : Type} (p : SendPhase τ) : p.rank ≤ 2 := by
  cases p <;> simp [SendPhase.rank]

/-- What is left of a sending of at most so many attempts. Its end wakes a call for each of its
messages. -/
def Sending.toil {τ : Type} (most : Nat) (s : Sending τ) : Nat :=
  3 * (most - s.attempts) + s.phase.rank + s.batch.size

theorem Sending.toil_phase {τ : Type} (most : Nat) (s : Sending τ) (p : SendPhase τ) :
    Sending.toil most { s with phase := p } + s.phase.rank = s.toil most + p.rank := by
  unfold toil
  dsimp only [Batch.size]
  omega

/-- What is left for an entry of the open batch, if no batch is sent more often. -/
def effort (most : Nat) : Nat := 3 * most + 3

/-- Publish calls wait for elements only, and no batch is sent more often than `most` times. -/
structure Config.Steady (c : Config) (most : Nat) : Prop where
  unlimited : c.ceilings.bytes = none
  short : c.retries.totalTimeout ≤ .ofMillis Clock.Timers.farFuture
  tires : c.retries.Tires most

namespace Engine

variable {σ τ : Type} {v : Service σ τ} {c : Config} {e f : Engine σ τ} {s t : Sending τ}
  {x : Entry} {most : Nat}

def load (most : Nat) (e : Engine σ τ) : Nat :=
  total (Sending.toil most) e.sends + effort most * e.batcher.current.size +
    (effort most + 1) * e.queue.toList.length + (effort most + 2) * e.blocked.length +
    e.ready.length

/-! What an engine holds counts by its place -/

theorem load_sends (most : Nat) (e : Engine σ τ) (sends : List (Sending τ)) :
    Engine.load most { e with sends := sends } + total (Sending.toil most) e.sends =
      e.load most + total (Sending.toil most) sends := by
  unfold load
  dsimp only
  omega

theorem load_batcher (most : Nat) (e : Engine σ τ) (batcher : Batcher) :
    Engine.load most { e with batcher := batcher } + effort most * e.batcher.current.size =
      e.load most + effort most * batcher.current.size := by
  unfold load
  dsimp only
  omega

theorem load_queue (most : Nat) (e : Engine σ τ) (queue : Fifo Entry) :
    Engine.load most { e with queue := queue } + (effort most + 1) * e.queue.toList.length =
      e.load most + (effort most + 1) * queue.toList.length := by
  unfold load
  dsimp only
  omega

theorem load_blocked (most : Nat) (e : Engine σ τ) (blocked : List Entry) :
    Engine.load most { e with blocked := blocked } + (effort most + 2) * e.blocked.length =
      e.load most + (effort most + 2) * blocked.length := by
  unfold load
  dsimp only
  omega

theorem load_ready (most : Nat) (e : Engine σ τ) (ready : List Task) :
    Engine.load most { e with ready := ready } + e.ready.length = e.load most + ready.length := by
  unfold load
  dsimp only
  omega

theorem load_note (most : Nat) (e : Engine σ τ) (hs : List Happening) :
    (e.note hs).load most = e.load most := rfl

theorem load_wakeAll (most : Nat) (e : Engine σ τ) (ts : List Task) :
    (e.wakeAll ts).load most ≤ e.load most + ts.length := by
  have line := length_enlist e.ready ts
  have woken := e.load_ready most (enlist e.ready ts)
  rw [wakeAll_eq]
  omega

theorem load_wake (most : Nat) (e : Engine σ τ) (u : Task) :
    (e.wake u).load most ≤ e.load most + 1 :=
  e.load_wakeAll most [u]

theorem load_wakeShutdowns (most : Nat) (nobody : e.shutdowns = []) :
    e.wakeShutdowns.load most = e.load most := by
  unfold wakeShutdowns
  rw [nobody]
  split <;> rfl

theorem load_resolveAll (most : Nat) (balanced : e.admission.Balanced c.ceilings [] 0)
    (tight : e.admission.Tight) (unlimited : c.ceilings.bytes = none)
    (outcomes : List (Nat × Outcome)) :
    (e.resolveAll outcomes).load most ≤ e.load most + outcomes.length := by
  have told := balanced.releaseAll_told tight unlimited (outcomes.map Prod.fst)
  rw [List.length_map] at told
  have woken := load_wakeAll most
    { e with admission := (e.admission.releaseAll (outcomes.map Prod.fst)).1 }
    ((e.admission.releaseAll (outcomes.map Prod.fst)).2.map .publishing)
  rw [wakeAll_eq, List.length_map] at woken
  rw [resolveAll_eq, load_note]
  exact Nat.le_trans woken (Nat.add_le_add_left told _)

/-! Engines that go on -/

/-- An engine that is in use, and whose batching task runs and is not killed. -/
structure Lively (c : Config) (most : Nat) (e : Engine σ τ) : Prop where
  sound : e.custody.Sound c
  tight : e.admission.Tight
  shut : e.admission.Shut false
  unlimited : c.ceilings.bytes = none
  opened : e.closing = false
  held : e.clones ≠ 0
  nobody : e.shutdowns = []
  running : e.batching = .running
  armed : e.batcher.Armed
  timely : Clock.representable (Clock.instant e.now + c.thresholds.delay.nanos) = true
  fewer : ∀ s ∈ e.sends, s.phase = .ready → s.attempts < most

theorem Lively.balanced (h : e.Lively c most) : e.admission.Balanced c.ceilings [] 0 :=
  h.sound.balanced

theorem Lively.nodup (h : e.Lively c most) : (e.sends.map Sending.id).Nodup := by
  have numbered := h.sound.kept.numbered
  rwa [custody, List.map_map] at numbered

/-! Batching -/

theorem load_dispatch (most : Nat) (e : Engine σ τ) {b : Batch} (some : b.entries ≠ []) :
    (e.dispatch b).load most + 1 ≤ e.load most + effort most * b.size := by
  have woken := length_enlist e.ready [.sending e.dispatched]
  have size : 0 < b.size := List.length_pos_of_ne_nil some
  have room := Nat.mul_le_mul_left (3 * most + 2) size
  rw [dispatch_eq, load_note]
  unfold load
  simp only [total, List.map_append, List.sum_append_nat, List.map_cons, List.map_nil,
    List.sum_cons, List.sum_nil, Sending.toil, SendPhase.rank, effort, Nat.add_mul, Nat.sub_zero,
    List.length_cons, List.length_nil] at room woken ⊢
  omega

theorem load_dispatchAll (most : Nat) (e : Engine σ τ) {bs : List Batch}
    (some : ∀ b ∈ bs, b.entries ≠ []) :
    (e.dispatchAll bs).load most + bs.length ≤
      e.load most + effort most * (bs.flatMap Batch.entries).length := by
  induction bs generalizing e with
  | nil => exact Nat.le_refl _
  | cons b rest ih =>
    obtain ⟨here, others⟩ := List.forall_mem_cons.mp some
    have first := e.load_dispatch most here
    have later := ih (e.dispatch b) others
    change ((e.dispatch b).dispatchAll rest).load most + (rest.length + 1) ≤ _
    rw [List.flatMap_cons, List.length_append, Nat.mul_add]
    unfold Batch.size at first
    omega

theorem Taken.load (taken : Taken c e x f) (sendable : x.size ≤ maxBatchBytes)
    (timely : Clock.representable (Clock.instant e.now + c.thresholds.delay.nanos) = true) :
    f.load most ≤ e.load most + effort most := by
  cases taken with
  | added closed batcher added =>
    have sent := load_dispatchAll most { e with batcher := batcher } (Batcher.add_nonempty added)
    have refilled := e.load_batcher most batcher
    have contents := congrArg (effort most * List.length ·) (Batcher.add_contents added)
    simp only [List.length_append, List.length_singleton, Nat.mul_add, Nat.mul_one] at contents
    unfold Batch.size at refilled
    omega
  | refused size large => exact absurd large (Nat.not_lt.mpr sendable)
  | killed doomed => exact nomatch timely.symm.trans doomed

/-- A turn after which the batching task asks for another one lowers the load. -/
theorem load_batchingTurn (h : e.Lively c most) :
    (e.batchingTurn c).2.load most + (e.batchingTurn c).1.toNat ≤ e.load most := by
  have turn := batchingTurn_goes c e
  generalize e.branch? = branch at turn
  generalize e.batchingTurn c = result at turn ⊢
  cases turn with
  | stopped stopped => exact absurd h.running stopped
  | leaves _ _ _ why =>
    rcases why with closing | ⟨-, deserted⟩
    · exact nomatch h.opened.symm.trans closing
    · exact absurd deserted h.held
  | flushes deadline _ armed past =>
    obtain ⟨flushed, some⟩ := Batcher.flushExpired_past h.armed armed past
    have sent := load_dispatch most { e with batcher := {} } some
    have emptied : _ = e.load most + effort most * 0 := e.load_batcher most {}
    rw [flushed]
    change (dispatch { e with batcher := {} } e.batcher.current).load most + 1 ≤ _
    omega
  | takes x rest _ queued taken =>
    have sendable : x.size ≤ maxBatchBytes :=
      h.sound.kept.queued x (queued ▸ List.mem_cons_self .. : x ∈ e.queue.toList)
    have added : Engine.load most _ ≤ _ := taken.load sendable h.timely
    have left := e.load_queue most rest
    rw [queued, List.length_cons, Nat.mul_succ] at left
    refine Nat.le_trans (Nat.add_le_add_left (Bool.toNat_le _) _) ?_
    dsimp only
    omega
  | waits _ _ _ _ _ => exact Nat.le_refl _

/-! Sending -/

theorem load_setSending (most : Nat) (nodup : (e.sends.map Sending.id).Nodup) (hs : s ∈ e.sends)
    (same : t.id = s.id) :
    (e.setSending t).load most + s.toil most = e.load most + t.toil most := by
  have changed := e.load_sends most (e.setSending t).sends
  have was : total (Sending.toil most) e.sends = _ :=
    ((Transit.sends_perm (k := e.transit) nodup hs).map _).sum_nat
  have set : total (Sending.toil most) (e.setSending t).sends = _ :=
    ((Transit.set_perm (k := e.transit) nodup hs same).map _).sum_nat
  rw [List.map_cons, List.sum_cons] at was set
  change (e.setSending t).load most + _ = _ at changed
  omega

/-- The load goes down with the rank of a phase. -/
theorem load_phase (h : e.Lively c most) (hs : s ∈ e.sends) (sends : f.sends = e.sends)
    (same : f.load most = e.load most) {p : SendPhase τ} (lower : p.rank < s.phase.rank) :
    (f.setSending { s with phase := p }).load most + 1 ≤ e.load most := by
  have set := load_setSending (s := s) (t := { s with phase := p }) most (sends ▸ h.nodup)
    (sends ▸ hs) rfl
  have toil := s.toil_phase most p
  omega

theorem load_finish (most : Nat) (nodup : (e.sends.map Sending.id).Nodup) (hs : s ∈ e.sends) :
    Engine.load most { e with sends := e.sends.filter (·.id != s.id) } + s.toil most =
      e.load most := by
  have changed := e.load_sends most (e.sends.filter (·.id != s.id))
  have was : total (Sending.toil most) e.sends = _ :=
    ((Transit.sends_perm (k := e.transit) nodup hs).map _).sum_nat
  rw [List.map_cons, List.sum_cons] at was
  change _ = s.toil most + total (Sending.toil most) (e.sends.filter (·.id != s.id)) at was
  omega

/-- With the toil of a sending its end pays for the calls that it wakes. -/
theorem load_endSending (h : e.Lively c most) (hs : s ∈ e.sends) (result : SendResult) :
    (e.endSending s result).load most ≤ e.load most := by
  have removed := load_finish most h.nodup hs
  have woken := load_resolveAll most (e := { e with
      counters := result.count s.batch.size e.counters
      sends := e.sends.filter (·.id != s.id) }.note (endOf s result)) h.balanced h.tight
    h.unlimited (s.batch.ids.zip (result.outcomes s.batch.size))
  have calls : (s.batch.ids.zip (result.outcomes s.batch.size)).length ≤ s.batch.size := by
    rw [List.length_zip, Batch.ids, List.length_map]
    exact Nat.min_le_left _ _
  rw [endSending_eq, load_wakeShutdowns]
  · refine Nat.le_trans woken ?_
    change Engine.load most { e with sends := e.sends.filter (·.id != s.id) } + _ ≤ _
    unfold Sending.toil at removed
    omega
  · rw [resolveAll_eq]
    exact h.nobody

/-- A turn after which a sending asks for another one lowers the load. -/
theorem SendingTurn.load {again : Bool} (turn : SendingTurn v c e s (again, f))
    (h : e.Lively c most) (hs : s ∈ e.sends) :
    f.load most + again.toNat ≤ e.load most := by
  cases turn with
  | call timeout latency call service ready _ _ =>
    have few := h.fewer s hs ready
    have set := load_setSending
      (e := { e with counters := e.counters.countAttempt, service := service }.note
        [.logged (some s.id) (.sendAttempt (.ofNat (s.attempts + 1)) s.batch.size),
          .called s.id (s.attempts + 1) s.batch.messages])
      (t := { s with
        attempts := s.attempts + 1
        phase := .calling timeout (Clock.wakeAfter e.now timeout) (latency.map (e.now + ·))
          call }) (s := s) most h.nodup hs rfl
    unfold Sending.toil at set
    rw [ready] at set
    change _ + (3 * (most - s.attempts) + 0 + s.batch.size) =
      e.load most + (3 * (most - (s.attempts + 1)) + 2 + s.batch.size) at set
    rw [Bool.toNat_true]
    omega
  | wait wake _ _ =>
    have set := load_setSending (t := { s with alarm := e.alarms }) most h.nodup hs rfl
    exact Nat.le_of_eq (Nat.add_right_cancel set)
  | settle timeout limit answerAt call reply service result _ _ _ =>
    have sound : ({ e with service := service }.note
        [.answered s.id s.attempts reply]).custody.Sound c := by
      rw [custody_note, Custody.note_answered]
      exact h.sound
    have lively : ({ e with service := service }.note
        [.answered s.id s.attempts reply]).Lively c most :=
      { sound := sound, tight := h.tight, shut := h.shut, unlimited := h.unlimited,
        opened := h.opened, held := h.held, nobody := h.nobody, running := h.running,
        armed := h.armed, timely := h.timely, fewer := h.fewer }
    exact load_endSending lively hs result
  | fail timeout limit answerAt call reply service error phase _ _ =>
    refine load_phase h hs rfl rfl ?_
    rw [phase]
    exact Nat.lt_succ_self _
  | resume wake error phase _ _ =>
    refine load_phase (f := { e with counters := e.counters.countRetry }) h hs rfl rfl ?_
    rw [phase]
    exact Nat.lt_succ_self _
  | exhaust wake error _ _ _ =>
    rw [Bool.toNat_false, Nat.add_zero]
    exact load_endSending h hs _

/-! Calls -/

theorem Decided.load {d : Decision} (decided : Decided e x d f) (opened : e.closing = false)
    (running : e.batching = .running) : f.load most ≤ e.load most + (effort most + 2) := by
  cases decided with
  | waits =>
    have blocked := e.load_blocked most (e.blocked ++ [x])
    rw [List.length_append, List.length_singleton, Nat.mul_succ] at blocked
    omega
  | refused error => exact Nat.le_add_right ..
  | accepted _ _ =>
    have woken := load_wake most { e with queue := e.queue.push x } .batching
    have queued := e.load_queue most (e.queue.push x)
    rw [Fifo.toList_push, List.length_append, List.length_singleton, Nat.mul_succ] at queued
    rw [load_note]
    omega
  | late closing => exact nomatch opened.symm.trans closing
  | orphaned _ stopped => exact absurd running stopped

theorem load_publish (h : e.Lively c most) (x : Entry) :
    (e.publish x).load most ≤ e.load most + (effort most + 2) := by
  obtain ⟨d, a, answered, -⟩ := Admission.reserve_enters h.balanced h.tight h.shut x.id x.size
  have arrives := publish_arrives e x
  generalize e.publish x = f at arrives ⊢
  cases arrives with
  | tooLarge _ => exact Nat.le_add_right ..
  | late _ closing => exact nomatch h.opened.symm.trans closing
  | asks _ _ decided =>
    rw [answered] at decided
    exact Decided.load (e := { e with admission := a }) decided h.opened h.running

/-- A call that goes on is paid for by its waiting. -/
theorem load_publishingTurn (h : e.Lively c most) (call : Nat) :
    (e.publishingTurn call).load most ≤ e.load most := by
  have looks := publishingTurn_looks e call
  generalize e.publishingTurn call = f at looks ⊢
  cases looks with
  | gone _ => exact Nat.le_refl _
  | asks x here decided =>
    obtain ⟨d, a, answered, -⟩ := Admission.resume_resumes h.balanced h.shut call
    rw [answered] at decided
    have decided : f.load most ≤ _ := Decided.load
      (e := { e with admission := a, blocked := e.blocked.filter (·.id != call) }) decided
      h.opened h.running
    have left : Engine.load most
        { e with admission := a, blocked := e.blocked.filter (·.id != call) } +
          (effort most + 2) * e.blocked.length = e.load most + _ :=
      load_blocked most { e with admission := a } (e.blocked.filter (·.id != call))
    have fewer : (e.blocked.filter (·.id != call)).length < e.blocked.length := by
      refine List.length_filter_lt_length_iff_exists.mpr ⟨x, List.mem_of_find?_eq_some here, ?_⟩
      simpa using List.find?_some here
    have room := Nat.mul_le_mul_left (effort most + 2) fewer
    rw [Nat.mul_succ] at room
    refine Nat.le_trans decided ?_
    omega

/-! Turns -/

theorem load_turn (h : e.Lively c most) (t : Task) :
    (e.turn v c t).2.load most + (e.turn v c t).1.toNat ≤ e.load most := by
  have turn := turn_goes v c e t
  generalize e.turn v c t = result at turn ⊢
  cases turn with
  | batching => exact load_batchingTurn h
  | ended _ _ => exact Nat.le_refl _
  | sending s here turn => exact turn.load h (List.mem_of_find?_eq_some here)
  | publishing call => exact load_publishingTurn h call
  | shutdown call =>
    rcases shutdownTurn_eq e c call with ⟨-, same⟩ | ⟨-, asked, -⟩
    · exact Nat.le_of_eq (congrArg (Engine.load most) same)
    · rw [h.nobody] at asked
      cases asked

/-- Every turn lowers the load. -/
theorem load_run (h : e.Lively c most) {t : Task} (ready : t ∈ e.ready) :
    (e.run v c t).load most < e.load most := by
  have turn := load_turn (v := v) (e := { e with ready := e.ready.erase t }) { h with } t
  have left := e.load_ready most (e.ready.erase t)
  have length := List.length_erase_of_mem ready
  have some := List.length_pos_of_mem ready
  unfold run
  dsimp only
  split
  · next again =>
    have back := load_ready most (Engine.turn { e with ready := e.ready.erase t } v c t).2
      (t :: (Engine.turn { e with ready := e.ready.erase t } v c t).2.ready)
    rw [again] at turn
    rw [List.length_cons] at back
    change _ + 1 ≤ _ at turn
    omega
  · omega

/-! The load of an engine whose clock moves on -/

theorem toil_lt (most : Nat) (some : s.batch.entries ≠ []) :
    s.toil most < (effort most + 1) * s.batch.size := by
  have size : 0 < s.batch.size := List.length_pos_of_ne_nil some
  have room := Nat.mul_le_mul_left (effort most) size
  have rank := s.phase.rank_le
  rw [Nat.succ_mul]
  unfold Sending.toil
  unfold effort at room ⊢
  omega

theorem total_toil_le (most : Nat) {sends : List (Sending τ)}
    (some : ∀ s ∈ sends, s.batch.entries ≠ []) :
    total (Sending.toil most) sends + sends.length ≤
      (effort most + 1) * (sends.flatMap (·.batch.entries)).length := by
  induction sends with
  | nil => exact Nat.le_refl _
  | cons s rest ih =>
    obtain ⟨first, others⟩ := List.forall_mem_cons.mp some
    have here := toil_lt most first
    have later := ih others
    rw [List.flatMap_cons, List.length_append, Nat.mul_add, total_cons, List.length_cons]
    unfold Batch.size at here
    omega

theorem length_due_le (e : Engine σ τ) (now : Nat) : (e.due now).length ≤ e.sends.length + 1 := by
  have sends : (e.sends.filterMap fun s =>
      s.phase.wake?.map (·, s.alarm, Task.sending s.id)).length ≤ e.sends.length :=
    List.length_filterMap_le _ _
  have pending : e.pending.length ≤ e.sends.length + 1 := by
    unfold pending
    dsimp only
    split
    · exact Nat.succ_le_succ sends
    · exact Nat.le_succ_of_le sends
  unfold due
  rw [List.length_map, List.length_mergeSort, List.length_map]
  exact Nat.le_trans (List.length_filter_le ..) pending

/-- What a settled engine wakes is not more than it holds. -/
theorem load_moveTo (most : Nat) (settled : e.isSettled = true)
    (some : ∀ s ∈ e.sends, s.batch.entries ≠ []) (now : Nat) :
    (e.moveTo now).load most ≤
      (effort most + 2) * (e.custody.outstanding.length + e.blocked.length) + 1 := by
  have woken := load_wakeAll most { e with now := now } (e.due now)
  have due := e.length_due_le now
  have toil := total_toil_le most some
  have held : e.custody.outstanding.length = (e.sends.flatMap (·.batch.entries)).length +
      e.batcher.current.size + e.queue.toList.length := by
    rw [Custody.outstanding, List.length_append, List.length_append]
    change ((e.sends.map fun s => (s.id, s.batch)).flatMap (·.2.entries)).length + _ + _ = _
    rw [List.flatMap_map]
    rfl
  have ready : e.ready = [] := List.isEmpty_iff.mp settled
  refine Nat.le_trans woken ?_
  rw [held]
  unfold load
  rw [show Engine.ready { e with now := now } = [] from ready, List.length_nil]
  simp only [Nat.mul_add, Nat.add_mul] at toil ⊢
  omega

/-! Driven engines -/

/-- A driven engine goes on for as long as it is in use and its clock lasts. -/
theorem Driven.lively (h : Driven v c e) (steady : c.Steady most)
    (lasts : c.Lasts e.admitted.length) (opened : e.closing = false) (held : e.clones ≠ 0) :
    e.Lively c most := by
  have reached := h.reachable
  have onTime := h.onTime lasts
  have alive : e.batching ≠ .killed := onTime.alive
  have few := reached.dispatched_le alive
  exact {
    sound := reached.sound
    tight := reached.tight
    shut := opened ▸ reached.shut
    unlimited := steady.unlimited
    opened := opened
    held := held
    nobody := not_not.mp fun asked => nomatch opened.symm.trans (reached.orderly.asked asked)
    running := (reached.live alive held).resolve_left (Bool.eq_false_iff.mp opened)
    armed := reached.armed
    timely := onTime.timely few lasts
    fewer := fun _ hs ready => h.prompt.attempts_lt steady.short steady.tires hs ready }

end Engine
end TopicPublisher
