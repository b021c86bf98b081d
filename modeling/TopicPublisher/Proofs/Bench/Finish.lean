import TopicPublisher.Proofs.Bench.Ongoing
import TopicPublisher.Proofs.Bench.Shares

/-!
How a benchmark ends. On the clock of an engine that is driven no more readings are waited for
than its messages come to, so at one of them every message has its outcome; then an engine that
holds nothing shuts down at once.
-/

namespace TopicPublisher

theorem Backed.queue_eq_nil {s : Semaphore} {limit : Option Nat} {out : Nat}
    (h : Backed (some s) limit [] out) : s.queue = [] := by
  cases h with
  | ceiling backs =>
    have waiters := List.perm_nil.mp backs.waiters
    rw [Semaphore.waiters, List.map_eq_nil_iff] at waiters
    exact (List.append_eq_nil_iff.mp waiters).1

theorem Admission.Balanced.close_told {c : Ceilings} {a : Admission} (h : a.Balanced c [] 0)
    (nobody : a.waiting = []) : a.close.2 = [] := by
  have elements := h.elements
  have bytes := h.bytes
  rw [nobody, Request.callsAt_nil] at elements bytes
  have first : a.closeElements.2 = [] := by
    unfold Admission.closeElements
    cases hs : a.elements with
    | none => rfl
    | some s =>
      rw [hs] at elements
      exact List.map_eq_nil_iff.mpr elements.queue_eq_nil
  have second : a.closeElements.1.closeBytes.2 = [] := by
    rw [closeElements_fst]
    unfold Admission.closeBytes
    cases hs : a.bytes with
    | none => rfl
    | some s =>
      rw [hs] at bytes
      exact List.map_eq_nil_iff.mpr bytes.queue_eq_nil
  change a.closeElements.2 ++ a.closeElements.1.closeBytes.2 = []
  rw [first, second, List.append_nil]

namespace Engine

variable {σ τ : Type} {v : Service σ τ} {c : Config} {e : Engine σ τ} {x : Entry}

/-- An engine in use that holds nothing. -/
structure Vacant (e : Engine σ τ) : Prop where
  settled : e.isSettled = true
  opened : e.closing = false
  running : e.batching = .running
  sends : e.sends = []
  current : e.batcher.current.entries = []
  queue : e.queue.toList = []
  nobody : e.shutdowns = []
  untold : e.admission.close.2 = []

/-- A vacant engine after a shutdown call that has just been made. -/
theorem Vacant.shutdown (h : e.Vacant) (call : Nat) :
    e.shutdown c call = Engine.note { e with
        closing := true
        admission := e.admission.close.1
        shutdowns := [(call, e.now)]
        ready := [.batching, .shutdown call] }
      [.logged none (.shutdownStarted c.topic)] := by
  have ready : e.ready = [] := List.isEmpty_iff.mp h.settled
  rw [shutdown_eq, announced]
  simp [h.opened, h.running, h.nobody, h.untold, ready, enlist, note]

theorem endBatching_empty (queue : e.queue.toList = []) (current : e.batcher.current.entries = [])
    (running : e.batching = .running) :
    e.endBatching c = wakeShutdowns { e with batching := .ended } := by
  have empty : e.batcher.current.isEmpty = true := List.isEmpty_iff.mpr current
  unfold endBatching
  rw [queue]
  unfold addQueued Batcher.drain
  rw [if_pos running, if_pos empty]
  rfl

theorem run_batching_closing (closing : e.closing = true) (running : e.batching = .running) :
    e.run v c .batching = { e with ready := e.ready.erase .batching }.endBatching c := by
  unfold run turn batchingTurn
  dsimp only
  rw [if_neg (not_not.mpr running), if_pos closing]
  rfl

theorem Vacant.retires (h : e.Vacant) (call : Nat) :
    (e.shutdown c call).run v c .batching =
      Engine.note { e with
          closing := true
          admission := e.admission.close.1
          batching := .ended
          shutdowns := [(call, e.now)]
          ready := [.shutdown call] }
        [.logged none (.shutdownStarted c.topic)] := by
  rw [h.shutdown, run_batching_closing (by exact rfl) (by exact h.running),
    endBatching_empty (by exact h.queue) (by exact h.current) (by exact h.running)]
  simp [wakeShutdowns, isDrained, h.sends, wakeAll, wake, note]

theorem Vacant.ends (h : e.Vacant) (call : Nat) :
    ((e.shutdown c call).run v c .batching).run v c (.shutdown call) =
      Engine.note { e with
          closing := true
          admission := e.admission.close.1
          batching := .ended }
        [.logged none (.shutdownStarted c.topic), .logged none (.shutdownComplete c.topic),
          .shutdownReturned call] := by
  have ready : e.ready = [] := List.isEmpty_iff.mp h.settled
  rw [h.retires, run_shutdown]
  simp [shutdownTurn, isDrained, h.sends, h.nobody, note, log, record, ready]

end Engine

namespace Session

variable {σ τ : Type} {v : Service σ τ} {c : Config} {s : Session σ τ} {size most now : Nat}

/-! The end -/

theorem runReady_settled (settled : s.engine.isSettled = true) (fuel : Nat) :
    s.runReady v c fuel = s := by
  cases fuel with
  | zero => rfl
  | succ fuel => exact if_pos settled

theorem runReady_turn {t : Task} {others : List Task} (ready : s.engine.ready = t :: others)
    (inner : ∀ call, t ≠ .publishing call) (fuel : Nat) :
    s.runReady v c (fuel + 1) =
      Session.runReady v c fuel { s with engine := s.engine.run v c t } := by
  have busy : ¬ s.engine.isSettled = true := by
    rw [Engine.isSettled, ready]
    exact Bool.false_ne_true
  have turned : s.step v c = { s with engine := s.engine.run v c t } := by
    unfold Session.step
    rw [ready]
    cases t with
    | publishing call => exact absurd rfl (inner call)
    | batching | sending | shutdown => rfl
  rw [Session.runReady, if_neg busy, turned]

theorem two_le_maxTurns : 2 ≤ maxTurns := by decide +kernel

/-- The shutdown of a publisher that holds nothing. -/
theorem shutdown_vacant (h : s.engine.Vacant) :
    ((s.beginShutdown c).settle v c).engine =
      Engine.note { s.engine with
          closing := true
          admission := s.engine.admission.close.1
          batching := .ended }
        [.logged none (.shutdownStarted c.topic), .logged none (.shutdownComplete c.topic),
          .shutdownReturned s.shutdowns] := by
  obtain ⟨fuel, enough⟩ := Nat.exists_eq_add_of_le' two_le_maxTurns
  have ready : s.engine.ready = [] := List.isEmpty_iff.mp h.settled
  have asked := congrArg Engine.ready (h.shutdown (c := c) s.shutdowns)
  have retired := congrArg Engine.ready (h.retires (v := v) (c := c) s.shutdowns)
  have ends := h.ends (v := v) (c := c) s.shutdowns
  have settled := congrArg Engine.ready ends
  unfold settle beginShutdown
  rw [enough, runReady_turn (by exact asked) (by exact fun _ => Task.noConfusion)]
  dsimp only
  generalize s.engine.shutdown c s.shutdowns = e at *
  rw [runReady_turn (by exact retired) (by exact fun _ => Task.noConfusion)]
  dsimp only
  generalize e.run v c .batching = e at *
  generalize e.run v c (.shutdown s.shutdowns) = e at *
  rw [runReady_settled (by exact List.isEmpty_iff.mpr (settled.trans ready))]
  dsimp only
  exact ends

/-! Time -/

/-- What an ongoing session holds is among its messages. -/
theorem Ongoing.held (h : s.Ongoing v c size []) :
    s.engine.custody.outstanding.length + s.engine.blocked.length +
      (s.clients.flatMap Client.rest).length ≤ s.published := by
  have kept := h.driven.reachable.sound.kept
  have outstanding : (s.engine.custody.outstanding.map Entry.id).Subperm s.engine.returned :=
    List.subperm_of_subset kept.distinct fun call there => by
      obtain ⟨x, hx, rfl⟩ := List.mem_map.mp there
      exact kept.returned x hx
  have held := outstanding.length_le
  have blocked := h.counted.blocked.length_eq
  have all := h.counted.numbers.length_eq
  have calls : (s.clients.flatMap Client.calls).length =
      s.clients.length + (s.clients.flatMap Client.rest).length := by
    generalize s.clients = clients
    induction clients with
    | nil => rfl
    | cons client others ih =>
      rw [List.flatMap_cons, List.flatMap_cons, List.length_append, List.length_append, ih,
        Client.calls, List.length_cons, List.length_cons, List.length_map]
      omega
  rw [List.flatMap_nil, List.append_nil, List.length_append, List.length_range, calls] at all
  rw [List.length_map] at held
  rw [List.length_map, List.length_map] at blocked
  omega

/-- The clock moves to the next reading at which something is due. -/
theorem Ongoing.wakeAt (h : s.Ongoing v c size []) (steady : c.Steady most)
    (blocks : c.ceilings.behavior = .block) (settled : s.engine.isSettled = true)
    (next : s.engine.nextWake? = some now)
    (room : (effort most + 2) * s.published + 1 ≤ maxTurns) :
    (s.wakeAt v c now).Ongoing v c size [] ∧ (s.wakeAt v c now).engine.isSettled = true ∧
      (s.wakeAt v c now).published = s.published ∧ (s.wakeAt v c now).engine.now = now := by
  have woken : Ongoing v c size [] { s with engine := s.engine.moveTo now } :=
    ⟨h.driven.step (.wake now settled next), h.counted.congr (Engine.desk_moveTo ..) (.refl _),
      h.lasts⟩
  have reached := h.driven.reachable
  have some : ∀ sending ∈ s.engine.sends, sending.batch.entries ≠ [] := fun sending hs =>
    reached.dispatches_nonempty _ (reached.ordered.sends _ (List.mem_map_of_mem hs))
  have load := Engine.load_moveTo most settled some now
  have held := Nat.mul_le_mul_left (effort most + 2) h.held
  rw [Nat.mul_add] at held
  have enough : Session.load most { s with engine := s.engine.moveTo now } ≤ maxTurns := by
    unfold Session.load
    dsimp only
    omega
  obtain ⟨⟨ongoing, published, still⟩, last⟩ := woken.runReady steady blocks enough
  exact ⟨ongoing, last, published, still.trans (Engine.now_moveTo s.engine now)⟩

/-- The last reading at which anything can be due. -/
theorem Ongoing.now_le (h : s.Ongoing v c size []) :
    s.engine.now ≤ c.span * s.published + Clock.ceilMillis c.thresholds.delay.nanos := by
  have onTime := h.driven.onTime (h.lasts.mono h.admitted_le)
  have few := h.driven.reachable.dispatched_le onTime.alive
  have room := Nat.mul_le_mul_left c.span (Nat.le_trans few h.admitted_le)
  exact Nat.le_trans onTime.now_le (Nat.add_le_add_right room _)

/-- A session that waits for no reading has nothing left to do. -/
theorem Ongoing.finished (h : s.Ongoing v c size []) (valid : c.ceilings.validate = .ok ())
    (settled : s.engine.isSettled = true) (next : s.engine.nextWake? = none) :
    s.clients = [] ∧ s.engine.admission.live.toList = [] := by
  have reached := h.driven.reachable
  have pending : s.engine.pending = [] :=
    List.map_eq_nil_iff.mp (List.min?_eq_none_iff.mp next)
  have done : s.engine.custody.outstanding = [] := by
    refine List.eq_nil_iff_forall_not_mem.mpr fun x underway => ?_
    rcases reached.outstanding_waits settled underway with
      ⟨-, wake, waits, -⟩ | ⟨sending, hs, -, wake, waits, -⟩
    · exact List.ne_nil_of_mem (Engine.pending_batching waits) pending
    · exact List.ne_nil_of_mem (Engine.pending_sending hs waits) pending
  have nobody := reached.nobody_blocked valid settled done
  have clients := h.counted.blocked
  rw [nobody] at clients
  have live := reached.sound.kept.live
  rw [Custody.underway, done] at live
  exact ⟨List.map_eq_nil_iff.mp (List.nil_perm.mp clients), List.perm_nil.mp live⟩

/-- When every message has its outcome, the engine holds nothing. -/
theorem Ongoing.vacant (h : s.Ongoing v c size []) (steady : c.Steady most)
    (settled : s.engine.isSettled = true) (clients : s.clients = [])
    (live : s.engine.admission.live.toList = []) : s.engine.Vacant := by
  have lively := h.lively steady
  have reached := h.driven.reachable
  have kept := lively.sound.kept
  have outstanding : s.engine.custody.outstanding = [] := by
    have reservations := kept.live
    change s.engine.admission.live.toList.Perm
      (s.engine.custody.outstanding.map Entry.reservation) at reservations
    rw [live] at reservations
    exact List.map_eq_nil_iff.mp (List.nil_perm.mp reservations)
  obtain ⟨sent, queue⟩ := List.append_eq_nil_iff.mp outstanding
  obtain ⟨sent, current⟩ := List.append_eq_nil_iff.mp sent
  have waiting : s.engine.admission.waiting = [] := by
    have blocked := h.counted.blocked
    rw [clients] at blocked
    have asked : s.engine.admission.asked.Perm (s.engine.blocked.map Entry.reservation) :=
      kept.asked
    rw [List.map_eq_nil_iff.mp (List.perm_nil.mp blocked)] at asked
    exact List.map_eq_nil_iff.mp (List.perm_nil.mp asked)
  exact {
    settled := settled
    opened := lively.opened
    running := lively.running
    sends := by
      refine List.eq_nil_iff_forall_not_mem.mpr fun sending hs => ?_
      have sending : (sending.id, sending.batch) ∈ s.engine.custody.sends :=
        List.mem_map_of_mem hs
      exact reached.dispatches_nonempty _ (reached.ordered.sends _ sending)
        (List.flatMap_eq_nil_iff.mp sent _ sending)
    current := current
    queue := queue
    nobody := lively.nobody
    untold := lively.balanced.close_told waiting }

end Session

namespace Bench

/-! The load of a benchmark -/

theorem size_payload (size : Nat) : (payload size).size = size := by
  have pushed (letter : Nat → UInt8) (bytes : ByteArray) (count : Nat) :
      (Nat.fold count (fun i _ bytes => bytes.push (letter i)) bytes).size =
        bytes.size + count := by
    induction count with
    | zero => rfl
    | succ count ih => rw [Nat.fold_succ, ByteArray.size_push, ih, Nat.add_assoc]
  exact (pushed _ _ size).trans (Nat.zero_add size)

namespace Run

variable {c : Config} {message : Message} {s : State} {size most : Nat}

theorem beginAll_ongoing (counts : List Nat) (h : s.Ongoing Simulated.service c size [])
    (steady : c.Steady most) (blocks : c.ceilings.behavior = .block) (sized : message.size = size)
    (lasts : c.Lasts (s.published + total id counts)) :
    (beginAll c message counts s).Ongoing Simulated.service c size [] ∧
      (beginAll c message counts s).load most ≤ s.load most + (effort most + 2) * total id counts ∧
      (beginAll c message counts s).published = s.published + total id counts := by
  induction counts generalizing s with
  | nil => exact ⟨h, Nat.le_refl _, rfl⟩
  | cons count rest ih =>
    rw [total_cons, id, ← Nat.add_assoc] at lasts
    have length : (List.replicate count message).length = count := List.length_replicate
    have same : ∀ m ∈ List.replicate count message, m.size = size := fun m hm =>
      List.eq_of_mem_replicate hm ▸ sized
    have fewer : c.Lasts (s.published + (List.replicate count message).length) :=
      lasts.mono (by rw [length]; exact Nat.le_add_right _ _)
    obtain ⟨begun, first, here⟩ := h.begin steady blocks same fewer
    rw [length] at first here
    obtain ⟨ongoing, others, all⟩ := ih begun (by rw [here]; exact lasts)
    refine ⟨ongoing, Nat.le_trans others ?_, all.trans ?_⟩
    · rw [total_cons, id, Nat.mul_add]
      omega
    · rw [here, total_cons, id, Nat.add_assoc]

theorem isDone_iff : isDone s = true ↔ s.clients = [] ∧ s.engine.admission.live.toList = [] := by
  rw [isDone, Bool.and_eq_true, List.isEmpty_iff, Fifo.isEmpty_iff]

/-- At one of the readings that are left every message has its outcome. -/
theorem finish_done (h : s.Ongoing Simulated.service c size []) (steady : c.Steady most)
    (blocks : c.ceilings.behavior = .block) (valid : c.ceilings.validate = .ok ())
    (room : (effort most + 2) * s.published + 1 ≤ Session.maxTurns)
    (settled : s.engine.isSettled = true) {fuel : Nat}
    (late : c.span * s.published + Clock.ceilMillis c.thresholds.delay.nanos <
      s.engine.now + fuel) :
    (finish c fuel s).Ongoing Simulated.service c size [] ∧
      (finish c fuel s).engine.isSettled = true ∧ isDone (finish c fuel s) = true ∧
      (finish c fuel s).published = s.published := by
  induction fuel generalizing s with
  | zero =>
    have early := h.now_le
    omega
  | succ fuel ih =>
    unfold finish
    split
    · next done => exact ⟨h, settled, done, rfl⟩
    next busy =>
    split
    · next wake next =>
      have later := h.driven.reachable.nextWake_later settled next
      obtain ⟨ongoing, rests, published, now⟩ := h.wakeAt steady blocks settled next room
      rw [← published] at room late
      obtain ⟨last, still, done, same⟩ := ih ongoing room rests (by omega)
      exact ⟨last, still, done, same.trans published⟩
    · next none =>
      exact absurd (isDone_iff.mpr (h.finished valid settled none)) busy

end Run
end Bench
end TopicPublisher
