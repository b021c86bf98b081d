import TopicPublisher.Proofs.Engine.Moves.Batching

/-!
The moves of entries that the tasks make that send batches. When the sending of a batch ends, all
its entries are ending.
-/

namespace TopicPublisher

/-- A call of the service can bring down the task that made it. -/
def Service.MayCrash {σ τ : Type} (v : Service σ τ) : Prop :=
  ∃ state call, (v.answer state call).1 = .crash

/-- A call that ended has a reply, or its timeout came first; only a reply can crash the task. -/
theorem Service.Ends.mayCrash {σ τ : Type} {v : Service σ τ} {state state' : σ} {now limit : Nat}
    {answerAt : Option Nat} {call : τ} {reply : Option Reply}
    (ends : v.Ends state now limit answerAt call reply state') {timeout : Duration}
    (crash : replyOr timeout reply = .crash) : v.MayCrash := by
  cases ends with
  | answered _ => exact ⟨state, call, crash⟩
  | timedOut _ _ => cases crash

namespace Engine

open Custody (Move Moves)

variable {σ τ : Type} {v : Service σ τ} {c : Config} {mayCrash : Prop} {e f : Engine σ τ}
  {s : Sending τ} {result : SendResult}

/-- A batch that is sent keeps its entries, whatever becomes of its attempts. -/
theorem setSending_moves {k l : Custody} (moves : Moves c mayCrash k l) (same : e.custody = l)
    (numbered : (l.sends.map Prod.fst).Nodup) (hs : (s.id, s.batch) ∈ l.sends) :
    Moves c mayCrash k (e.setSending s).custody := by
  subst same
  have same : ((e.setSending s).sends.map fun t => (t.id, t.batch)) = e.custody.sends := by
    unfold setSending
    rw [List.map_map]
    refine List.map_congr_left fun t ht => ?_
    have mem : (t.id, t.batch) ∈ e.custody.sends := List.mem_map_of_mem ht
    by_cases hid : t.id = s.id
    · have one : (t.id, t.batch) = (s.id, s.batch) := List.inj_on_of_nodup_map numbered mem hs hid
      simp [hid, ← one]
    · simp [hid]
  rw [custody, same]
  exact moves

theorem custody_count (e : Engine σ τ) (messages : Nat) (result : SendResult) :
    custody { e with counters := result.count messages e.counters } =
      e.custody.counted messages result := by
  cases result <;> rfl

theorem endSending_moves (hs : (s.id, s.batch) ∈ e.custody.sends)
    (parallel : (result.outcomes s.batch.size).length = s.batch.size)
    (crash : result = .crashed → mayCrash) :
    Moves c mayCrash e.custody (e.endSending s result).custody := by
  -- The batch leaves the sends in one move, and its entries then get their outcomes one by one.
  refine .head (Move.finish s.id s.batch result hs rfl parallel crash) ?_
  have quiet (k : Custody) : k.note (endOf s result) = k := by
    rw [endOf, Custody.note_append, Custody.note_logs, Custody.note_sendEnded]
  have filtered : custody { e with
        counters := result.count s.batch.size e.counters
        sends := e.sends.filter (·.id != s.id) } =
      { e.custody.counted s.batch.size result with
        sends := e.custody.sends.filter (·.1 != s.id) } := by
    rw [← custody_count]
    simp only [custody, List.filter_map, Function.comp_def]
    rfl
  have moves := resolveAll_moves c mayCrash (s.batch.entries.zip (result.outcomes s.batch.size))
    ({ e with
      counters := result.count s.batch.size e.counters
      sends := e.sends.filter (·.id != s.id) }.note (endOf s result))
  have outcomes : (s.batch.entries.zip (result.outcomes s.batch.size)).map
      (fun o => (o.1.id, o.2)) = s.batch.ids.zip (result.outcomes s.batch.size) := by
    rw [Batch.ids, List.zip_map_left]
    rfl
  rw [custody_note, quiet, filtered, outcomes] at moves
  rw [endSending_eq, custody_wakeShutdowns]
  cases result <;> exact moves

/-- A final verdict has one outcome for each message. -/
theorem outcomes_length {reply : Reply} {messages : Nat}
    (h : reply.verdict messages = .final result) :
    (result.outcomes messages).length = messages := by
  unfold Reply.verdict at h
  split at h
  · split at h
    · next same =>
      cases h
      simpa [SendResult.outcomes] using same
    · cases h
      simp [SendResult.outcomes]
  · split at h
    · cases h
    · cases h
      simp [SendResult.outcomes]
  · cases h
    simp [SendResult.outcomes]

theorem verdict_crashed {reply : Reply} {messages : Nat}
    (h : reply.verdict messages = .final .crashed) : reply = .crash := by
  unfold Reply.verdict at h
  split at h
  · split at h <;> cases h
  · split at h <;> cases h
  · rfl

theorem SendingTurn.moves {again : Bool} (turn : SendingTurn v c e s (again, f))
    (h : e.custody.Sound c) (hs : (s.id, s.batch) ∈ e.custody.sends) :
    Moves c v.MayCrash e.custody f.custody := by
  have numbered := h.kept.numbered
  have answered (service : σ) (reply : Option Reply) :
      ({ e with service := service }.note [.answered s.id s.attempts reply]).custody =
        e.custody := by
    rw [custody_note, Custody.note_answered]
    rfl
  cases turn with
  | call timeout latency call service _ _ _ =>
    have step : Move c v.MayCrash e.custody _ := .call s.id (s.attempts + 1) s.batch hs
    have called : ({ e with
        counters := e.counters.countAttempt
        service := service }.note
          [.logged (some s.id) (.sendAttempt (.ofNat (s.attempts + 1)) s.batch.size),
            .called s.id (s.attempts + 1) s.batch.messages]).custody =
        e.custody.note [.called s.id (s.attempts + 1) s.batch.messages] := by
      rw [custody_note, Custody.note_cons, Custody.note_logged]
      rfl
    exact setSending_moves (.single step) called (h.move step).kept.numbered hs
  | wait wake _ _ =>
    have moves : Moves c v.MayCrash e.custody (e.setSending { s with alarm := e.alarms }).custody :=
      setSending_moves .refl rfl numbered hs
    exact moves
  | settle timeout limit answerAt call reply service result _ ends final =>
    have same := answered service reply
    rw [← same]
    refine endSending_moves (same ▸ hs) (outcomes_length final) ?_
    rintro rfl
    exact ends.mayCrash (verdict_crashed final)
  | fail timeout limit answerAt call reply service error _ _ _ =>
    refine setSending_moves .refl ?_ numbered hs
    rw [custody_note, Custody.note_cons, Custody.note_logs, ← custody_note]
    exact answered service reply
  | resume wake error _ _ _ =>
    exact setSending_moves .refl rfl numbered hs
  | exhaust wake error _ _ _ => exact endSending_moves hs (by simp [SendResult.outcomes]) nofun

end Engine
end TopicPublisher
