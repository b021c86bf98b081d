import TopicPublisher.Proofs.Engine.Punctual
import TopicPublisher.Proofs.Engine.Trail
import TopicPublisher.Proofs.Keyed
import TopicPublisher.Proofs.Retry.Opening

/-!
The sending of a batch set against a send by itself. On a virtual clock the calls that were made
for a batch are the first attempts of such a send, and the task that makes them stands where the
send does.
-/

namespace TopicPublisher

/-- What happens in an attempt: the call begins, and ends. -/
def Attempt.happenings (n : Nat) (messages : List Message) (a : Attempt) :
    List (Nat × Happening) :=
  [(a.started, .called n a.number messages), (a.ended, .answered n a.number a.reply)]

/-- What happens in a send of a batch with this number. -/
def Transcript.happenings (n : Nat) (messages : List Message) (t : Transcript) :
    List (Nat × Happening) :=
  t.attempts.flatMap (·.happenings n messages) ++
    (t.result.map fun result => (t.ended, .sendEnded n result)).toList

/-- How a task that sends a batch stands. -/
structure Sending.Serves {τ : Type} (s : Sending τ) (b : Batch) (started attempts : Nat)
    (phase : SendPhase τ) : Prop where
  batch : s.batch = b
  started : s.started = started
  attempts : s.attempts = attempts
  phase : s.phase = phase

/-- What has happened to a batch is how a send by itself goes that began when the batch was
dispatched, and the task that sends the batch goes on as that send does. -/
inductive Track {τ : Type} (p : RetryPolicy) (n : Nat) (b : Batch) (started now : Nat) :
    Option (Sending τ) → List (Nat × Happening) → Prop where
  | ready (s : Sending τ) (as : List Attempt) : s.Serves b started as.length .ready →
      Opens p b.size started as now →
      Track p n b started now (some s) (as.flatMap (·.happenings n b.messages))
  | calling (s : Sending τ) (as : List Attempt) (since : Nat) (answerAt : Option Nat) (call : τ) :
      s.Serves b started (as.length + 1)
        (.calling (p.attemptTimeout started since (as.length + 1))
          (Clock.wakeAfter since (p.attemptTimeout started since (as.length + 1))) answerAt call) →
      Opens p b.size started as since → since ≤ now →
      Track p n b started now (some s)
        (as.flatMap (·.happenings n b.messages) ++ [(since, .called n (as.length + 1) b.messages)])
  | pausing (s : Sending τ) (as : List Attempt) (a : Attempt) (error : TransportError) :
      s.Serves b started a.number (.pausing (p.resumeAt started a.ended a.number) error) →
      a.Follows p b.size started as → a.verdict b.size = .retry error →
      Track p n b started now (some s) ((as ++ [a]).flatMap (·.happenings n b.messages))
  | ended (as : List Attempt) (a : Attempt) (ended : Nat) (result : SendResult) :
      a.Follows p b.size started as → a.Closes p b.size started ended result →
      Track p n b started now none
        ((as ++ [a]).flatMap (·.happenings n b.messages) ++ [(ended, .sendEnded n result)])

namespace Transit

variable {σ τ : Type} {v : Service σ τ} {c : Config} {k l : Transit σ τ} {s : Sending τ}
  {n m started : Nat} {b : Batch}

def sending? (k : Transit σ τ) (n : Nat) : Option (Sending τ) := k.sends.find? (·.id == n)

/-- What has happened to a batch in its calls. -/
def course (k : Transit σ τ) (n : Nat) : List (Nat × Happening) := k.log.filter (·.2.concerns n)

abbrev OnTrack (p : RetryPolicy) (n : Nat) (b : Batch) (started : Nat) (k : Transit σ τ) : Prop :=
  Track p n b started k.now (k.sending? n) (k.course n)

theorem course_note (k : Transit σ τ) (hs : List Happening) (n : Nat) :
    (k.note hs).course n = k.course n ++ (hs.filter (·.concerns n)).map (k.now, ·) := by
  rw [course, course, note, List.filter_append, List.filter_map]
  rfl

theorem course_note_other (k : Transit σ τ) {h : Happening} (other : h.concerns n = false) :
    (k.note [h]).course n = k.course n := by
  rw [course_note, List.filter_cons_of_neg (Bool.eq_false_iff.mp other), List.filter_nil,
    List.map_nil, List.append_nil]

theorem course_note_own (k : Transit σ τ) {h : Happening} (own : h.concerns n = true) :
    (k.note [h]).course n = k.course n ++ [(k.now, h)] := by
  rw [course_note, List.filter_cons_of_pos own]
  rfl

theorem sending?_set (k : Transit σ τ) (s : Sending τ) (n : Nat) :
    (k.set s).sending? n = (k.sending? n).map fun t => if t.id == s.id then s else t :=
  find?_replace_key k.sends s n

theorem sending?_set_self (here : k.sending? s.id = some s) {t : Sending τ} (hid : t.id = s.id) :
    (k.set t).sending? s.id = some t := by
  rw [sending?_set, here, Option.map_some, hid]
  simp

theorem sending?_set_other (other : s.id ≠ n) : (k.set s).sending? n = k.sending? n := by
  rw [sending?_set]
  cases here : k.sending? n with
  | none => rfl
  | some t =>
    have hid : t.id = n := by simpa using List.find?_some here
    have differs : (t.id == s.id) = false := by simpa [hid] using other.symm
    rw [Option.map_some, differs]
    rfl

theorem sending?_finish_self (k : Transit σ τ) (s : Sending τ) (result : SendResult) :
    (k.finish s result).sending? s.id = none :=
  find?_remove_key k.sends s.id

/-! The task that sends the batch -/

variable {p : RetryPolicy}

/-- A call ends where an attempt ends: with its reply, or with its timeout. -/
theorem runs_of_ends {since number : Nat} {answerAt : Option Nat} {call : τ}
    {reply : Option Reply} {service : σ} (later : since ≤ k.now)
    (ends : v.Ends k.service k.now
      (Clock.wakeAfter since (p.attemptTimeout started since number)) answerAt call reply service)
    (inTime : k.now ≤ Clock.wakeAfter since (p.attemptTimeout started since number)) :
    Attempt.Runs p started
      ⟨number, since, p.attemptTimeout started since number, k.now, reply⟩ := by
  refine ⟨rfl, later, inTime, fun none => ?_⟩
  cases ends with
  | answered _ => cases none
  | timedOut _ late => exact late

theorem onTrack_set (here : k.sending? s.id = some s) {t : Sending τ} (hid : t.id = s.id)
    (track : Track p s.id b started k.now (some t) (k.course s.id)) :
    (k.set t).OnTrack p s.id b started := by
  unfold OnTrack
  rw [sending?_set_self here hid]
  exact track

theorem onTrack_finish {result : SendResult}
    (track : Track p s.id b started k.now (none : Option (Sending τ))
      (k.course s.id ++ [(k.now, .sendEnded s.id result)])) :
    (k.finish s result).OnTrack p s.id b started := by
  have own : (Happening.sendEnded s.id result).concerns s.id = true := beq_self_eq_true _
  have ended : (k.finish s result).course s.id = k.course s.id ++ [(k.now, _)] :=
    course_note_own { k with counters := _, sends := _ } own
  unfold OnTrack
  rw [sending?_finish_self, ended]
  exact track

/-- The attempts of a batch whose next attempt is about to begin. -/
theorem OnTrack.starts (h : k.OnTrack p s.id b started) (here : k.sending? s.id = some s)
    (ready : s.phase = .ready) :
    ∃ as : List Attempt, s.Serves b started as.length .ready ∧ Opens p b.size started as k.now ∧
      k.course s.id = as.flatMap (·.happenings s.id b.messages) := by
  unfold OnTrack at h
  rw [here] at h
  generalize k.course s.id = course at h
  cases h with
  | ready _ as serves opens => exact ⟨as, serves, opens, rfl⟩
  | calling _ as since answerAt call serves opens later => cases serves.phase.symm.trans ready
  | pausing _ as a error serves follows verdict => cases serves.phase.symm.trans ready

/-- The attempt that a call was, once it has ended. -/
theorem OnTrack.answers (h : k.OnTrack p s.id b started) (here : k.sending? s.id = some s)
    (punctual : s.Punctual p k.now) {timeout : Duration} {limit : Nat} {answerAt : Option Nat}
    {call : τ} {reply : Option Reply} {service : σ}
    (phase : s.phase = .calling timeout limit answerAt call)
    (ends : v.Ends k.service k.now limit answerAt call reply service) :
    ∃ (as : List Attempt) (a : Attempt), s.Serves b started a.number s.phase ∧
      a.Follows p b.size started as ∧ a.ended = k.now ∧
      a.verdict b.size = (replyOr timeout reply).verdict s.batch.size ∧
      (k.answer s service reply).course s.id =
        (as ++ [a]).flatMap (·.happenings s.id b.messages) := by
  have own : (Happening.answered s.id s.attempts reply).concerns s.id = true := beq_self_eq_true _
  have answered : (k.answer s service reply).course s.id = k.course s.id ++ [(k.now, _)] :=
    course_note_own { k with service := service } own
  unfold OnTrack at h
  rw [here] at h
  rw [answered]
  generalize k.course s.id = course at h
  cases h with
  | ready _ as serves opens => cases serves.phase.symm.trans phase
  | pausing _ as a error serves follows verdict => cases serves.phase.symm.trans phase
  | calling _ as since _ _ serves opens later =>
    have waits : s.phase.wake? = some _ := congrArg SendPhase.wake? phase
    have inTime := Nat.le_trans (punctual.early _ waits) (Nat.min_le_left _ _)
    cases serves.phase.symm.trans phase
    refine ⟨as, ⟨as.length + 1, since, _, k.now, reply⟩, { serves with phase := rfl },
      ⟨opens, runs_of_ends later ends inTime, rfl⟩, rfl, ?_, ?_⟩
    · rw [serves.batch]
      rfl
    · rw [serves.attempts, List.flatMap_append, List.append_assoc]
      rfl

/-- The last attempt of a batch, and when its pause is over. -/
theorem OnTrack.resumes (h : k.OnTrack p s.id b started) (here : k.sending? s.id = some s)
    (punctual : s.Punctual p k.now) {wake : Nat} {error : TransportError}
    (phase : s.phase = .pausing wake error) (past : wake ≤ k.now) :
    ∃ (as : List Attempt) (a : Attempt), s.Serves b started a.number s.phase ∧
      a.Follows p b.size started as ∧ a.verdict b.size = .retry error ∧
      k.now = p.resumeAt started a.ended a.number ∧
      k.course s.id = (as ++ [a]).flatMap (·.happenings s.id b.messages) := by
  have now := Nat.le_antisymm (punctual.early wake (congrArg SendPhase.wake? phase)) past
  unfold OnTrack at h
  rw [here] at h
  generalize k.course s.id = course at h
  cases h with
  | ready _ as serves opens => cases serves.phase.symm.trans phase
  | calling _ as since answerAt call serves opens later => cases serves.phase.symm.trans phase
  | pausing _ as a error serves follows verdict =>
    cases serves.phase.symm.trans phase
    exact ⟨as, a, { serves with phase := rfl }, follows, verdict, now, rfl⟩

theorem OnTrack.call (h : k.OnTrack c.retries s.id b started)
    (here : k.sending? s.id = some s) (ready : s.phase = .ready) :
    (k.call v c s).OnTrack c.retries s.id b started := by
  obtain ⟨as, serves, opens, course⟩ := h.starts here ready
  have own : (Happening.called s.id (s.attempts + 1) s.batch.messages).concerns s.id = true :=
    beq_self_eq_true _
  unfold Transit.call
  refine onTrack_set (k := note { k with service := _, counters := _ } _) here rfl ?_
  rw [course_note_own _ own]
  change Track c.retries s.id b started k.now _ (k.course s.id ++ [(k.now, _)])
  rw [course, serves.batch, serves.attempts, serves.started]
  exact .calling _ as k.now _ _ ⟨rfl, rfl, rfl, rfl⟩ opens (Nat.le_refl _)

/-- A turn of the task that sends a batch is what a send by itself does next. -/
theorem OnTrack.own (h : k.OnTrack c.retries s.id b started) (here : k.sending? s.id = some s)
    (punctual : s.Punctual c.retries k.now) (turn : Forward v c k s l) :
    l.OnTrack c.retries s.id b started := by
  cases turn with
  | call ready => exact h.call here ready
  | wait wake alarm waits early =>
    refine onTrack_set here rfl ?_
    unfold OnTrack at h
    rw [here] at h
    generalize k.course s.id = course at h ⊢
    cases h with
    | ready _ as serves opens =>
      rw [serves.phase] at waits
      cases waits
    | calling _ as since answerAt call serves opens later =>
      exact .calling _ as since answerAt call { serves with } opens later
    | pausing _ as a error serves follows verdict =>
      exact .pausing _ as a error { serves with } follows verdict
  | settle timeout limit answerAt call reply service result phase ends verdict =>
    obtain ⟨as, a, serves, follows, now, same, course⟩ := h.answers here punctual phase ends
    refine onTrack_finish (k := k.answer s service reply) ?_
    rw [course, show (k.answer s service reply).now = a.ended from now.symm]
    exact .ended as a a.ended result follows (.final result (same.trans verdict))
  | fail timeout limit answerAt call reply service error phase ends verdict =>
    obtain ⟨as, a, serves, follows, now, same, course⟩ := h.answers here punctual phase ends
    refine onTrack_set (k := k.answer s service reply) here rfl ?_
    rw [course]
    refine .pausing _ as a error { serves with phase := ?_ } follows (same.trans verdict)
    rw [serves.started, serves.attempts, now]
  | resume wake error phase past left =>
    obtain ⟨as, a, serves, follows, verdict, now, course⟩ := h.resumes here punctual phase past
    refine onTrack_set (k := { k with counters := _ }) here rfl ?_
    change Track c.retries s.id b started k.now _ (k.course s.id)
    rw [serves.started, now] at left
    rw [course]
    refine .ready _ (as ++ [a]) { serves with attempts := ?_, phase := rfl } ?_
    · rw [List.length_append, List.length_singleton, ← follows.number]
      exact serves.attempts
    · rw [now]
      exact .again as a error follows.opens follows.runs follows.number verdict left
  | exhaust wake error phase past spent =>
    obtain ⟨as, a, serves, follows, verdict, now, course⟩ := h.resumes here punctual phase past
    refine onTrack_finish ?_
    rw [serves.started, now] at spent
    rw [course, serves.attempts, now]
    exact .ended as a _ _ follows (.exhausted error verdict spent)

/-! All batches -/

/-- What a turn enters into the log is about the batch whose turn it is. -/
theorem Forward.enters (turn : Forward v c k s l) :
    l.now = k.now ∧ l.dispatched = k.dispatched ∧
      ∃ hs : List Happening, l.log = k.log ++ hs.map (k.now, ·) ∧
        ∀ h ∈ hs, h.dispatched? = none ∧ ∀ n, h.concerns n = (s.id == n) := by
  have none : k.log = k.log ++ ([] : List Happening).map (k.now, ·) := (List.append_nil _).symm
  cases turn with
  | call ready =>
    exact ⟨rfl, rfl, [.called s.id (s.attempts + 1) s.batch.messages], rfl,
      List.forall_mem_singleton.mpr ⟨rfl, fun _ => rfl⟩⟩
  | wait wake alarm waits early => exact ⟨rfl, rfl, [], none, List.forall_mem_nil _⟩
  | settle timeout limit answerAt call reply service result phase ends verdict =>
    refine ⟨rfl, rfl, [.answered s.id s.attempts reply, .sendEnded s.id result],
      List.append_assoc .., ?_⟩
    exact List.forall_mem_cons.mpr
      ⟨⟨rfl, fun _ => rfl⟩, List.forall_mem_singleton.mpr ⟨rfl, fun _ => rfl⟩⟩
  | fail timeout limit answerAt call reply service error phase ends verdict =>
    exact ⟨rfl, rfl, [.answered s.id s.attempts reply], rfl,
      List.forall_mem_singleton.mpr ⟨rfl, fun _ => rfl⟩⟩
  | resume wake error phase past left => exact ⟨rfl, rfl, [], none, List.forall_mem_nil _⟩
  | exhaust wake error phase past spent =>
    exact ⟨rfl, rfl, [.sendEnded s.id (.failed (c.retries.exhausted s.attempts error))], rfl,
      List.forall_mem_singleton.mpr ⟨rfl, fun _ => rfl⟩⟩

/-- The task that has its turn goes on, or ends. -/
theorem Forward.sends (turn : Forward v c k s l) :
    (∃ t : Sending τ, l.sends = (k.set t).sends ∧ t.id = s.id) ∨
      l.sends = k.sends.filter (·.id != s.id) := by
  cases turn with
  | call ready => exact .inl ⟨_, rfl, rfl⟩
  | wait wake alarm waits early => exact .inl ⟨_, rfl, rfl⟩
  | settle timeout limit answerAt call reply service result phase ends verdict => exact .inr rfl
  | fail timeout limit answerAt call reply service error phase ends verdict =>
    exact .inl ⟨_, rfl, rfl⟩
  | resume wake error phase past left => exact .inl ⟨_, rfl, rfl⟩
  | exhaust wake error phase past spent => exact .inr rfl

theorem Forward.sending?_other (turn : Forward v c k s l) (other : s.id ≠ n) :
    l.sending? n = k.sending? n := by
  unfold sending?
  rcases turn.sends with ⟨t, set, hid⟩ | removed
  · rw [set]
    exact sending?_set_other (hid ▸ other)
  · rw [removed]
    exact find?_remove_other k.sends other

theorem Forward.course_other (turn : Forward v c k s l) (other : s.id ≠ n) :
    l.course n = k.course n := by
  obtain ⟨-, -, hs, log, about⟩ := turn.enters
  have none : (hs.map (k.now, ·)).filter (·.2.concerns n) = [] := by
    refine List.filter_eq_nil_iff.mpr fun h hh => ?_
    obtain ⟨x, hx, rfl⟩ := List.mem_map.mp hh
    rw [(about x hx).2 n]
    simpa using other
  rw [course, course, log, List.filter_append, none, List.append_nil]

/-- Every batch that was dispatched is on its track, and nothing has happened to any other one. -/
structure Tracked (c : Config) (k : Transit σ τ) : Prop where
  sending : ∀ s ∈ k.sends, s.id < k.dispatched
  concerned : ∀ h ∈ k.log, ∀ n, h.2.concerns n = true → n < k.dispatched
  tracks : ∀ started n b, (started, .dispatched n b) ∈ k.log →
    n < k.dispatched ∧ k.OnTrack c.retries n b started

theorem Tracked.forward (h : k.Tracked c) (here : k.sending? s.id = some s)
    (punctual : s.Punctual c.retries k.now) (turn : Forward v c k s l) : l.Tracked c := by
  obtain ⟨now, dispatched, hs, log, about⟩ := turn.enters
  have there : s ∈ k.sends := List.mem_of_find?_eq_some here
  refine ⟨fun t ht => ?_, fun x hx n own => ?_, fun started n b hd => ?_⟩
  · rw [dispatched]
    rcases turn.sends with ⟨u, set, hid⟩ | removed
    · obtain ⟨w, hw, rfl⟩ := List.mem_map.mp (set ▸ ht)
      split
      · exact hid ▸ h.sending s there
      · exact h.sending w hw
    · exact h.sending t (List.mem_of_mem_filter (removed ▸ ht))
  · rw [dispatched]
    rcases List.mem_append.mp (log ▸ hx) with old | new
    · exact h.concerned x old n own
    · obtain ⟨y, hy, rfl⟩ := List.mem_map.mp new
      obtain rfl : s.id = n := by simpa [(about y hy).2 n] using own
      exact h.sending s there
  · rcases List.mem_append.mp (log ▸ hd) with old | new
    · obtain ⟨earlier, track⟩ := h.tracks started n b old
      rw [dispatched]
      refine ⟨earlier, ?_⟩
      by_cases own : s.id = n
      · subst own
        exact track.own here punctual turn
      · unfold OnTrack
        rw [now, turn.sending?_other own, turn.course_other own]
        exact track
    · obtain ⟨y, hy, same⟩ := List.mem_map.mp new
      cases same
      cases (about _ hy).1

/-- A batch begins when it is dispatched. -/
theorem Tracked.dispatch (h : k.Tracked c) (b : Batch) : (k.dispatch b).Tracked c := by
  have log : (k.dispatch b).log = k.log ++ [(k.now, .dispatched k.dispatched b)] := rfl
  have course (n : Nat) : (k.dispatch b).course n = k.course n :=
    course_note_other { k with dispatched := _, sends := _ } rfl
  have sending (n : Nat) (other : k.dispatched ≠ n) : (k.dispatch b).sending? n = k.sending? n := by
    refine List.find?_append.trans ?_
    simp [other, sending?]
  refine ⟨fun s hs => ?_, fun x hx n own => ?_, fun started n b' hd => ?_⟩
  · rcases List.mem_append.mp hs with old | new
    · exact Nat.lt_succ_of_lt (h.sending s old)
    · obtain rfl := List.mem_singleton.mp new
      exact Nat.lt_succ_self _
  · rcases List.mem_append.mp (log ▸ hx) with old | new
    · exact Nat.lt_succ_of_lt (h.concerned x old n own)
    · obtain rfl := List.mem_singleton.mp new
      cases own
  · rcases List.mem_append.mp (log ▸ hd) with old | new
    · obtain ⟨earlier, track⟩ := h.tracks started n b' old
      refine ⟨Nat.lt_succ_of_lt earlier, ?_⟩
      unfold OnTrack
      rw [sending n (Nat.ne_of_gt earlier), course]
      exact track
    · cases List.mem_singleton.mp new
      have none : k.course k.dispatched = [] := by
        refine List.filter_eq_nil_iff.mpr fun x hx own => ?_
        exact absurd (h.concerned x hx _ own) (Nat.lt_irrefl _)
      have unsent : k.sends.find? (·.id == k.dispatched) = Option.none := by
        refine List.find?_eq_none.mpr fun s hs same => ?_
        exact absurd (h.sending s hs) (by simp [beq_iff_eq.mp same])
      have begins : (k.dispatch b).sending? k.dispatched =
          some { id := k.dispatched, batch := b, started := k.now } := by
        refine List.find?_append.trans ?_
        rw [unsent]
        simp
      refine ⟨Nat.lt_succ_self _, ?_⟩
      unfold OnTrack
      rw [begins, course, none]
      exact .ready _ [] ⟨rfl, rfl, rfl, rfl⟩ .start

theorem Tracked.dispatchAll (h : k.Tracked c) (bs : List Batch) : (k.dispatchAll bs).Tracked c :=
  dispatchAll_carries (motive := Tracked c) (fun b h => Tracked.dispatch h b) h bs

theorem Tracked.gather (h : k.Tracked c) (gather : Gather c k l) : l.Tracked c := by
  cases gather with
  | enqueue x _ =>
    refine ⟨h.sending, fun y hy n own => ?_, fun started n b hd => ?_⟩
    · rcases List.mem_append.mp hy with old | new
      · exact h.concerned y old n own
      · obtain rfl := List.mem_singleton.mp new
        cases own
    · rcases List.mem_append.mp hd with old | new
      · have course : (k.note [.admitted x]).course n = k.course n := course_note_other k rfl
        refine (h.tracks started n b old).imp_right fun track => ?_
        change Track c.retries n b started k.now (k.sending? n) ((k.note [.admitted x]).course n)
        rw [course]
        exact track
      · cases List.mem_singleton.mp new
  | add x rest closed batcher _ _ _ =>
    exact Tracked.dispatchAll (k := { k with queue := rest, batcher := batcher }) { h with } closed
  | close _ _ => exact Tracked.dispatch (k := { k with batcher := {} }) { h with } _
  | retire _ _ _ => exact { h with }
  | kill _ _ => exact { h with }

/-- Time may pass for a batch unless its next attempt is about to begin. -/
theorem OnTrack.pass (h : k.OnTrack p n b started) {now : Nat} (later : k.now ≤ now)
    (waits : ∀ s, k.sending? n = some s → s.phase ≠ .ready) :
    OnTrack p n b started { k with now := now } := by
  unfold OnTrack at h
  change Track p n b started now (k.sending? n) (k.course n)
  generalize k.sending? n = sending at h waits
  generalize k.course n = course at h
  cases h with
  | ready s as serves opens => exact absurd serves.phase (waits s rfl)
  | calling s as since answerAt call serves opens began =>
    exact .calling s as since answerAt call serves opens (Nat.le_trans began later)
  | pausing s as a error serves follows verdict =>
    exact .pausing s as a error serves follows verdict
  | ended as a ended result follows closes => exact .ended as a ended result follows closes

end Transit

namespace Engine

variable {σ τ : Type} {v : Service σ τ} {c : Config} {e : Engine σ τ}

theorem start_tracked (c : Config) (service : σ) :
    (start c service : Engine σ τ).transit.Tracked c := by
  have empty : (start c service : Engine σ τ).transit.log = [] := rfl
  refine ⟨nofun, fun h there => ?_, fun started n b there => ?_⟩
  · rw [empty] at there
    cases there
  · rw [empty] at there
    cases there

/-- On a virtual clock every batch stays on its track. -/
theorem PromptlyReachable.tracked (h : PromptlyReachable v c e) : e.transit.Tracked c := by
  refine h.carries (start_tracked c) Transit.Tracked.gather ?_ ?_
  · intro e s l reached tracked here turn
    exact tracked.forward here (reached.punctual s (List.mem_of_find?_eq_some here)) turn
  · intro e now reached tracked settled later _
    refine { tracked with tracks := fun started n b hd => ?_ }
    refine (tracked.tracks started n b hd).imp_right fun track => ?_
    refine track.pass (Nat.le_of_lt later) fun s here ready => ?_
    obtain ⟨wake, waits, -⟩ := reached.reachable.idle settled (.sending s.id) s
      (List.mem_of_find?_eq_some here) rfl
    rw [ready] at waits
    cases waits

end Engine
end TopicPublisher
