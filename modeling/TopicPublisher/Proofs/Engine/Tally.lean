import TopicPublisher.Proofs.Engine.Shutdown
import TopicPublisher.Proofs.Engine.Trail
import TopicPublisher.Proofs.Engine.Transit.Steps
import TopicPublisher.Proofs.Keyed

/-!
The tally of attempts. Every attempt is a call of the service; the first one of a batch comes with
its dispatch, and every other one with a retry. Main statement: the counters show these numbers,
and those of the batches that were published and that failed.
-/

namespace TopicPublisher

def SendPhase.isReady {τ : Type} : SendPhase τ → Bool
  | .ready => true
  | _ => false

theorem SendPhase.isReady_of_wake? {τ : Type} {phase : SendPhase τ} {wake : Nat}
    (waits : phase.wake? = some wake) : phase.isReady = false := by
  cases phase with
  | ready => cases waits
  | calling | pausing => rfl

namespace SendResult

def isPublished : SendResult → Bool
  | .published _ => true
  | _ => false

def isFailed : SendResult → Bool
  | .failed _ => true
  | _ => false

/-- The task that sent the batch was not killed. -/
def isDecided : SendResult → Bool
  | .crashed => false
  | _ => true

theorem countP_isDecided {α : Type} (results : List (α × SendResult)) :
    results.countP (·.2.isDecided) =
      results.countP (·.2.isPublished) + results.countP (·.2.isFailed) := by
  induction results with
  | nil => rfl
  | cons r rest ih =>
    obtain ⟨key, result⟩ := r
    simp only [List.countP_cons, ih]
    cases result <;> simp [isDecided, isPublished, isFailed] <;> omega

end SendResult

namespace Transit

variable {σ τ : Type} {v : Service σ τ} {c : Config} {k l : Transit σ τ} {s t : Sending τ}

def calls (k : Transit σ τ) : List (Nat × Nat × List Message) :=
  k.log.filterMap (·.2.called?)

def results (k : Transit σ τ) : List (Nat × SendResult) := k.log.filterMap (·.2.ended?)

/-- The batches whose next attempt is about to begin. -/
def starting (k : Transit σ τ) : Nat := k.sends.countP (·.phase.isReady)

@[simp] theorem calls_note (k : Transit σ τ) (hs : List Happening) :
    (k.note hs).calls = k.calls ++ hs.filterMap Happening.called? := by
  simp only [calls, note, List.filterMap_append, List.filterMap_map]
  rfl

@[simp] theorem results_note (k : Transit σ τ) (hs : List Happening) :
    (k.note hs).results = k.results ++ hs.filterMap Happening.ended? := by
  simp only [results, note, List.filterMap_append, List.filterMap_map]
  rfl

/-- Every batch is being sent or has its result. Apart from the attempts that are about to begin,
each dispatch and each retry has led to a call. -/
structure Tallied (v : Service σ τ) (k : Transit σ τ) : Prop where
  attempts : k.counters.sendAttempts = UInt64.ofNat k.calls.length
  retries : ∃ retried, k.counters.retries = UInt64.ofNat retried ∧
    k.calls.length + k.starting = retried + k.dispatched
  sent : k.counters.batchesSent = UInt64.ofNat (k.results.countP (·.2.isPublished))
  failed : k.counters.batchesFailed = UInt64.ofNat (k.results.countP (·.2.isFailed))
  numbers : (k.sends.map Sending.id ++ k.results.map Prod.fst).Perm (List.range k.dispatched)
  crashed : ∀ r ∈ k.results, r.2.isDecided = false → v.MayCrash

theorem Tallied.nodup (h : k.Tallied v) : (k.sends.map Sending.id).Nodup :=
  (List.nodup_append.mp (h.numbers.nodup_iff.mpr List.nodup_range)).1

theorem Tallied.note (h : k.Tallied v) {x : Happening} (called : x.called? = none)
    (ended : x.ended? = none) : (k.note [x]).Tallied v := by
  have calls : (k.note [x]).calls = k.calls := by
    rw [calls_note, List.filterMap_cons_none called, List.filterMap_nil, List.append_nil]
  have results : (k.note [x]).results = k.results := by
    rw [results_note, List.filterMap_cons_none ended, List.filterMap_nil, List.append_nil]
  refine ⟨?_, ?_, ?_, ?_, ?_, ?_⟩
  · rw [calls]
    exact h.attempts
  · rw [calls]
    exact h.retries
  all_goals rw [results]
  · exact h.sent
  · exact h.failed
  · exact h.numbers
  · exact h.crashed

/-! The tasks that send -/

theorem sends_perm (nodup : (k.sends.map Sending.id).Nodup) (hs : s ∈ k.sends) :
    k.sends.Perm (s :: k.sends.filter (·.id != s.id)) :=
  perm_cons_filter_key nodup hs

theorem set_perm (nodup : (k.sends.map Sending.id).Nodup) (hs : s ∈ k.sends)
    (hid : t.id = s.id) : (k.set t).sends.Perm (t :: k.sends.filter (·.id != s.id)) := by
  have turned := (sends_perm nodup hs).map fun u => if u.id == t.id then t else u
  have others : (k.sends.filter (·.id != s.id)).map (fun u => if u.id == t.id then t else u) =
      k.sends.filter (·.id != s.id) := by
    conv_rhs => rw [← List.map_id (k.sends.filter (·.id != s.id))]
    refine List.map_congr_left fun u hu => ?_
    have other : u.id ≠ s.id := by simpa using (List.mem_filter.mp hu).2
    simp [hid, other]
  rw [List.map_cons, others, if_pos (by simp [hid])] at turned
  exact turned

theorem ids_set (k : Transit σ τ) (t : Sending τ) :
    (k.set t).sends.map Sending.id = k.sends.map Sending.id := by
  rw [set, List.map_map]
  refine List.map_congr_left fun u _ => ?_
  by_cases same : u.id = t.id <;> simp [same]

theorem starting_set (nodup : (k.sends.map Sending.id).Nodup) (hs : s ∈ k.sends)
    (hid : t.id = s.id) : (k.set t).starting + (if s.phase.isReady then 1 else 0) =
      k.starting + (if t.phase.isReady then 1 else 0) := by
  rw [starting, starting, (set_perm nodup hs hid).countP_eq, (sends_perm nodup hs).countP_eq,
    List.countP_cons, List.countP_cons]
  exact Nat.add_right_comm _ _ _

theorem Tallied.set (h : k.Tallied v) (hs : s ∈ k.sends) (hid : t.id = s.id)
    (same : t.phase.isReady = s.phase.isReady) : (k.set t).Tallied v := by
  have starting := starting_set h.nodup hs hid
  rw [same, Nat.add_right_cancel_iff] at starting
  refine { h with retries := ?_, numbers := ?_ }
  · rw [starting]
    exact h.retries
  · rw [ids_set]
    exact h.numbers

/-- An attempt begins, and is no longer about to. -/
theorem Tallied.call (h : k.Tallied v) (hs : s ∈ k.sends) (ready : s.phase = .ready) (c : Config) :
    (k.call v c s).Tallied v := by
  obtain ⟨retried, retries, balance⟩ := h.retries
  unfold Transit.call
  extract_lets timeout started
  have calls (m : Transit σ τ) (t : Sending τ) :
      ((m.note [.called s.id (s.attempts + 1) s.batch.messages]).set t).calls.length =
        m.calls.length + 1 :=
    (congrArg List.length (calls_note m _)).trans List.length_append
  have results (m : Transit σ τ) (t : Sending τ) :
      ((m.note [.called s.id (s.attempts + 1) s.batch.messages]).set t).results = m.results :=
    (results_note m _).trans (List.append_nil _)
  have starting (phase : SendPhase τ) (waits : phase.isReady = false) :
      (k.set { s with attempts := s.attempts + 1, phase := phase }).starting + 1 =
        k.starting := by
    simpa [ready, waits, SendPhase.isReady.eq_def SendPhase.ready] using
      starting_set (t := { s with attempts := s.attempts + 1, phase := phase }) h.nodup hs rfl
  refine ⟨?_, ⟨retried, retries, ?_⟩, ?_, ?_, ?_, ?_⟩
  · rw [calls, UInt64.ofNat_add]
    exact congrArg (· + 1) h.attempts
  · rw [calls]
    refine Eq.trans ?_ balance
    rw [← starting (.calling timeout (Clock.wakeAfter k.now timeout)
      (started.1.map (k.now + ·)) started.2.1) rfl]
    exact Nat.add_right_comm _ _ _
  · rw [results]
    exact h.sent
  · rw [results]
    exact h.failed
  · rw [results, ids_set]
    exact h.numbers
  · rw [results]
    exact h.crashed

/-- A sending is over, and has its result. -/
theorem Tallied.finish (h : k.Tallied v) (hs : s ∈ k.sends) (busy : s.phase.isReady = false)
    {result : SendResult} (crash : result.isDecided = false → v.MayCrash) :
    (k.finish s result).Tallied v := by
  have results : (k.finish s result).results = k.results ++ [(s.id, result)] :=
    results_note _ _
  have calls : (k.finish s result).calls = k.calls := (calls_note _ _).trans (List.append_nil _)
  have starting : (k.finish s result).starting = k.starting := by
    have split := (sends_perm h.nodup hs).countP_eq fun u => u.phase.isReady
    rw [List.countP_cons, if_neg (Bool.eq_false_iff.mp busy)] at split
    exact split.symm
  have ids : (k.sends.map Sending.id).Perm
      (s.id :: (k.finish s result).sends.map Sending.id) :=
    (sends_perm h.nodup hs).map Sending.id
  refine ⟨?_, ?_, ?_, ?_, ?_, ?_⟩
  · rw [calls, ← h.attempts]
    cases result <;> rfl
  · rw [calls, starting]
    cases result <;> exact h.retries
  · rw [results, List.countP_append, UInt64.ofNat_add, ← h.sent]
    cases result with
    | published => rfl
    | failed | crashed => exact (UInt64.add_zero _).symm
  · rw [results, List.countP_append, UInt64.ofNat_add, ← h.failed]
    cases result with
    | failed => rfl
    | published | crashed => exact (UInt64.add_zero _).symm
  · rw [results, List.map_append]
    refine .trans ?_ h.numbers
    refine .trans ?_ (ids.symm.append_right _)
    rw [← List.append_assoc]
    exact List.perm_append_singleton ..
  · rw [results]
    refine List.forall_mem_append.mpr ⟨h.crashed, ?_⟩
    exact List.forall_mem_singleton.mpr crash

/-- A retry is counted before its attempt begins. -/
theorem Tallied.resume (h : k.Tallied v) (hs : s ∈ k.sends) (busy : s.phase.isReady = false) :
    ({ k with counters := k.counters.countRetry }.set { s with phase := .ready }).Tallied v := by
  obtain ⟨retried, retries, balance⟩ := h.retries
  have starting : (k.set { s with phase := .ready }).starting = k.starting + 1 := by
    simpa [busy, SendPhase.isReady.eq_def SendPhase.ready] using
      starting_set (t := { s with phase := .ready }) h.nodup hs rfl
  refine { h with retries := ⟨retried + 1, ?_, ?_⟩, numbers := ?_ }
  · rw [UInt64.ofNat_add, ← retries]
    rfl
  · have more : k.calls.length + (k.starting + 1) = retried + 1 + k.dispatched := by omega
    exact (congrArg (k.calls.length + ·) starting).trans more
  · rw [ids_set]
    exact h.numbers

theorem Tallied.forward (h : k.Tallied v) (hs : s ∈ k.sends) (turn : Forward v c k s l) :
    l.Tallied v := by
  cases turn with
  | call ready => exact h.call hs ready c
  | wait wake alarm waits early => exact h.set hs rfl rfl
  | settle timeout limit answerAt call reply service result phase ends verdict =>
    have answered : (k.answer s service reply).Tallied v :=
      Tallied.note (k := { k with service := service }) { h with } rfl rfl
    -- Only a call that may crash can leave a sending undecided.
    have undecided (none : result.isDecided = false) : v.MayCrash := by
      cases result with
      | published | failed => cases none
      | crashed => exact ends.mayCrash (Engine.verdict_crashed verdict)
    exact answered.finish hs (phase ▸ rfl) undecided
  | fail timeout limit answerAt call reply service error phase ends verdict =>
    have answered : (k.answer s service reply).Tallied v :=
      Tallied.note (k := { k with service := service }) { h with } rfl rfl
    exact answered.set hs rfl (phase ▸ rfl)
  | resume wake error phase past left => exact h.resume hs (phase ▸ rfl)
  | exhaust wake error phase past spent => exact h.finish hs (phase ▸ rfl) nofun

/-! Batches -/

theorem Tallied.dispatch (h : k.Tallied v) (b : Batch) : (k.dispatch b).Tallied v := by
  obtain ⟨retried, retries, balance⟩ := h.retries
  have starting : (k.dispatch b).starting = k.starting + 1 := List.countP_append
  have ids : (k.dispatch b).sends.map Sending.id = k.sends.map Sending.id ++ [k.dispatched] :=
    List.map_append
  refine Tallied.note ?_ rfl rfl
  refine { h with retries := ⟨retried, retries, ?_⟩, numbers := ?_ }
  · refine (congrArg (k.calls.length + ·) starting).trans ?_
    rw [← Nat.add_assoc, balance, Nat.add_assoc]
  · refine .trans (.of_eq (congrArg (· ++ k.results.map Prod.fst) ids)) ?_
    rw [List.range_succ, List.append_assoc]
    refine .trans (List.perm_append_comm.append_left _) ?_
    rw [← List.append_assoc]
    exact h.numbers.append_right _

theorem Tallied.dispatchAll (h : k.Tallied v) (bs : List Batch) : (k.dispatchAll bs).Tallied v :=
  dispatchAll_carries (motive := Tallied v) (fun b h => Tallied.dispatch h b) h bs

theorem Tallied.gather (h : k.Tallied v) (gather : Gather c k l) : l.Tallied v := by
  cases gather with
  | enqueue x _ => exact Tallied.note (k := { k with queue := k.queue ++ [x] }) { h with } rfl rfl
  | add x rest closed batcher _ _ _ =>
    exact Tallied.dispatchAll (k := { k with queue := rest, batcher := batcher }) { h with } closed
  | close _ _ => exact Tallied.dispatch (k := { k with batcher := {} }) { h with } _
  | retire _ _ _ => exact { h with }
  | kill _ _ => exact { h with }

end Transit

namespace Engine

variable {σ τ : Type} {v : Service σ τ} {c : Config} {e : Engine σ τ}

theorem start_tallied (v : Service σ τ) (c : Config) (service : σ) :
    (start c service : Engine σ τ).transit.Tallied v :=
  ⟨rfl, ⟨0, rfl, rfl⟩, rfl, rfl, .nil, nofun⟩

theorem Reachable.tallied (h : Reachable v c e) : e.transit.Tallied v :=
  h.carries (start_tallied v c) Transit.Tallied.gather
    (fun _ tallied here turn => tallied.forward (List.mem_of_find?_eq_some here) turn)
    fun tallied => { tallied with }

/-- What is picked from the log of the transit is what is picked from the history. -/
theorem transit_picks {α : Type} {f : Happening → Option α}
    (seen : ∀ h, h.inTransit = false → f h = none) (e : Engine σ τ) :
    e.transit.log.filterMap (f ·.2) = e.events.filterMap f := by
  rw [events, ← List.map_reverse, List.filterMap_map]
  simp only [transit, List.filterMap_filter]
  refine List.filterMap_congr fun h _ => ?_
  cases inside : h.2.inTransit with
  | true => rfl
  | false => exact (seen h.2 inside).symm

theorem transit_calls (e : Engine σ τ) : e.transit.calls = e.calls :=
  transit_picks (fun h _ => by cases h <;> simp_all [Happening.inTransit, Happening.called?]) e

theorem transit_results (e : Engine σ τ) : e.transit.results = e.results :=
  transit_picks (fun h _ => by cases h <;> simp_all [Happening.inTransit, Happening.ended?]) e

/-- The number of dispatched batches whose sending has ended with such a result. -/
def endedWith (e : Engine σ τ) (p : SendResult → Bool) : Nat :=
  e.dispatches.countP fun d => (e.resultsOf d.1).any p

theorem endedWith_eq (h : Reachable v c e) (p : SendResult → Bool) :
    e.endedWith p = e.results.countP (p ·.2) := by
  have numbers := h.tallied.numbers
  rw [transit_results] at numbers
  obtain ⟨-, once, apart⟩ := List.nodup_append.mp (numbers.nodup_iff.mpr List.nodup_range)
  have unsent : (e.sends.map Sending.id).countP (fun n => (e.resultsOf n).any p) = 0 := by
    refine List.countP_eq_zero.mpr fun n hn => ?_
    have none : e.results.filter (·.1 == n) = [] := by
      refine List.filter_eq_nil_iff.mpr fun r hr same => ?_
      obtain rfl : r.1 = n := by simpa using same
      exact apart r.1 hn r.1 (List.mem_map_of_mem hr) rfl
    simp [resultsOf, none]
  have one : ∀ r ∈ e.results, e.resultsOf r.1 = [r.2] := by
    intro r hr
    rw [resultsOf, filter_key once hr, List.map_singleton]
  calc e.endedWith p
      = (e.dispatches.map Prod.fst).countP fun n => (e.resultsOf n).any p := by
        rw [List.countP_map]
        rfl
    _ = (e.sends.map Sending.id ++ e.results.map Prod.fst).countP
          fun n => (e.resultsOf n).any p := by
        rw [h.numbered]
        exact (numbers.countP_eq _).symm
    _ = (e.results.map Prod.fst).countP fun n => (e.resultsOf n).any p := by
        rw [List.countP_append, unsent, Nat.zero_add]
    _ = e.results.countP (p ·.2) := by
        rw [List.countP_map]
        refine List.countP_congr fun r hr => ?_
        rw [Function.comp_apply, one r hr, List.any_cons, List.any_nil, Bool.or_false]

/-- No attempt is about to begin when nothing can go on. -/
theorem Reachable.starting_eq_zero (h : Reachable v c e) (settled : e.isSettled = true) :
    e.transit.starting = 0 := by
  refine List.countP_eq_zero.mpr fun s hs => ?_
  obtain ⟨wake, waits, -⟩ := h.idle settled (.sending s.id) s hs rfl
  rw [SendPhase.isReady_of_wake? waits]
  nofun

/-- Without crashes every result is decided. -/
theorem Reachable.decided (h : Reachable v c e) (calm : ¬ v.MayCrash) :
    ∀ r ∈ e.results, r.2.isDecided = true := by
  intro r hr
  by_contra undecided
  exact calm (h.tallied.crashed r (transit_results e ▸ hr) (Bool.eq_false_iff.mpr undecided))

theorem Reachable.endedWith_any (h : Reachable v c e) (calm : ¬ v.MayCrash) :
    e.endedWith (fun _ => true) = e.endedWith SendResult.isDecided := by
  rw [endedWith_eq h, endedWith_eq h]
  exact List.countP_congr fun r hr => ⟨fun _ => h.decided calm r hr, fun _ => rfl⟩

/-- Whatever the service does, in every engine in which nothing can go on: each attempt was a call
of the service, and each of these was the first one for a dispatched batch or a retry. The batches
counted as sent are those that were published, and with those counted as failed they are all whose
sending came to a result. A sending without one is a task that a call brought down; if every call
answers with identifiers or a failure, or never, there is none. Then all whose sending has ended are
counted, and once a shutdown call has returned there were as many attempts as retries and batches
counted. -/
theorem attempts_accounted (h : Reachable v c e) (settled : e.isSettled = true) :
    e.counters.sendAttempts = UInt64.ofNat e.calls.length ∧
      e.counters.sendAttempts = e.counters.retries + UInt64.ofNat e.dispatches.length ∧
      e.counters.batchesSent = UInt64.ofNat (e.endedWith SendResult.isPublished) ∧
      e.counters.batchesSent + e.counters.batchesFailed =
        UInt64.ofNat (e.endedWith SendResult.isDecided) ∧
      (¬ v.MayCrash →
        e.counters.batchesSent + e.counters.batchesFailed =
            UInt64.ofNat (e.endedWith fun _ => true) ∧
          ∀ call, .shutdownReturned call ∈ e.events →
            e.counters.sendAttempts =
              e.counters.retries + e.counters.batchesSent + e.counters.batchesFailed) := by
  have tallied := h.tallied
  have results := transit_results e
  have length : e.dispatches.length = e.dispatched := by
    simpa using congrArg List.length h.numbered
  have attempts : e.counters.sendAttempts = UInt64.ofNat e.calls.length :=
    transit_calls e ▸ tallied.attempts
  have balance : e.counters.sendAttempts =
      e.counters.retries + UInt64.ofNat e.dispatches.length := by
    obtain ⟨retried, retries, balance⟩ := tallied.retries
    rw [h.starting_eq_zero settled, Nat.add_zero, transit_calls] at balance
    rw [attempts, balance, UInt64.ofNat_add, length]
    exact congrArg (· + UInt64.ofNat e.dispatched) retries.symm
  have sent : e.counters.batchesSent = UInt64.ofNat (e.endedWith SendResult.isPublished) := by
    rw [endedWith_eq h, ← results]
    exact tallied.sent
  have ended : e.counters.batchesSent + e.counters.batchesFailed =
      UInt64.ofNat (e.endedWith SendResult.isDecided) := by
    rw [endedWith_eq h, SendResult.countP_isDecided, UInt64.ofNat_add, ← results]
    exact congrArg₂ (· + ·) tallied.sent tallied.failed
  refine ⟨attempts, balance, sent, ended, fun calm => ?_⟩
  have all := h.endedWith_any calm
  refine ⟨all ▸ ended, fun call returned => ?_⟩
  have quiet := h.quiet (List.ne_nil_of_mem (mem_finished.mpr returned))
  have done : e.endedWith (fun _ => true) = e.dispatches.length := by
    have numbers := tallied.numbers.length_eq
    rw [results, show e.transit.sends = [] from quiet.sends] at numbers
    rw [endedWith_eq h, length, List.countP_true]
    exact (by simpa using numbers : e.results.length = e.transit.dispatched)
  rw [UInt64.add_assoc, ended, ← all, done]
  exact balance

/-- The first call of a batch fails, the second one publishes it, and shutdown follows. -/
theorem attempts_accounted_one_retry :
    ∃ (v : Service Nat Nat) (c : Config) (e : Engine Nat Nat), ¬ v.MayCrash ∧ Reachable v c e ∧
      e.isSettled = true ∧ .shutdownReturned 9 ∈ e.events ∧ e.calls.length = 2 ∧
      e.counters.retries = 1 ∧ e.endedWith SendResult.isPublished = 1 ∧
      e.counters.sendAttempts = UInt64.ofNat e.calls.length ∧
      e.counters.sendAttempts =
        e.counters.retries + e.counters.batchesSent + e.counters.batchesFailed := by
  have started : Reachable
      (⟨fun n _ => (some 0, n, n + 1), fun n call =>
        (if call = 0 then .failure ⟨.unavailable, ""⟩ else .ids ["7"], n)⟩ : Service Nat Nat)
      { topic := ⟨"project", "topic"⟩, thresholds := ⟨1, 10, ⟨1⟩⟩ } _ := .init 0
  have calm : ¬ Service.MayCrash (⟨fun n _ => (some 0, n, n + 1), fun n call =>
      (if call = 0 then .failure ⟨.unavailable, ""⟩ else .ids ["7"], n)⟩ : Service Nat Nat) := by
    rintro ⟨_, call, crash⟩
    by_cases first : call = 0 <;> simp [first] at crash
  have published := started.step
    (.publish ⟨0, ⟨⟨#[1, 2]⟩, []⟩⟩ (by decide) (by decide) (by decide))
  have dispatched := published.step (.run .batching (by decide))
  have waits := dispatched.step (.run .batching (by decide))
  have called := waits.step (.run (.sending 0) (by decide))
  have failed := called.step (.run (.sending 0) (by decide))
  have pauses := failed.step (.run (.sending 0) (by decide))
  have later := pauses.step (.pass 1000 (by decide))
  have resumed := later.step (.run (.sending 0) (by decide +kernel))
  have again := resumed.step (.run (.sending 0) (by decide +kernel))
  have answered := again.step (.run (.sending 0) (by decide +kernel))
  have asked := answered.step
    (.shutdown 9 (by decide +kernel) (by decide +kernel) (mem_finished.not.mp (by decide +kernel)))
  have ended := asked.step (.run .batching (by decide +kernel))
  have finished := ended.step (.run (.shutdown 9) (by decide +kernel))
  obtain ⟨calls, -, -, -, settled⟩ := attempts_accounted finished (by decide +kernel)
  exact ⟨_, _, _, calm, finished, by decide +kernel, mem_finished.mp (by decide +kernel),
    by decide +kernel, by decide +kernel, by decide +kernel, calls,
    (settled calm).2 9 (mem_finished.mp (by decide +kernel))⟩

end Engine
end TopicPublisher
