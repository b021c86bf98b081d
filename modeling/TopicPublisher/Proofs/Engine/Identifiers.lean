import Mathlib.Algebra.Ring.Nat
import TopicPublisher.Proofs.Engine.Success
import TopicPublisher.Service.Simulated

/-!
The identifiers of the simulated service. A call claims its identifiers when it is answered, and an
answer is never thrown away: a call that was cut off has claimed nothing. Main statement: without
outages the handles are given the numbers from zero on, without gaps and each of them once.
-/

namespace TopicPublisher

namespace OutageRate

/-- A number that is brought to zero: zero, a number below it, or no number at all. -/
def clampsToZero (x : Binary64) : Bool :=
  match x.value with
  | .nan => true
  | .infinite negative => negative
  | .finite negative mantissa _ => negative || mantissa == 0

theorem ofNumber_of_clampsToZero {x : Binary64} (clamps : clampsToZero x = true) :
    ofNumber x = ⟨0⟩ := by
  unfold clampsToZero at clamps
  unfold ofNumber
  cases value : x.value with
  | nan => rfl
  | infinite negative =>
    rw [value] at clamps
    exact if_pos clamps
  | finite negative mantissa exponent =>
    rw [value] at clamps
    cases negative with
    | true => rfl
    | false =>
      obtain rfl : mantissa = 0 := by simpa using clamps
      simp [scaled, roundDiv]

end OutageRate

namespace Simulated

/-- A service that is the simulation, but for the time that its calls take. -/
structure Simulates (v : Service Simulated Nat) : Prop where
  start : ∀ s messages, (v.start s messages).2 = (messages.length, s)
  answer : v.answer = answer

theorem service_simulates : Simulates service := ⟨fun _ _ => rfl, rfl⟩

variable {s : Simulated}

/-- Without outages every call is answered with the next identifiers. -/
theorem answer_calm (calm : s.outages = ⟨0⟩) (count : Nat) :
    ∃ source, s.answer count = (.ids (idsFrom s.nextId count),
      { s with nextId := s.nextId + UInt64.ofNat count, source := source }) := by
  unfold answer
  dsimp only
  rw [calm, OutageRate.hits_zero]
  exact ⟨_, rfl⟩

theorem length_idsFrom (first : UInt64) (count : Nat) : (idsFrom first count).length = count := by
  rw [idsFrom, List.length_map, List.length_range]

/-- The numbers so far and the next ones are the numbers from zero on. -/
theorem range_append_idsFrom {given : Nat} (few : given < 2 ^ 64) (count : Nat) :
    (List.range given).map toString ++ idsFrom (UInt64.ofNat given) count =
      (List.range (given + count)).map toString := by
  rw [List.range_add, List.map_append, idsFrom, UInt64.toNat_ofNat_of_lt' few, List.map_map]
  rfl

end Simulated

namespace Transit

variable {k l : Transit Simulated Nat} {v : Service Simulated Nat} {c : Config}
  {s t : Sending Nat}

/-- The identifiers of the batches that were published. -/
def issued {σ τ : Type} (k : Transit σ τ) : List MessageId :=
  k.results.flatMap fun r => r.2.identifiers

/-- How a sending ends without outages: published under numbers that follow each other, or given
up after timeouts. -/
def Simple : SendResult → Prop
  | .published ids => ∃ first, ids = Simulated.idsFrom first ids.length
  | .failed (.retryBudgetExhausted ..) => True
  | _ => False

/-- The next identifier of the service is the number of those that it has issued, which are all
numbers below that, and a call in flight will claim one for each message of its batch. -/
structure Serves (k : Transit Simulated Nat) : Prop where
  calm : k.service.outages = ⟨0⟩
  next : k.service.nextId = UInt64.ofNat k.issued.length
  dense : k.issued.length < 2 ^ 64 → k.issued = (List.range k.issued.length).map toString
  counted : k.counters.messagesPublished = UInt64.ofNat k.issued.length
  calls : ∀ s ∈ k.sends, ∀ timeout limit answerAt call,
    s.phase = .calling timeout limit answerAt call → call = s.batch.size
  simple : ∀ r ∈ k.results, Simple r.2

theorem Serves.of_same (h : k.Serves) (service : l.service = k.service)
    (results : l.results = k.results)
    (counted : l.counters.messagesPublished = k.counters.messagesPublished)
    (calls : ∀ s ∈ l.sends, ∀ timeout limit answerAt call,
      s.phase = .calling timeout limit answerAt call → call = s.batch.size) : l.Serves := by
  have issued : l.issued = k.issued := by rw [Transit.issued, results, Transit.issued]
  refine ⟨service ▸ h.calm, ?_, issued ▸ h.dense, ?_, calls, results ▸ h.simple⟩
  · rw [service, issued]
    exact h.next
  · rw [counted, issued]
    exact h.counted

theorem Serves.note (h : k.Serves) {x : Happening} (ended : x.ended? = none) :
    (k.note [x]).Serves := by
  refine h.of_same rfl ?_ rfl h.calls
  rw [results_note, List.filterMap_cons_none ended, List.filterMap_nil, List.append_nil]

theorem mem_set (ht : t ∈ (k.set s).sends) : t = s ∨ t ∈ k.sends := by
  obtain ⟨u, hu, rfl⟩ := List.mem_map.mp ht
  by_cases same : u.id == s.id
  · exact .inl (if_pos same)
  · exact .inr (if_neg same ▸ hu)

theorem Serves.set (h : k.Serves) (calls : ∀ timeout limit answerAt call,
    s.phase = .calling timeout limit answerAt call → call = s.batch.size) : (k.set s).Serves := by
  refine h.of_same rfl rfl rfl fun t ht => ?_
  rcases mem_set ht with rfl | old
  · exact calls
  · exact h.calls t old

/-- A sending ends, and what it was given are the next numbers. -/
theorem Serves.finish (h : k.Serves) (n : Nat) (result : SendResult) (simple : Simple result)
    (numbers : result.identifiers =
      Simulated.idsFrom k.service.nextId result.identifiers.length)
    (calm : l.service.outages = ⟨0⟩)
    (next : l.service.nextId = k.service.nextId + UInt64.ofNat result.identifiers.length)
    (results : l.results = k.results ++ [(n, result)])
    (counted : l.counters.messagesPublished =
      k.counters.messagesPublished + UInt64.ofNat result.identifiers.length)
    (sends : l.sends ⊆ k.sends) : l.Serves := by
  have issued : l.issued = k.issued ++ result.identifiers := by
    rw [Transit.issued, results, List.flatMap_append, List.flatMap_singleton, Transit.issued]
  have length := congrArg List.length issued
  rw [List.length_append] at length
  refine ⟨calm, ?_, fun few => ?_, ?_, fun t ht => h.calls t (sends ht), ?_⟩
  · rw [length, UInt64.ofNat_add, ← h.next]
    exact next
  · rw [length] at few ⊢
    have fewer : k.issued.length < 2 ^ 64 := Nat.lt_of_le_of_lt (Nat.le_add_right ..) few
    rw [issued, ← Simulated.range_append_idsFrom fewer, ← h.dense fewer, ← h.next, ← numbers]
  · rw [length, UInt64.ofNat_add, ← h.counted]
    exact counted
  · rw [results]
    exact List.forall_mem_append.mpr ⟨h.simple, List.forall_mem_singleton.mpr simple⟩

/-! Gathering and forwarding -/

theorem Serves.dispatch (h : k.Serves) (b : Batch) : (k.dispatch b).Serves := by
  have added : Serves { k with
      dispatched := k.dispatched + 1
      sends := k.sends ++ [{ id := k.dispatched, batch := b, started := k.now }] } := by
    refine h.of_same rfl rfl rfl fun s hs => ?_
    rcases List.mem_append.mp hs with old | new
    · exact h.calls s old
    · rw [List.mem_singleton.mp new]
      nofun
  exact added.note rfl

theorem Serves.gather (h : k.Serves) (gather : Gather c k l) : l.Serves := by
  cases gather with
  | enqueue x _ =>
    have queued : Serves { k with queue := k.queue ++ [x] } := h.of_same rfl rfl rfl h.calls
    exact queued.note rfl
  | add x rest closed batcher _ _ _ =>
    have taken : Serves { k with queue := rest, batcher := batcher } :=
      h.of_same rfl rfl rfl h.calls
    exact dispatchAll_carries (motive := Serves) (fun b h => Serves.dispatch h b) taken closed
  | close _ _ =>
    have emptied : Serves { k with batcher := {} } := h.of_same rfl rfl rfl h.calls
    exact emptied.dispatch _
  | retire _ _ _ | kill _ _ => exact h.of_same rfl rfl rfl h.calls

/-- What a call that is answered claims and brings: one number for each message of its batch. -/
theorem Serves.answered (h : k.Serves) (simulates : Simulated.Simulates v) (timeout : Duration)
    (messages : Nat) :
    (replyOr timeout (some (v.answer k.service messages).1)).verdict messages =
        .final (.published (Simulated.idsFrom k.service.nextId messages)) ∧
      (v.answer k.service messages).2.outages = ⟨0⟩ ∧
      (v.answer k.service messages).2.nextId = k.service.nextId + UInt64.ofNat messages := by
  obtain ⟨source, answered⟩ := Simulated.answer_calm h.calm messages
  rw [simulates.answer, answered]
  exact ⟨if_pos (Simulated.length_idsFrom ..), h.calm, rfl⟩

theorem Serves.forward (h : k.Serves) (simulates : Simulated.Simulates v) (hs : s ∈ k.sends)
    (turn : Forward v c k s l) : l.Serves := by
  cases turn with
  | call ready =>
    obtain ⟨call, same⟩ := Prod.mk.inj (simulates.start k.service s.batch.messages)
    unfold Transit.call
    extract_lets timeout started
    have begun : Serves { k with
        service := started.2.2, counters := k.counters.countAttempt } :=
      h.of_same same rfl rfl h.calls
    refine (begun.note rfl).set ?_
    rintro _ _ _ _ ⟨⟩
    exact call.trans (List.length_map _)
  | wait wake alarm waits early => exact h.set fun _ _ _ _ => h.calls s hs _ _ _ _
  | settle timeout limit answerAt call reply service result phase ends verdict =>
    obtain rfl := h.calls s hs _ _ _ _ phase
    cases ends with
    | answered _ =>
      obtain ⟨publishes, calm, next⟩ := h.answered simulates timeout s.batch.size
      cases publishes.symm.trans verdict
      have length := Simulated.length_idsFrom k.service.nextId s.batch.size
      have numbers : Simulated.idsFrom k.service.nextId s.batch.size =
          Simulated.idsFrom k.service.nextId
            (Simulated.idsFrom k.service.nextId s.batch.size).length := by rw [length]
      refine h.finish s.id (.published (Simulated.idsFrom k.service.nextId s.batch.size))
        ⟨_, numbers⟩ numbers calm ?_ ?_ ?_ List.filter_sublist.subset
      · rw [SendResult.identifiers, length]
        exact next
      · refine (results_note _ _).trans (congrArg (· ++ [_]) ?_)
        exact (results_note _ _).trans (List.append_nil _)
      · rw [SendResult.identifiers, length]
        rfl
    | timedOut _ _ => cases verdict
  | fail timeout limit answerAt call reply service error phase ends verdict =>
    obtain rfl := h.calls s hs _ _ _ _ phase
    cases ends with
    | answered _ =>
      obtain ⟨publishes, -⟩ := h.answered simulates timeout s.batch.size
      cases publishes.symm.trans verdict
    | timedOut _ _ => exact (Serves.note (h.of_same rfl rfl rfl h.calls) rfl).set nofun
  | resume wake error phase past left =>
    have counted : Serves { k with counters := k.counters.countRetry } :=
      h.of_same rfl rfl rfl h.calls
    exact counted.set nofun
  | exhaust wake error phase past spent =>
    exact h.finish s.id (.failed (c.retries.exhausted s.attempts error)) trivial
      rfl h.calm (UInt64.add_zero _).symm (results_note _ _) (UInt64.add_zero _).symm
      List.filter_sublist.subset

end Transit

namespace Engine

variable {v : Service Simulated Nat} {c : Config} {e : Engine Simulated Nat}

theorem transit_issued {σ τ : Type} (e : Engine σ τ) : e.transit.issued = e.issued := by
  rw [Transit.issued, transit_results, issued]

theorem Run.serves (simulates : Simulated.Simulates v) {service : Simulated}
    (calm : service.outages = ⟨0⟩) (first : service.nextId = 0)
    (run : Run v c (start c service) e) : e.transit.Serves :=
  Run.carries (motive := Transit.Serves)
    ⟨calm, first, fun _ => rfl, rfl, nofun, nofun⟩ Transit.Serves.gather
    (fun _ h here turn => h.forward simulates (List.mem_of_find?_eq_some here) turn)
    (fun h => h.of_same rfl rfl rfl h.calls) run

/-- Without outages, whatever the latency of each call and whatever is cut off and tried again: as
long as fewer than `2 ^ 64` messages were admitted, the identifiers that handles were given are the
decimal numbers below the number of published messages, in the order in which they were given. Each
of these is the outcome of one publish call, and of no other. The handles of a batch that was
published have numbers that follow each other, in the order of its messages. No sending ends with
a wrong number of identifiers, or with a failure that cannot pass. -/
theorem identifiers_dense (simulates : Simulated.Simulates v) {rate : Binary64}
    (clamps : OutageRate.clampsToZero rate = true) {latency : Nat} {source : StdGen}
    (run : Run v c
      (start c { latency := latency, outages := .ofNumber rate, source := source }) e)
    (few : e.admitted.length < 2 ^ 64) :
    e.identified.map Prod.snd =
        (List.range e.counters.messagesPublished.toNat).map toString ∧
      (∀ i < e.counters.messagesPublished.toNat,
        ∃! call, e.outcomeOf call = some (.ok (toString i))) ∧
      (∀ call id, e.outcomeOf call = some (.ok id) →
        ∃ i < e.counters.messagesPublished.toNat, id = toString i) ∧
      (∀ n b ids, (n, b) ∈ e.dispatches → (n, .published ids) ∈ e.results →
        ∃ first, b.ids.map e.outcomeOf =
          (List.range b.size).map fun i => some (.ok (toString (first + i)))) ∧
      ∀ r ∈ e.results,
        (∀ expected received, r.2 ≠ .failed (.idCountMismatch expected received)) ∧
          ∀ error, r.2 ≠ .failed (.terminalSendFailure error) := by
  have reached : Reachable v c e := ⟨_, run⟩
  have serves := run.serves simulates (OutageRate.ofNumber_of_clampsToZero clamps) rfl
  have given := reached.identified_eq
  obtain ⟨calls, bound⟩ := reached.length_identified
  have length : e.identified.length = e.issued.length := by
    rw [← given, List.length_map]
  have fewer : e.issued.length < 2 ^ 64 := Nat.lt_of_le_of_lt (length ▸ bound) few
  have counted : e.counters.messagesPublished.toNat = e.issued.length := by
    have counted : e.counters.messagesPublished = _ := serves.counted
    rw [counted, transit_issued]
    exact UInt64.toNat_ofNat_of_lt' fewer
  have dense := serves.dense
  rw [transit_issued] at dense
  have numbers : e.identified.map Prod.snd =
      (List.range e.counters.messagesPublished.toNat).map toString := by
    rw [counted, given]
    exact dense fewer
  have distinct : (e.identified.map Prod.snd).Nodup := by
    rw [numbers]
    refine List.nodup_range.map fun i j same => ?_
    have digits := congrArg (fun text => Nat.ofDigitChars 10 text.toList 0) same
    simpa [Nat.toString_eq_ofList_toDigits] using digits
  have known {call : Nat} {id : MessageId} (outcome : e.outcomeOf call = some (.ok id)) :
      (call, id) ∈ e.identified := mem_identified.mpr (mem_resolved outcome)
  refine ⟨numbers, fun i hi => ?_, fun call id outcome => ?_,
    fun n b ids dispatched published => ?_, fun r hr => ?_⟩
  · have there : toString i ∈ e.identified.map Prod.snd := by
      rw [numbers]
      exact List.mem_map_of_mem (List.mem_range.mpr hi)
    obtain ⟨⟨call, id⟩, member, same⟩ := List.mem_map.mp there
    cases same
    refine ⟨call, outcomeOf_eq_some reached.sound.kept (mem_identified.mp member), ?_⟩
    intro other outcome
    exact congrArg Prod.fst (List.inj_on_of_nodup_map distinct (known outcome) member rfl)
  · have there : id ∈ e.identified.map Prod.snd := List.mem_map_of_mem (known outcome)
    rw [numbers] at there
    obtain ⟨i, hi, rfl⟩ := List.mem_map.mp there
    exact ⟨i, List.mem_range.mp hi, rfl⟩
  · have outcomes := reached.outcomes_of_ended dispatched published
    have parallel : ids.length = b.size :=
      (List.length_map _).symm.trans (reached.parallel dispatched published)
    have simple : Transit.Simple (.published ids) :=
      serves.simple (n, .published ids) (transit_results e ▸ published)
    obtain ⟨first, consecutive⟩ := simple
    refine ⟨first.toNat, outcomes.trans ?_⟩
    rw [SendResult.outcomes, consecutive, parallel, Simulated.idsFrom, List.map_map, List.map_map]
    rfl
  · have simple : Transit.Simple r.2 := serves.simple r (transit_results e ▸ hr)
    refine ⟨fun expected received mismatch => ?_, fun error failure => ?_⟩
    · rw [mismatch] at simple
      exact simple
    · rw [failure] at simple
      exact simple

/-- A batch of two messages takes longer than one that was sent after it, so the message of the
latter is the first to be given a number. -/
theorem identifiers_dense_two_batches :
    ∃ (v : Service Simulated Nat) (c : Config) (e : Engine Simulated Nat),
      Simulated.Simulates v ∧
      Run v c (start c { latency := 5, outages := .ofNumber (.ofFloat 0.0) }) e ∧
      e.dispatches.map (·.2.ids) = [[0, 1], [2]] ∧
      e.identified.map Prod.snd = ["0", "1", "2"] ∧ e.outcomeOf 2 = some (.ok "0") := by
  have simulates : Simulated.Simulates
      ⟨fun s messages => (some (s.latency * messages.length), messages.length, s),
        Simulated.answer⟩ := ⟨fun _ _ => rfl, rfl⟩
  have started (v : Service Simulated Nat) (c : Config) : Run v c
      (start c { latency := 5, outages := .ofNumber (.ofFloat 0.0) }) _ := .refl
  have first := (started ⟨fun s messages =>
      (some (s.latency * messages.length), messages.length, s), Simulated.answer⟩
    { topic := ⟨"project", "topic"⟩, thresholds := ⟨2, 3, ⟨1⟩⟩ }).tail
      (.publish ⟨0, ⟨⟨#[1]⟩, []⟩⟩ (by decide) (by decide) (by decide))
  have second := first.tail
    (.publish ⟨1, ⟨⟨#[2]⟩, []⟩⟩ (by decide) (by decide) (by decide))
  have third := second.tail
    (.publish ⟨2, ⟨⟨#[3, 4, 5]⟩, []⟩⟩ (by decide) (by decide) (by decide))
  have opened := third.tail (.run .batching (by decide))
  have filled := opened.tail (.run .batching (by decide))
  have both := filled.tail (.run .batching (by decide))
  have called := both.tail (.run (.sending 0) (by decide))
  have waits := called.tail (.run (.sending 0) (by decide))
  have calling := waits.tail (.run (.sending 1) (by decide))
  have waiting := calling.tail (.run (.sending 1) (by decide))
  have later := waiting.tail (.pass 5 (by decide))
  have short := later.tail (.run (.sending 1) (by decide +kernel))
  have last := short.tail (.pass 10 (by decide +kernel))
  have long := last.tail (.run (.sending 0) (by decide +kernel))
  have never : OutageRate.clampsToZero (.ofFloat 0.0) = true := by decide +kernel
  obtain ⟨numbers, -⟩ := identifiers_dense simulates never long (by decide +kernel)
  exact ⟨_, _, _, simulates, long, by decide +kernel, numbers.trans (by decide +kernel),
    by decide +kernel⟩

end Engine
end TopicPublisher
