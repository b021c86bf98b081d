import TopicPublisher.Proofs.Engine.Diary
import TopicPublisher.Proofs.Engine.Trail
import TopicPublisher.Proofs.Retry.Budget

/-!
The pages of the diary: what is written of one batch, from the line that it was closed to the one
that its sending has ended. Main statement: in which order the lines of a batch can stand, and how
they go with the calls that were made for it and with its result.
-/

namespace TopicPublisher

/-- Attempts that failed, numbered from one in 32 bits, each with the warning that another one
follows. -/
inductive Retried (messages : Nat) : Nat → List LogEvent → Prop where
  | none : Retried messages 0 []
  | again {k : Nat} {lines : List LogEvent} (delay : Duration) (error : TransportError) :
      Retried messages k lines →
      Retried messages (k + 1)
        (lines ++
          [.sendAttempt (.ofNat (k + 1)) messages, .retryScheduled (.ofNat (k + 1)) delay error])

/-- What is logged of a send, by the number of its attempts and its result if it has ended. Only
the task that was killed in a call ends without a line of its own, and only want of budget can
follow a warning. -/
inductive SendLog (messages : Nat) : Nat → Option SendResult → List LogEvent → Prop where
  | retried {k : Nat} {lines : List LogEvent} : Retried messages k lines →
      SendLog messages k none lines
  | attempted {k : Nat} {lines : List LogEvent} : Retried messages k lines →
      SendLog messages (k + 1) none (lines ++ [.sendAttempt (.ofNat (k + 1)) messages])
  | acknowledged {k : Nat} {lines : List LogEvent} (ids : List MessageId) :
      Retried messages k lines →
      SendLog messages (k + 1) (some (.published ids))
        (lines ++
          [.sendAttempt (.ofNat (k + 1)) messages, .batchAcknowledged (.ofNat (k + 1)) messages])
  | failed {k : Nat} {lines : List LogEvent} (error : PublishError) : Retried messages k lines →
      SendLog messages (k + 1) (some (.failed error))
        (lines ++ [.sendAttempt (.ofNat (k + 1)) messages, .batchFailed messages error])
  | exhausted {k : Nat} {lines : List LogEvent} (budget : Duration) (last : TransportError) :
      Retried messages (k + 1) lines →
      SendLog messages (k + 1)
        (some (.failed (.retryBudgetExhausted (UInt32.ofNat (k + 1)).toNat budget last)))
        (lines ++
          [.batchFailed messages (.retryBudgetExhausted (UInt32.ofNat (k + 1)).toNat budget last)])
  | crashed {k : Nat} {lines : List LogEvent} : Retried messages k lines →
      SendLog messages (k + 1) (some .crashed) (lines ++ [.sendAttempt (.ofNat (k + 1)) messages])

/-- The number in the line of an attempt. -/
def LogEvent.attempt? : LogEvent → Option UInt32
  | .sendAttempt number _ => some number
  | _ => none

theorem numbers_concat {k : Nat} {numbers : List UInt32}
    (h : numbers = (List.range' 1 k).map .ofNat) :
    numbers ++ [.ofNat (k + 1)] = (List.range' 1 (k + 1)).map .ofNat := by
  rw [h, List.range'_concat, List.map_append, List.map_singleton, Nat.one_mul, Nat.add_comm 1]

theorem Retried.numbers {messages k : Nat} {lines : List LogEvent} (h : Retried messages k lines) :
    lines.filterMap LogEvent.attempt? = (List.range' 1 k).map .ofNat := by
  induction h with
  | none => rfl
  | again delay error before ih =>
    rw [List.filterMap_append]
    exact numbers_concat ih

theorem SendLog.numbers {messages k : Nat} {result : Option SendResult} {lines : List LogEvent}
    (h : SendLog messages k result lines) :
    lines.filterMap LogEvent.attempt? = (List.range' 1 k).map .ofNat := by
  cases h with
  | retried retried => exact retried.numbers
  | exhausted budget last retried =>
    rw [List.filterMap_append]
    exact (List.append_nil _).trans retried.numbers
  | attempted retried | acknowledged _ retried | failed _ retried | crashed retried =>
    rw [List.filterMap_append]
    exact numbers_concat retried.numbers

/-- Fewer than `2 ^ 32` attempts have the numbers from one on, all of them different. -/
theorem SendLog.numbered {messages k : Nat} {result : Option SendResult} {lines : List LogEvent}
    (h : SendLog messages k result lines) (fits : k < Nat.pow 2 32) :
    (lines.filterMap LogEvent.attempt?).map UInt32.toNat = List.range' 1 k := by
  rw [h.numbers, List.map_map]
  refine (List.map_congr_left fun number there => ?_).trans (List.map_id _)
  have below : number < Nat.pow 2 32 := by
    have last := (List.mem_range'_1.mp there).2
    omega
  exact UInt32.toNat_ofNat_of_lt' below

/-! Lines of a batch that is being sent -/

namespace Sending

variable {τ : Type} {p : RetryPolicy} {now : Nat} {s : Sending τ} {lines : List LogEvent}

/-- What is logged of a send that is under way. A pause goes without its warning only if the budget
is spent, so that no attempt can follow. -/
inductive Logged (p : RetryPolicy) (now : Nat) (s : Sending τ) : List LogEvent → Prop where
  | ready {lines : List LogEvent} : s.phase = .ready → Retried s.batch.size s.attempts lines →
      s.Logged p now lines
  | calling {k : Nat} {lines : List LogEvent} {timeout : Duration} {limit : Nat}
      {answerAt : Option Nat} {call : τ} : s.phase = .calling timeout limit answerAt call →
      s.attempts = k + 1 → Retried s.batch.size k lines →
      s.Logged p now (lines ++ [.sendAttempt (.ofNat (k + 1)) s.batch.size])
  | pausing {k wake : Nat} {lines : List LogEvent} {error : TransportError} :
      s.phase = .pausing wake error → s.attempts = k + 1 →
      Retried s.batch.size (k + 1) lines → s.Logged p now lines
  | spent {k wake : Nat} {lines : List LogEvent} {error : TransportError} :
      s.phase = .pausing wake error → s.attempts = k + 1 → p.isSpent s.started now = true →
      Retried s.batch.size k lines →
      s.Logged p now (lines ++ [.sendAttempt (.ofNat (k + 1)) s.batch.size])

theorem Logged.sendLog (h : s.Logged p now lines) : SendLog s.batch.size s.attempts none lines := by
  cases h with
  | ready _ retried => exact .retried retried
  | calling _ attempts retried => exact attempts ▸ .attempted retried
  | pausing _ attempts retried => exact attempts ▸ .retried retried
  | spent _ attempts _ retried => exact attempts ▸ .attempted retried

theorem Logged.wait (h : s.Logged p now lines) (alarm : Nat) :
    Logged p now ({ s with alarm := alarm } : Sending τ) lines := by
  cases h with
  | ready phase retried => exact .ready phase retried
  | calling phase attempts retried => exact .calling phase attempts retried
  | pausing phase attempts retried => exact .pausing phase attempts retried
  | spent phase attempts spent retried => exact .spent phase attempts spent retried

theorem Logged.later (h : s.Logged p now lines) {later : Nat} (le : now ≤ later) :
    s.Logged p later lines := by
  cases h with
  | ready phase retried => exact .ready phase retried
  | calling phase attempts retried => exact .calling phase attempts retried
  | pausing phase attempts retried => exact .pausing phase attempts retried
  | spent phase attempts spent retried =>
    exact .spent phase attempts (RetryPolicy.isSpent_mono le spent) retried

theorem Logged.of_ready (h : s.Logged p now lines) (ready : s.phase = .ready) :
    Retried s.batch.size s.attempts lines := by
  cases h with
  | ready _ retried => exact retried
  | calling phase | pausing phase | spent phase => cases ready.symm.trans phase

theorem Logged.of_calling (h : s.Logged p now lines) {timeout : Duration} {limit : Nat}
    {answerAt : Option Nat} {call : τ} (phase : s.phase = .calling timeout limit answerAt call) :
    ∃ k before, s.attempts = k + 1 ∧
      lines = before ++ [.sendAttempt (.ofNat (k + 1)) s.batch.size] ∧
      Retried s.batch.size k before := by
  cases h with
  | calling _ attempts retried => exact ⟨_, _, attempts, rfl, retried⟩
  | ready other | pausing other | spent other => cases phase.symm.trans other

theorem Logged.call (h : s.Logged p now lines) (ready : s.phase = .ready) (timeout : Duration)
    (limit : Nat) (answerAt : Option Nat) (call : τ) :
    Logged p now
      ({ s with
        attempts := s.attempts + 1, phase := .calling timeout limit answerAt call } : Sending τ)
      (lines ++ [.sendAttempt (.ofNat (s.attempts + 1)) s.batch.size]) :=
  .calling rfl rfl (h.of_ready ready)

theorem Logged.settle (h : s.Logged p now lines) {timeout : Duration} {limit : Nat}
    {answerAt : Option Nat} {call : τ} (phase : s.phase = .calling timeout limit answerAt call)
    (result : SendResult) :
    SendLog s.batch.size s.attempts (some result)
      (lines ++ result.log s.attempts s.batch.size) := by
  obtain ⟨k, before, attempts, rfl, retried⟩ := h.of_calling phase
  rw [attempts, List.append_assoc]
  cases result with
  | published ids => exact .acknowledged ids retried
  | failed error => exact .failed error retried
  | crashed => exact .crashed retried

theorem Logged.fail (h : s.Logged p now lines) {timeout : Duration} {limit : Nat}
    {answerAt : Option Nat} {call : τ} (phase : s.phase = .calling timeout limit answerAt call)
    (wake : Nat) (error : TransportError) :
    Logged p now ({ s with phase := .pausing wake error } : Sending τ)
      (lines ++ p.retryLog s.started now s.attempts error) := by
  obtain ⟨k, before, attempts, rfl, retried⟩ := h.of_calling phase
  unfold RetryPolicy.retryLog
  split
  next none =>
    -- Without a warning the budget is spent, and stays so when the pause is over.
    rw [Duration.isZero_iff, ← RetryPolicy.isSpent_iff] at none
    rw [List.append_nil]
    exact .spent rfl attempts none retried
  next =>
    have again := Retried.again (p.pause s.started now s.attempts) error retried
    rw [← attempts] at again ⊢
    rw [List.append_assoc]
    exact .pausing rfl attempts (attempts ▸ again)

theorem Logged.resume (h : s.Logged p now lines) {wake : Nat} {error : TransportError}
    (phase : s.phase = .pausing wake error) (left : p.isSpent s.started now = false) :
    Logged p now ({ s with phase := .ready } : Sending τ) lines := by
  cases h with
  | pausing _ attempts retried => exact .ready rfl (attempts ▸ retried)
  | spent _ _ spent => cases left.symm.trans spent
  | ready other | calling other => cases phase.symm.trans other

theorem Logged.exhaust (h : s.Logged p now lines) {wake : Nat} {error : TransportError}
    (phase : s.phase = .pausing wake error) :
    SendLog s.batch.size s.attempts (some (.failed (p.exhausted s.attempts error)))
      (lines ++ [.batchFailed s.batch.size (p.exhausted s.attempts error)]) := by
  cases h with
  | pausing _ attempts retried => exact attempts ▸ .exhausted _ _ retried
  | spent _ attempts _ retried =>
    rw [attempts, List.append_assoc]
    exact .failed _ retried
  | ready other | calling other => cases phase.symm.trans other

end Sending

/-! Pages -/

namespace Happening

/-- The batch on whose page a happening stands. -/
def batch? : Happening → Option Nat
  | .logged batch _ => batch
  | .dispatched batch _ | .called batch _ _ | .sendEnded batch _ => some batch
  | _ => none

@[simp] def line? : Happening → Option (Nat × LogEvent)
  | .logged (some batch) event => some (batch, event)
  | _ => none

end Happening

theorem Diary.batch?_of_linesFor {n : Nat} {events : List LogEvent} :
    ∀ h ∈ linesFor n events, h.batch? = some n := by
  intro h hh
  obtain ⟨event, -, rfl⟩ := List.mem_map.mp hh
  rfl

/-- What is picked from a list of happenings for one batch. -/
def pickFor {α : Type} (f : Happening → Option (Nat × α)) (n : Nat) (hs : List Happening) :
    List α :=
  ((hs.filterMap f).filter (·.1 == n)).map Prod.snd

section pickFor

variable {α : Type} {f : Happening → Option (Nat × α)} {n : Nat}

theorem pickFor_append (xs ys : List Happening) :
    pickFor f n (xs ++ ys) = pickFor f n xs ++ pickFor f n ys := by
  simp [pickFor]

theorem pickFor_other {hs : List Happening}
    (names : ∀ h x, f h = some x → h.batch? = some x.1)
    (other : ∀ h ∈ hs, h.batch? ≠ some n) : pickFor f n hs = [] := by
  unfold pickFor
  rw [List.map_eq_nil_iff, List.filter_eq_nil_iff]
  intro x hx same
  obtain ⟨h, hh, picked⟩ := List.mem_filterMap.mp hx
  exact other h hh (beq_iff_eq.mp same ▸ names h x picked)

end pickFor

/-- All that is written of one batch, and the task that sends it while it does. -/
structure Page (τ : Type) where
  sending : Option (Sending τ) := none
  batches : List Batch := []
  lines : List LogEvent := []
  calls : List (Nat × List Message) := []
  results : List SendResult := []

namespace Page

variable {τ : Type} {p : RetryPolicy} {now n : Nat} {g : Page τ} {s : Sending τ}

def write (g : Page τ) (n : Nat) (hs : List Happening) : Page τ where
  sending := g.sending
  batches := g.batches ++ pickFor Happening.dispatched? n hs
  lines := g.lines ++ pickFor Happening.line? n hs
  calls := g.calls ++ pickFor Happening.called? n hs
  results := g.results ++ pickFor Happening.ended? n hs

theorem write_append (g : Page τ) (xs ys : List Happening) :
    g.write n (xs ++ ys) = (g.write n xs).write n ys := by
  simp [write, pickFor_append]

theorem write_other {hs : List Happening} (other : ∀ h ∈ hs, h.batch? ≠ some n) :
    g.write n hs = g := by
  have dispatched := pickFor_other (f := Happening.dispatched?) (by rintro (_ | _) _ ⟨⟩; rfl) other
  have lines := pickFor_other (f := Happening.line?) (by rintro (⟨_ | _, _⟩ | _) _ ⟨⟩; rfl) other
  have called := pickFor_other (f := Happening.called?) (by rintro (_ | _) _ ⟨⟩; rfl) other
  have ended := pickFor_other (f := Happening.ended?) (by rintro (_ | _) _ ⟨⟩; rfl) other
  simp only [write, dispatched, lines, called, ended, List.append_nil]

theorem write_lines (g : Page τ) (events : List LogEvent) :
    g.write n (Diary.linesFor n events) = { g with lines := g.lines ++ events } := by
  simp [write, pickFor, Diary.linesFor, List.filterMap_map, List.filter_map, Function.comp_def]

theorem write_called (g : Page τ) (attempt : Nat) (messages : List Message) :
    g.write n [.called n attempt messages] =
      { g with calls := g.calls ++ [(attempt, messages)] } := by
  simp [write, pickFor]

theorem write_ended (g : Page τ) (result : SendResult) :
    g.write n [.sendEnded n result] = { g with results := g.results ++ [result] } := by
  simp [write, pickFor]

/-- The page of a batch that was dispatched begins with the line that it was closed, and goes on
with what is logged of its send. -/
inductive Told (p : RetryPolicy) (now : Nat) : Page τ → Prop where
  | underway {s : Sending τ} {lines : List LogEvent} {calls : List (Nat × List Message)} :
      calls.length = s.attempts → s.Logged p now lines →
      Told p now
        { sending := some s, batches := [s.batch], calls := calls
          lines := .batchClosed s.batch.size s.batch.bytes :: lines }
  | ended {b : Batch} {lines : List LogEvent} {calls : List (Nat × List Message)}
      {result : SendResult} : SendLog b.size calls.length (some result) lines →
      Told p now
        { batches := [b], calls := calls, results := [result]
          lines := .batchClosed b.size b.bytes :: lines }

theorem Told.later (h : g.Told p now) {later : Nat} (le : now ≤ later) : g.Told p later := by
  cases h with
  | underway calls logged => exact .underway calls (logged.later le)
  | ended log => exact .ended log

theorem Told.of_sending (h : g.Told p now) (here : g.sending = some s) :
    ∃ lines calls, calls.length = s.attempts ∧ s.Logged p now lines ∧ g =
      { sending := some s, batches := [s.batch], calls := calls
        lines := .batchClosed s.batch.size s.batch.bytes :: lines } := by
  cases h with
  | underway calls logged =>
    obtain rfl := Option.some.inj here
    exact ⟨_, _, calls, logged, rfl⟩
  | ended log => cases here

theorem Told.sendLog (h : g.Told p now) {b : Batch} (hb : b ∈ g.batches) :
    ∃ result lines, g.results = Option.toList result ∧
      g.lines = .batchClosed b.size b.bytes :: lines ∧
      SendLog b.size g.calls.length result lines := by
  cases h with
  | underway attempts logged =>
    obtain rfl := List.mem_singleton.mp hb
    exact ⟨none, _, rfl, rfl, attempts ▸ logged.sendLog⟩
  | ended log =>
    obtain rfl := List.mem_singleton.mp hb
    exact ⟨some _, _, rfl, rfl, log⟩

end Page

namespace Diary

variable {τ : Type} {c : Config} {k l : Diary τ} {s t : Sending τ} {n : Nat}

def page (k : Diary τ) (n : Nat) : Page τ where
  sending := k.sending? n
  batches := pickFor Happening.dispatched? n k.events
  lines := pickFor Happening.line? n k.events
  calls := pickFor Happening.called? n k.events
  results := pickFor Happening.ended? n k.events

theorem page_of_events {hs : List Happening} (events : l.events = k.events ++ hs) (n : Nat) :
    l.page n = { k.page n with sending := l.sending? n }.write n hs := by
  simp only [page, events, pickFor_append, Page.write]

theorem sending?_set_self (here : k.sending? t.id = some s) :
    (k.set t).sending? t.id = some t := by
  have same : s.id = t.id := by simpa using List.find?_some here
  rw [sending?, set, find?_replace_key, show k.sends.find? (·.id == t.id) = some s from here,
    Option.map_some, if_pos (by simpa using same)]

theorem sending?_set_other (other : t.id ≠ n) : (k.set t).sending? n = k.sending? n := by
  rw [sending?, set, find?_replace_key, sending?]
  cases there : k.sends.find? (·.id == n) with
  | none => rfl
  | some u =>
    have same : u.id = n := by simpa using List.find?_some there
    rw [Option.map_some, if_neg (by simpa [same] using Ne.symm other)]

/-- Every batch that was dispatched has its page, and there are no others. -/
structure Paged (p : RetryPolicy) (k : Diary τ) : Prop where
  told : ∀ n < k.dispatched, (k.page n).Told p k.now
  blank : ∀ n, k.dispatched ≤ n → k.page n = {}

variable {p : RetryPolicy}

/-- What is about no batch stands on no page. -/
theorem Paged.note (h : k.Paged p) {hs : List Happening} (quiet : ∀ x ∈ hs, x.batch? = none) :
    (k.note hs).Paged p := by
  have same (n : Nat) : (k.note hs).page n = k.page n := by
    rw [page_of_events (k := k) (l := k.note hs) rfl n]
    exact Page.write_other fun x hx about => by
      rw [quiet x hx] at about
      cases about
  exact ⟨fun n hn => same n ▸ h.told n hn, fun n hn => same n ▸ h.blank n hn⟩

theorem Paged.pass (h : k.Paged p) {now : Nat} (le : k.now ≤ now) :
    Paged p { k with now := now } :=
  ⟨fun n hn => (h.told n hn).later le, h.blank⟩

theorem Paged.dispatch (h : k.Paged p) (b : Batch) : (k.dispatch b).Paged p := by
  have page (n : Nat) := page_of_events (k := k) (l := k.dispatch b) rfl n
  have other (n : Nat) (hn : k.dispatched ≠ n) : (k.dispatch b).page n = k.page n := by
    have sending : (k.dispatch b).sending? n = k.sending? n := by
      have away : (k.dispatched == n) = false := by simpa using hn
      simp [Diary.dispatch, Diary.note, sending?, List.find?_append, away]
    rw [page, sending, Page.write_other (by simpa [Happening.batch?] using hn)]
    rfl
  have new : (k.dispatch b).page k.dispatched =
      { sending := some { id := k.dispatched, batch := b, started := k.now }, batches := [b]
        lines := [.batchClosed b.size b.bytes] } := by
    have absent : k.sending? k.dispatched = none :=
      congrArg Page.sending (h.blank k.dispatched (Nat.le_refl _))
    have sending : (k.dispatch b).sending? k.dispatched =
        some { id := k.dispatched, batch := b, started := k.now } := by
      rw [sending?] at absent
      simp [Diary.dispatch, Diary.note, sending?, List.find?_append, absent]
    rw [page, sending, h.blank k.dispatched (Nat.le_refl _)]
    simp [Page.write, pickFor, List.filterMap_cons]
  constructor
  · intro n hn
    rcases Nat.lt_succ_iff_lt_or_eq.mp hn with before | rfl
    · exact other n (Nat.ne_of_gt before) ▸ h.told n before
    · rw [new]
      exact .underway (s := { id := k.dispatched, batch := b, started := k.now }) rfl
        (.ready rfl .none)
  · intro n hn
    rw [other n (Nat.ne_of_lt hn)]
    exact h.blank n (Nat.le_of_lt hn)

/-- A task that sends a batch writes on the page of this batch only. -/
theorem Paged.turn (h : k.Paged p) (here : k.sending? s.id = some s) {hs : List Happening}
    (now : l.now = k.now) (dispatched : l.dispatched = k.dispatched)
    (events : l.events = k.events ++ hs) (about : ∀ x ∈ hs, x.batch? = some s.id)
    (others : ∀ n, s.id ≠ n → l.sending? n = k.sending? n)
    (told : ∀ lines calls, calls.length = s.attempts → s.Logged p k.now lines →
      Page.Told p k.now (Page.write
        { sending := l.sending? s.id, batches := [s.batch], calls := calls
          lines := .batchClosed s.batch.size s.batch.bytes :: lines } s.id hs)) :
    l.Paged p := by
  have other (n : Nat) (hn : s.id ≠ n) : l.page n = k.page n := by
    rw [page_of_events events, others n hn, Page.write_other fun x hx same =>
      hn (Option.some.inj ((about x hx).symm.trans same))]
    rfl
  have known : s.id < k.dispatched := by
    refine Nat.lt_of_not_le fun unknown => ?_
    cases here.symm.trans (congrArg Page.sending (h.blank s.id unknown))
  constructor
  · intro n hn
    rw [now]
    rw [dispatched] at hn
    by_cases self : s.id = n
    · obtain ⟨lines, calls, attempts, logged, same⟩ := (h.told s.id known).of_sending here
      rw [← self, page_of_events events, same]
      exact told lines calls attempts logged
    · exact other n self ▸ h.told n hn
  · intro n hn
    rw [dispatched] at hn
    rw [other n (Nat.ne_of_lt (Nat.lt_of_lt_of_le known hn))]
    exact h.blank n hn

/-- A task that goes on sending. -/
theorem Paged.set (h : k.Paged p) (here : k.sending? s.id = some s) {hs : List Happening}
    (about : ∀ x ∈ hs, x.batch? = some s.id) (same : t.id = s.id)
    (told : ∀ lines calls, calls.length = s.attempts → s.Logged p k.now lines →
      Page.Told p k.now (Page.write
        { sending := some t, batches := [s.batch], calls := calls
          lines := .batchClosed s.batch.size s.batch.bytes :: lines } s.id hs)) :
    ((k.note hs).set t).Paged p := by
  have sending : ((k.note hs).set t).sending? s.id = some t :=
    same ▸ sending?_set_self (k := k.note hs) (same ▸ here)
  refine h.turn here rfl rfl rfl about (fun n hn => ?_) (sending ▸ told)
  exact sending?_set_other (k := k.note hs) (same ▸ hn)

/-- A task that goes on without a word. -/
theorem Paged.silent (h : k.Paged p) (here : k.sending? s.id = some s) (same : t.id = s.id)
    (batch : t.batch = s.batch) (attempts : t.attempts = s.attempts)
    (logged : ∀ lines, s.Logged p k.now lines → t.Logged p k.now lines) :
    (k.set t).Paged p := by
  rw [← k.note_nil]
  refine h.set here (List.forall_mem_nil _) same fun lines calls count log => ?_
  rw [Page.write_other (List.forall_mem_nil _), ← batch]
  exact .underway (count.trans attempts.symm) (logged lines log)

/-- A task that ends. -/
theorem Paged.finish (h : k.Paged p) (here : k.sending? s.id = some s) {result : SendResult}
    (log : ∀ lines, s.Logged p k.now lines → SendLog s.batch.size s.attempts (some result)
      (lines ++ result.log s.attempts s.batch.size)) : (k.finish s result).Paged p := by
  refine h.turn here rfl rfl rfl
    (List.forall_mem_append.mpr ⟨batch?_of_linesFor, List.forall_mem_singleton.mpr rfl⟩)
    (fun n hn => find?_remove_other k.sends hn) fun lines calls attempts logged => ?_
  have gone : (k.finish s result).sending? s.id = none := find?_remove_key k.sends s.id
  rw [gone, Page.write_append, Page.write_lines, Page.write_ended]
  exact .ended (attempts ▸ log lines logged)

theorem Writes.paged (h : k.Paged c.retries) (writes : Writes c k l) : l.Paged c.retries := by
  cases writes with
  | accept | refuse | release | resolve | announce | complete =>
    exact h.note (by simp [Happening.batch?])
  | dispatch b => exact h.dispatch b
  | call s timeout limit answerAt call here ready =>
    refine h.set here (by simp [Happening.batch?]) rfl fun lines calls attempts logged => ?_
    have count : (calls ++ [(s.attempts + 1, s.batch.messages)]).length = s.attempts + 1 := by
      rw [List.length_append, attempts, List.length_singleton]
    rw [show [.logged (some s.id) (.sendAttempt (.ofNat (s.attempts + 1)) s.batch.size),
        .called s.id (s.attempts + 1) s.batch.messages] =
      linesFor s.id [.sendAttempt (.ofNat (s.attempts + 1)) s.batch.size] ++
        [.called s.id (s.attempts + 1) s.batch.messages] from rfl,
      Page.write_append, Page.write_lines, Page.write_called]
    exact .underway count (logged.call ready timeout limit answerAt call)
  | wait s alarm here => exact h.silent here rfl rfl rfl fun lines logged => logged.wait alarm
  | settle s timeout limit answerAt call reply result here phase verdict =>
    have answered : (k.note [.answered s.id s.attempts reply]).Paged c.retries :=
      h.note (List.forall_mem_singleton.mpr rfl)
    exact answered.finish here fun lines logged => logged.settle phase result
  | fail s timeout limit answerAt call reply wake error here phase verdict =>
    have answered : (k.note [.answered s.id s.attempts reply]).Paged c.retries :=
      h.note (List.forall_mem_singleton.mpr rfl)
    rw [← List.singleton_append, note_append]
    refine answered.set here batch?_of_linesFor rfl fun lines calls attempts logged => ?_
    rw [Page.write_lines]
    exact .underway attempts (logged.fail phase wake error)
  | resume s wake error here phase left =>
    exact h.silent here rfl rfl rfl fun lines logged => logged.resume phase left
  | exhaust s wake error here phase spent =>
    exact h.finish here fun lines logged => logged.exhaust phase
  | pass now le => exact h.pass le

end Diary

namespace Engine

variable {σ τ : Type} {v : Service σ τ} {c : Config} {e : Engine σ τ}

def linesOf (e : Engine σ τ) (n : Nat) : List LogEvent := pickFor Happening.line? n e.events

theorem start_paged (c : Config) (service : σ) :
    (start c service : Engine σ τ).diary.Paged c.retries :=
  ⟨nofun, fun _ _ => rfl⟩

theorem Reachable.paged (h : Reachable v c e) (alive : e.batching ≠ .killed) :
    e.diary.Paged c.retries :=
  h.writes (start_paged c) Diary.Writes.paged alive

/-- What is logged for a dispatched batch, with the calls that were made for it and its result. -/
theorem Reachable.sendLog (h : Reachable v c e) (alive : e.batching ≠ .killed) {d : Nat × Batch}
    (hd : d ∈ e.dispatches) :
    ∃ result lines, e.resultsOf d.1 = Option.toList result ∧
      e.linesOf d.1 = .batchClosed d.2.size d.2.bytes :: lines ∧
      SendLog d.2.size (e.callsOf d.1).length result lines := by
  have batches : d.2 ∈ (e.diary.page d.1).batches :=
    List.mem_map_of_mem (List.mem_filter.mpr ⟨hd, beq_self_eq_true d.1⟩)
  have told : (e.diary.page d.1).Told c.retries e.now := by
    refine (h.paged alive).told d.1 (Nat.lt_of_not_le fun unknown => ?_)
    rw [(h.paged alive).blank d.1 unknown] at batches
    cases batches
  exact told.sendLog batches

end Engine
end TopicPublisher
