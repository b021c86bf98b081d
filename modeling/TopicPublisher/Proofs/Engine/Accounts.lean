import TopicPublisher.Proofs.Engine.Order

/-!
The accounts of an engine: how many messages were published, how many failed, and how many are
outstanding. Main statement: the counters and the ledger show just these numbers, and together
they make up all admitted messages.
-/

namespace TopicPublisher
namespace Custody

/-- The admitted entries are `done`, each with the outcome that its handle has, or are still
underway. The counters show the outcomes of those that are done or ending. -/
structure Accounts (k : Custody) (done : List (Entry × Outcome)) : Prop where
  places : k.admitted.Perm (done.map Prod.fst ++ k.underway)
  resolved : ∀ d ∈ done, (d.1.id, d.2) ∈ k.resolved
  published : k.published = UInt64.ofNat ((done ++ k.ending).countP (·.2.isOk))
  failed : k.failed = UInt64.ofNat ((done ++ k.ending).countP (!·.2.isOk))

/-- The accounts are right for as long as the batching task is not killed. -/
def Accounted (k : Custody) : Prop := k.batching ≠ .killed → ∃ done, k.Accounts done

variable {c : Config} {mayCrash : Prop} {k l : Custody} {x : Entry}

theorem Accounts.decided {done : List (Entry × Outcome)} (h : k.Accounts done) (x : Entry)
    (d : Decision) (a : Admission) : (k.decided x d a).Accounts done := by
  cases d <;> exact { h with }

/-- Handles of other calls may get their outcomes. -/
theorem Accounts.handles {done : List (Entry × Outcome)} (h : k.Accounts done)
    {returned released : List Nat} {resolved : List (Nat × Outcome)}
    (more : k.resolved ⊆ resolved) :
    Accounts { k with returned := returned, released := released, resolved := resolved } done :=
  { h with resolved := fun d hd => more (h.resolved d hd) }

theorem countP_zip {xs : List Entry} {outcomes : List Outcome} (p : Outcome → Bool)
    (parallel : outcomes.length = xs.length) :
    (xs.zip outcomes).countP (p ·.2) = outcomes.countP p := by
  have snd : (xs.zip outcomes).map Prod.snd = outcomes := by
    rw [List.map_snd_zip]
    omega
  conv_rhs => rw [← snd, List.countP_map]
  rfl

/-- The counters count the outcomes of a sending, unless it crashed. -/
theorem counted_eq (k : Custody) {messages : Nat} {result : SendResult}
    (parallel : (result.outcomes messages).length = messages) (calm : result ≠ .crashed) :
    k.counted messages result =
      { k with
        published := k.published + UInt64.ofNat ((result.outcomes messages).countP (·.isOk))
        failed := k.failed + UInt64.ofNat ((result.outcomes messages).countP (!·.isOk)) } := by
  cases result with
  | published ids =>
    have length : ids.length = messages := by simpa [SendResult.outcomes] using parallel
    simp [counted, SendResult.outcomes, List.countP_map, Function.comp_def, Except.isOk,
      Except.toBool, length]
  | failed error =>
    simp [counted, SendResult.outcomes, List.countP_replicate, Except.isOk, Except.toBool]
  | crashed => exact absurd rfl calm

/-- The end of a sending is counted before its messages have their outcomes. -/
theorem Accounts.finish {done : List (Entry × Outcome)} (sound : k.Sound c) (h : k.Accounts done)
    {n : Nat} {b : Batch} {result : SendResult} (hb : (n, b) ∈ k.sends) (none : k.ending = [])
    (parallel : (result.outcomes b.size).length = b.size) (calm : result ≠ .crashed) :
    Accounts ({ k with
      sends := k.sends.filter (·.1 != n)
      ending := b.entries.zip (result.outcomes b.size) }.counted b.size result) done := by
  have published := h.published
  have failed := h.failed
  rw [none, List.append_nil] at published failed
  rw [counted_eq _ parallel calm]
  refine ⟨?_, h.resolved, ?_, ?_⟩
  · exact h.places.trans
      ((sound.kept.finish_places hb none parallel).symm.append_left (done.map Prod.fst))
  · rw [List.countP_append, countP_zip _ parallel, UInt64.ofNat_add, ← published]
  · rw [List.countP_append, countP_zip (!·.isOk) parallel, UInt64.ofNat_add, ← failed]

theorem Accounts.resolve {done rest : List (Entry × Outcome)} {outcome : Outcome}
    (h : k.Accounts done) (hx : k.ending = (x, outcome) :: rest) :
    Accounts (({ k with ending := rest }.relinquish x).note
      [.released x.id, .resolved x.id outcome]) (done ++ [(x, outcome)]) := by
  have places := h.places
  have published := h.published
  have failed := h.failed
  rw [underway, hx] at places
  rw [hx] at published failed
  rw [note_ended]
  refine ⟨?_, ?_, ?_, ?_⟩
  · rw [List.map_append, List.append_assoc]
    exact places
  · intro d hd
    rcases List.mem_append.mp hd with hd | hd
    · exact List.mem_append_left _ (h.resolved d hd)
    · rw [List.mem_singleton.mp hd]
      exact List.mem_append_right _ (List.mem_singleton_self _)
  · rw [List.append_assoc]
    exact published
  · rw [List.append_assoc]
    exact failed

theorem Accounts.enqueue {done : List (Entry × Outcome)} (h : k.Accounts done)
    (rest : List Entry) : Accounts ({ k with granted := rest, queue := k.queue ++ [x] }.note
      [.admitted x, .returned x.id]) done := by
  rw [note_enqueued]
  refine { h with places := ?_ }
  have places := h.places.append_right [x]
  simp only [underway, outstanding, List.append_assoc] at places ⊢
  exact places

/-- A batching task that was killed stays so. -/
theorem Move.alive (move : k.Move c mayCrash l) (alive : l.batching ≠ .killed) :
    k.batching ≠ .killed := by
  have decided (k : Custody) (x : Entry) (d : Decision) (a : Admission) :
      (k.decided x d a).batching = k.batching := by cases d <;> rfl
  have counted (k : Custody) (n : Nat) (result : SendResult) :
      (k.counted n result).batching = k.batching := by cases result <;> rfl
  cases move with
  | reserve x rest _ _ => rwa [decided] at alive
  | resume x _ => rwa [decided] at alive
  | finish n b result _ _ _ _ => rwa [counted] at alive
  | kill _ _ _ => exact absurd rfl alive
  | retire running _ _ => rw [running]; nofun
  | _ => exact alive

theorem Accounted.move (calm : ¬ mayCrash) (sound : k.Sound c) (h : k.Accounted)
    (move : k.Move c mayCrash l) : l.Accounted := by
  intro alive
  obtain ⟨done, accounts⟩ := h (move.alive alive)
  -- Only the end of an entry makes the list of those that are done longer.
  cases move with
  | wait now _ => exact ⟨done, { accounts with }⟩
  | arrive x _ _ => exact ⟨done, { accounts with }⟩
  | reserve x rest _ _ =>
    exact ⟨done, Accounts.decided (k := { k with asking := rest }) { accounts with } x _ _⟩
  | resume x _ =>
    exact ⟨done, Accounts.decided (k := { k with blocked := k.blocked.filter (·.id != x.id) })
      { accounts with } x _ _⟩
  | refuse x rest error _ =>
    rw [note_refused]
    exact ⟨done, Accounts.handles (k := { k with asking := rest }) { accounts with }
      (List.subset_append_left _ _)⟩
  | enqueue x rest _ _ => exact ⟨done, accounts.enqueue rest⟩
  | turnAway x rest error _ =>
    rw [note_turnedAway]
    exact ⟨done, Accounts.handles (k := { k with granted := rest }.relinquish x)
      { accounts with } (List.subset_append_left _ _)⟩
  | cancel call => exact ⟨done, { accounts with }⟩
  | close => exact ⟨done, { accounts with }⟩
  | take x rest _ hq =>
    refine ⟨done, { accounts with places := accounts.places.trans (List.Perm.append_left _ ?_) }⟩
    simp [underway, outstanding, hq]
  | dispatch b current _ hc =>
    rw [note_dispatched]
    refine ⟨done, { accounts with places := accounts.places.trans (List.Perm.append_left _ ?_) }⟩
    simp [underway, outstanding, hc]
  | finish n b result hb none parallel crash =>
    exact ⟨done, accounts.finish sound hb none parallel fun h => calm (crash h)⟩
  | kill _ _ _ => exact absurd rfl alive
  | resolve x outcome rest hx => exact ⟨done ++ [(x, outcome)], accounts.resolve hx⟩
  | retire _ _ _ => exact ⟨done, { accounts with }⟩
  | call n attempt b _ =>
    rw [note_called]
    exact ⟨done, { accounts with }⟩

end Custody

namespace Engine

variable {σ τ : Type} {v : Service σ τ} {c : Config} {e : Engine σ τ}

/-- The outcome of the handle of a publish call, once it has one. -/
def outcomeOf (e : Engine σ τ) (call : Nat) : Option Outcome :=
  (e.resolved.find? (·.1 == call)).map Prod.snd

def hasSucceeded (e : Engine σ τ) (x : Entry) : Bool := (e.outcomeOf x.id).any (·.isOk)

def hasFailed (e : Engine σ τ) (x : Entry) : Bool := (e.outcomeOf x.id).any (!·.isOk)

def isOutstanding (e : Engine σ τ) (x : Entry) : Bool := (e.outcomeOf x.id).isNone

theorem outcomeOf_eq_some (h : e.custody.Kept) {call : Nat} {outcome : Outcome}
    (hr : (call, outcome) ∈ e.resolved) : e.outcomeOf call = some outcome := by
  have found := find?_key h.resolvedOnce hr
  rw [outcomeOf, show e.resolved.find? (·.1 == call) = _ from found]
  rfl

theorem mem_resolved {call : Nat} {outcome : Outcome} (h : e.outcomeOf call = some outcome) :
    (call, outcome) ∈ e.resolved := by
  obtain ⟨o, found, rfl⟩ := Option.map_eq_some_iff.mp h
  obtain rfl : o.1 = call := by simpa using List.find?_some found
  exact List.mem_of_find?_eq_some found

theorem outcomeOf_eq_none {call : Nat} (h : call ∉ e.resolved.map Prod.fst) :
    e.outcomeOf call = none := by
  rw [outcomeOf, Option.map_eq_none_iff, List.find?_eq_none]
  intro r hr
  have hne : r.1 ≠ call := fun same => h (same ▸ List.mem_map_of_mem hr)
  simpa using hne

theorem outcomeOf_isSome (h : e.custody.Kept) {call : Nat}
    (resolved : call ∈ e.resolved.map Prod.fst) : (e.outcomeOf call).isSome = true := by
  obtain ⟨o, ho, rfl⟩ := List.mem_map.mp resolved
  rw [outcomeOf_eq_some h ho]
  rfl

theorem start_accounted (c : Config) (service : σ) :
    (start c service : Engine σ τ).custody.Accounted := by
  refine fun _ => ⟨[], ?_⟩
  constructor <;> simp [custody, start, Custody.underway, Custody.outstanding, admitted, events,
    List.filterMap_cons]

theorem Reachable.accounted (calm : ¬ v.MayCrash) (h : Reachable v c e) : e.custody.Accounted :=
  h.keeps (start_accounted c) fun sound accounted move => accounted.move calm sound move

theorem length_eq_countP (e : Engine σ τ) (xs : List Entry) :
    xs.length = xs.countP e.hasSucceeded + xs.countP e.hasFailed + xs.countP e.isOutstanding := by
  induction xs with
  | nil => rfl
  | cons x rest ih =>
    have one : (if e.hasSucceeded x then 1 else 0) + (if e.hasFailed x then 1 else 0) +
        (if e.isOutstanding x then 1 else 0) = 1 := by
      unfold hasSucceeded hasFailed isOutstanding
      cases e.outcomeOf x.id with
      | none => rfl
      | some outcome => cases h : outcome.isOk <;> simp [h]
    rw [List.length_cons, List.countP_cons, List.countP_cons, List.countP_cons]
    omega

/-- The admitted messages with some outcomes are found among those that are done. -/
theorem countP_admitted (kept : e.custody.Kept) {done : List (Entry × Outcome)}
    (accounts : e.custody.Accounts done) (q : Outcome → Bool) :
    e.admitted.countP (fun x => (e.outcomeOf x.id).any q) = done.countP fun d => q d.2 := by
  have places : e.admitted.Perm (done.map Prod.fst ++ e.custody.outstanding) := accounts.places
  have none : e.custody.outstanding.countP (fun x => (e.outcomeOf x.id).any q) = 0 := by
    rw [List.countP_eq_zero]
    intro x hx
    simp [outcomeOf_eq_none (kept.unresolved x hx).1]
  rw [places.countP_eq, List.countP_append, none, List.countP_map]
  refine List.countP_congr fun d hd => ?_
  rw [Function.comp_apply, outcomeOf_eq_some kept (accounts.resolved d hd), Option.any_some]

theorem filter_isOutstanding (kept : e.custody.Kept) {done : List (Entry × Outcome)}
    (accounts : e.custody.Accounts done) :
    (e.admitted.filter e.isOutstanding).Perm e.custody.outstanding := by
  have places : e.admitted.Perm (done.map Prod.fst ++ e.custody.outstanding) := accounts.places
  refine (places.filter _).trans ?_
  have gone : (done.map Prod.fst).filter e.isOutstanding = [] := by
    rw [List.filter_eq_nil_iff]
    intro x hx
    obtain ⟨d, hd, rfl⟩ := List.mem_map.mp hx
    simp [isOutstanding, outcomeOf_eq_some kept (accounts.resolved d hd)]
  have left : e.custody.outstanding.filter e.isOutstanding = e.custody.outstanding := by
    rw [List.filter_eq_self]
    intro x hx
    simp [isOutstanding, outcomeOf_eq_none (kept.unresolved x hx).1]
  rw [List.filter_append, gone, left, List.nil_append]

theorem ledger_eq (h : e.custody.Sound c) :
    e.admission.ledger.elements = UInt64.ofNat e.custody.outstanding.length ∧
      e.admission.ledger.bytes = UInt64.ofNat (total Entry.size e.custody.outstanding) := by
  have live : e.admission.live.toList.Perm (e.custody.outstanding.map Entry.reservation) :=
    h.kept.live
  have ledger : e.admission.ledger = .ofLive e.admission.live.toList := h.balanced.ledger
  rw [ledger, Ledger.ofLive_perm live, Ledger.ofLive, List.length_map, total, List.map_map]
  exact ⟨rfl, rfl⟩

/-- At every moment of every run in which no deadline falls outside of the clock, with a service
that answers calls as it likes but brings nobody down, the counters and the ledger show how many
admitted messages were published, how many failed, and how many have no outcome yet, with the
bytes of the latter. Together these are all admitted messages, and no handle has two outcomes. -/
theorem messages_accounted (calm : ¬ v.MayCrash) (h : Reachable v c e)
    (representable :
      Clock.representable (Clock.instant e.now + c.thresholds.delay.nanos) = true) :
    e.snapshot.counters.messagesPublished = UInt64.ofNat (e.admitted.countP e.hasSucceeded) ∧
      e.snapshot.counters.messagesFailed = UInt64.ofNat (e.admitted.countP e.hasFailed) ∧
      e.snapshot.ledger.elements = UInt64.ofNat (e.admitted.countP e.isOutstanding) ∧
      e.snapshot.ledger.bytes =
        UInt64.ofNat (total Entry.size (e.admitted.filter e.isOutstanding)) ∧
      e.admitted.length = e.admitted.countP e.hasSucceeded + e.admitted.countP e.hasFailed +
        e.admitted.countP e.isOutstanding ∧
      UInt64.ofNat e.admitted.length = e.snapshot.counters.messagesPublished +
        e.snapshot.counters.messagesFailed + e.snapshot.ledger.elements ∧
      (e.resolved.map Prod.fst).Nodup := by
  have sound := h.sound
  have alive : e.batching ≠ .killed := fun dead =>
    absurd (representable.symm.trans (h.ordered.killed dead)) nofun
  obtain ⟨done, accounts⟩ := h.accounted calm alive
  have succeeded := countP_admitted sound.kept accounts (·.isOk)
  have failed := countP_admitted sound.kept accounts (!·.isOk)
  have left := filter_isOutstanding sound.kept accounts
  obtain ⟨elements, bytes⟩ := ledger_eq sound
  have all := e.length_eq_countP e.admitted
  have published : e.counters.messagesPublished =
      UInt64.ofNat (e.admitted.countP e.hasSucceeded) := by
    refine (show _ = _ from accounts.published).trans ?_
    rw [show e.custody.ending = [] from rfl, List.append_nil, ← succeeded]
    rfl
  have missed : e.counters.messagesFailed = UInt64.ofNat (e.admitted.countP e.hasFailed) := by
    refine (show _ = _ from accounts.failed).trans ?_
    rw [show e.custody.ending = [] from rfl, List.append_nil, ← failed]
    rfl
  have outstanding : e.admission.ledger.elements =
      UInt64.ofNat (e.admitted.countP e.isOutstanding) := by
    rw [elements, List.countP_eq_length_filter, left.length_eq]
  refine ⟨published, missed, outstanding, ?_, all, ?_, sound.kept.resolvedOnce⟩
  · exact bytes.trans (congrArg UInt64.ofNat (left.map Entry.size).sum_nat.symm)
  · rw [all, UInt64.ofNat_add, UInt64.ofNat_add, ← published, ← missed, ← outstanding]
    rfl

/-- Two messages and batches of one: the first message is published while the second is still in
the queue. -/
theorem messages_accounted_one_published :
    ∃ (v : Service Unit Unit) (c : Config) (e : Engine Unit Unit), Reachable v c e ∧
      e.admitted.map Entry.id = [0, 1] ∧ e.outcomeOf 0 = some (.ok "7") ∧ e.outcomeOf 1 = none ∧
      e.snapshot.counters.messagesPublished = UInt64.ofNat (e.admitted.countP e.hasSucceeded) ∧
      e.snapshot.counters.messagesPublished = 1 ∧
      e.snapshot.ledger.bytes =
        UInt64.ofNat (total Entry.size (e.admitted.filter e.isOutstanding)) ∧
      e.snapshot.ledger.bytes = 3 := by
  have started : Reachable
      (⟨fun _ _ => (some 0, (), ()), fun _ _ => (.ids ["7"], ())⟩ : Service Unit Unit)
      { topic := ⟨"project", "topic"⟩, thresholds := ⟨1, 10, ⟨1⟩⟩ } _ := .init ()
  have first := started.step (.publish ⟨0, ⟨⟨#[1, 2]⟩, []⟩⟩ (by decide) (by decide) (by decide))
  have full := first.step (.run .batching (by decide))
  have called := full.step (.run (.sending 0) (by decide))
  have answered := called.step (.run (.sending 0) (by decide))
  have second := answered.step
    (.publish ⟨1, ⟨⟨#[3, 4, 5]⟩, []⟩⟩ (by decide) (by decide) (by decide))
  obtain ⟨published, -, -, bytes, -⟩ := messages_accounted (by rintro ⟨_, _, crash⟩; cases crash)
    second (by decide)
  exact ⟨_, _, _, second, by decide, rfl, rfl, published, rfl, bytes, rfl⟩

end Engine
end TopicPublisher
