import TopicPublisher.Proofs.Admission.Doors

/-!
Closed ceilings. Nothing is granted there any more, so admission can only empty: a request that
waits leaves when it looks, or when it is given up, and all that it held is free then; a
reservation that was live at the closing stays so until it is released; every other call changes
nothing.
-/

namespace TopicPublisher

/-- The error of a request of some size at closed ceilings. -/
def Ceilings.closedError (c : Ceilings) (size : Nat) : PublishError :=
  if ∃ limit ∈ c.bytes, limit < size ∨ Nat.pow 2 32 ≤ size then .admissionRejected .requestBytes
  else .engineShutdown

theorem Ceilings.bytePermits_cases (c : Ceilings) (size : Nat) :
    c.bytePermits size = .error (c.closedError size) ∨
      (∃ permits, c.bytePermits size = .ok permits) ∧ c.closedError size = .engineShutdown := by
  unfold bytePermits closedError
  cases c.bytes with
  | none => exact .inr ⟨⟨0, rfl⟩, if_neg nofun⟩
  | some limit =>
    by_cases large : limit < size ∨ Nat.pow 2 32 ≤ size
    · refine .inl ?_
      rw [if_pos ⟨limit, rfl, large⟩]
      exact if_pos large
    · refine .inr ⟨⟨size, if_neg large⟩, if_neg ?_⟩
      rintro ⟨limit, same, larger⟩
      cases same
      exact large larger

namespace Semaphore

variable {s : Semaphore}

/-- A waiter leaves while nobody is in the queue, so what it held is free. -/
def dismiss (s : Semaphore) (id : Nat) : Semaphore :=
  { s with free := s.free + s.heldBy id, told := s.told.filter (·.id != id) }

theorem release_of_nobody (nobody : s.queue = []) (permits : Nat) :
    s.release permits = ({ s with free := s.free + permits }, []) := by
  obtain ⟨free, queue, told, closed⟩ := s
  cases nobody
  simp [release, distribute]

theorem withdraw_of_nobody (nobody : s.queue = []) (id : Nat) :
    s.withdraw id = (s.dismiss id, []) := by
  have left : s.queue.filter (·.id != id) = [] := by rw [nobody]; rfl
  rw [withdraw, left, release_of_nobody rfl]
  obtain ⟨free, queue, told, closed⟩ := s
  cases nobody
  rfl

theorem look_of_closed (closed : s.closed = true) (nobody : s.queue = []) (id : Nat) :
    s.look id = (.refused, s.dismiss id) := by
  rw [look, if_pos closed, withdraw_of_nobody nobody]

theorem close_of_closed (closed : s.closed = true) (nobody : s.queue = []) :
    s.close = (s, []) := by
  obtain ⟨free, queue, told, closed⟩ := s
  cases nobody
  cases closed
  simp [close]

end Semaphore

namespace Admission

/-- The calls of admission, each up to where it waits: a request is made, goes on after a wait, or
is given up while it waits, a reservation is released, and the ceilings are closed. -/
inductive Call where
  | tryReserve (id size : Nat)
  | reserve (id size : Nat)
  | resume (id : Nat)
  | cancel (id : Nat)
  | release (id : Nat)
  | close
deriving DecidableEq, Repr

def Call.apply (a : Admission) : Call → Admission
  | .tryReserve id size => (a.tryReserve id size).2.1
  | .reserve id size => (a.reserve id size).2.1
  | .resume id => (a.resume id).2.1
  | .cancel id => (a.cancel id).1
  | .release id => (a.release id).1
  | .close => a.close.1

/-- Admission after some calls, one after the other. -/
def after (a : Admission) (calls : List Call) : Admission := calls.foldl Call.apply a

/-- A request that waits leaves, with what it holds: what it has of its element or, with its
element, what it has of its bytes. -/
def dismiss (a : Admission) (r : Request) : Admission :=
  match r.stage with
  | .element => { a.settle r.id with elements := a.elements.map (·.dismiss r.id) }
  | .bytes =>
    { a.settle r.id with
      elements := a.elements.map fun s => { s with free := s.free + 1 }
      bytes := a.bytes.map (·.dismiss r.id) }

/-- Admission under some ceilings, all closed, while no request is at work. -/
structure Closed (c : Ceilings) (a : Admission) : Prop where
  balanced : a.Balanced c [] 0
  shut : a.Shut true

variable {c : Ceilings} {a b : Admission} {r : Request} {s : Semaphore} {stage : Stage}
  {id size permits : Nat}

theorem Closed.queue (h : a.Closed c) (hs : a.semaphore? stage = some s) : s.queue = [] := by
  obtain ⟨_, _, backs⟩ := h.balanced.backs hs
  exact backs.shut (h.shut.semaphore hs)

theorem Closed.queue_elements (h : a.Closed c) : ∀ s, a.elements = some s → s.queue = [] :=
  fun s hs => h.queue (show a.semaphore? .element = some s from hs)

theorem Closed.queue_bytes (h : a.Closed c) : ∀ s, a.bytes = some s → s.queue = [] :=
  fun s hs => h.queue (show a.semaphore? .bytes = some s from hs)

/-! Requests -/

theorem tryElement_of_closed (hs : a.elements = some s) (closed : s.closed = true) :
    a.tryElement = .error .closed := by
  rw [tryElement, hs]
  dsimp only
  rw [Semaphore.tryAcquire, if_pos closed]
  rfl

theorem askElement_of_closed (hs : a.elements = some s) (closed : s.closed = true)
    (id size : Nat) : a.askElement id size = (.refused, a) := by
  rw [askElement, hs]
  simp only [Semaphore.acquire, if_pos closed]
  rw [← hs]

theorem tryBytes_of_closed (hs : a.bytes = some s) (closed : s.closed = true)
    (id size permits : Nat) :
    a.tryBytes id size permits = (.refused .engineShutdown, a.returnElement) := by
  rw [tryBytes, hs]
  dsimp only
  rw [Semaphore.tryAcquire, if_pos closed]
  rfl

theorem takeBytes_of_closed (hs : a.bytes = some s) (closed : s.closed = true)
    (id size permits : Nat) :
    a.takeBytes id size permits = (.refused .engineShutdown, a.returnElement) := by
  rw [takeBytes, hs]
  simp only [Semaphore.acquire, if_pos closed]
  rw [← hs]

theorem returnElement_of_none (none : a.elements = none) : a.returnElement = (a, []) := by
  rw [returnElement, none]

/-- Where there is no ceiling on elements there is one on bytes, which is closed. -/
theorem Closed.exists_bytes (h : a.Closed c) (bounded : c.elements.isSome ∨ c.bytes.isSome)
    (none : a.elements = none) : ∃ s, a.bytes = some s ∧ s.closed = true := by
  have unbounded : c.elements = Option.none := by
    have backed := h.balanced.elements
    rw [none] at backed
    cases hc : c.elements with
    | none => rfl
    | some limit =>
      rw [hc] at backed
      cases backed
  have some : a.bytes.isSome = true := by
    rw [h.balanced.isSome_bytes]
    exact bounded.resolve_left (by rw [unbounded]; exact nofun)
  obtain ⟨s, hs⟩ := Option.isSome_iff_exists.mp some
  exact ⟨s, hs, h.shut.2 s hs⟩

/-- A new request is refused and changes nothing. -/
theorem Closed.tryReserve (h : a.Closed c) (bounded : c.elements.isSome ∨ c.bytes.isSome)
    (id size : Nat) : a.tryReserve id size = (.refused (c.closedError size), a, []) := by
  unfold Admission.tryReserve
  rw [h.balanced.ceilings]
  obtain error | ⟨⟨permits, ok⟩, shutdown⟩ := c.bytePermits_cases size
  · rw [error]
  rw [ok, shutdown]
  dsimp only
  cases hs : a.elements with
  | some s =>
    rw [tryElement_of_closed hs (h.shut.1 s hs)]
    rfl
  | none =>
    obtain ⟨s, hb, closed⟩ := h.exists_bytes bounded hs
    have taken : a.tryElement = .ok a := by rw [tryElement, hs]
    rw [taken]
    dsimp only
    rw [tryBytes_of_closed hb closed, returnElement_of_none hs]

theorem Closed.reserve (h : a.Closed c) (bounded : c.elements.isSome ∨ c.bytes.isSome)
    (id size : Nat) : a.reserve id size = (.refused (c.closedError size), a, []) := by
  have tried := h.tryReserve bounded id size
  unfold Admission.reserve
  cases ha : a.ceilings.behavior with
  | failFast =>
    rw [← tried]
    unfold Admission.tryReserve
    cases a.ceilings.bytePermits size <;> rfl
  | block =>
    rw [h.balanced.ceilings]
    obtain error | ⟨⟨permits, ok⟩, shutdown⟩ := c.bytePermits_cases size
    · rw [error]
    rw [ok, shutdown]
    dsimp only
    cases hs : a.elements with
    | some s =>
      rw [askElement_of_closed hs (h.shut.1 s hs)]
      rfl
    | none =>
      obtain ⟨s, hb, closed⟩ := h.exists_bytes bounded hs
      have taken : a.askElement id size = (.taken, a) := by rw [askElement, hs]
      rw [taken]
      change a.takeBytes id size permits = _
      rw [takeBytes_of_closed hb closed, returnElement_of_none hs]

/-! Requests that wait -/

theorem resume_absent (absent : a.request? id = none) : a.resume id = (.waiting, a, []) := by
  rw [resume, absent]

theorem cancel_absent (absent : a.request? id = none) : a.cancel id = (a, []) := by
  rw [cancel, absent]

theorem returnElement_of_nobody (nobody : ∀ s, a.elements = some s → s.queue = []) :
    a.returnElement =
      ({ a with elements := a.elements.map fun s => { s with free := s.free + 1 } }, []) := by
  cases hs : a.elements with
  | none => rw [returnElement_of_none hs, Option.map_none, ← hs]
  | some s =>
    rw [Admission.returnElement, hs]
    dsimp only
    rw [Semaphore.release_of_nobody (nobody s hs)]
    rfl

/-- A request that waits is refused when it looks, and leaves with what it holds. -/
theorem Closed.resume (h : a.Closed c) (hr : r ∈ a.waiting) :
    a.resume r.id = (.refused .engineShutdown, a.dismiss r, []) := by
  have found : a.request? r.id = some r := find?_key h.balanced.nodup_waiting hr
  obtain ⟨s, hs, -⟩ := h.balanced.exists_waiter hr
  have look := Semaphore.look_of_closed (h.shut.semaphore hs) (h.queue hs) r.id
  rw [Admission.resume, found, dismiss]
  dsimp only
  cases hstage : r.stage with
  | element =>
    rw [hstage] at hs
    have he : a.elements = some s := hs
    simp only [lookElement, he, look]
    rfl
  | bytes =>
    rw [hstage] at hs
    have hb : a.bytes = some s := hs
    simp only [Admission.lookBytes, hb, look]
    rw [returnElement_of_nobody (a := { a.settle r.id with bytes := some (s.dismiss r.id) })
      h.queue_elements]
    rfl

/-- A request that waits and is given up leaves just so. -/
theorem Closed.cancel (h : a.Closed c) (hr : r ∈ a.waiting) :
    a.cancel r.id = (a.dismiss r, []) := by
  have found : a.request? r.id = some r := find?_key h.balanced.nodup_waiting hr
  obtain ⟨s, hs, -⟩ := h.balanced.exists_waiter hr
  have leaves := Semaphore.withdraw_of_nobody (h.queue hs) r.id
  rw [Admission.cancel, found, dismiss]
  dsimp only
  cases hstage : r.stage with
  | element =>
    rw [hstage] at hs
    have he : a.elements = some s := hs
    simp only [settle, he, leaves]
    rfl
  | bytes =>
    rw [hstage] at hs
    have hb : a.bytes = some s := hs
    simp only [hb, leaves, show (a.settle r.id).bytes = a.bytes from rfl]
    rw [returnElement_of_nobody (a := { a.settle r.id with bytes := some (s.dismiss r.id) })
      h.queue_elements]
    rfl

theorem dismiss_same (a : Admission) (r : Request) :
    (a.dismiss r).live = a.live ∧ (a.dismiss r).waiting = a.waiting.filter (·.id != r.id) := by
  unfold dismiss
  split <;> exact ⟨rfl, rfl⟩

theorem Closed.dismiss (h : a.Closed c) (hr : r ∈ a.waiting) : (a.dismiss r).Closed c := by
  have leaves := h.cancel hr
  have balanced := h.balanced.cancel r.id
  have shut := h.shut.changed (cancel_changed a r.id)
  rw [leaves] at balanced shut
  exact ⟨balanced, shut⟩

/-- A request has left, and all that it held is free. -/
structure Freed (a : Admission) (r : Request) (b : Admission) : Prop where
  elements : b.elements.map Semaphore.free =
    a.elements.map fun s => s.free + match r.stage with | .element => s.heldBy r.id | .bytes => 1
  bytes : b.bytes.map Semaphore.free =
    a.bytes.map fun s => s.free + match r.stage with | .element => 0 | .bytes => s.heldBy r.id
  nothing : b.Both fun s => s.heldBy r.id = 0

/-- Who does not wait has nothing set aside. -/
theorem Balanced.heldBy_eq_zero {between : List Reservation} {spare : Nat}
    (h : a.Balanced c between spare) (gone : id ∉ a.waiting.map Request.id)
    (hs : a.semaphore? stage = some s) : s.heldBy id = 0 := by
  have nothing : (s.queue ++ s.told).filter (·.id == id) = [] := by
    rw [List.filter_eq_nil_iff]
    intro w hw same
    obtain ⟨q, hq, -, hid, -⟩ := h.exists_request hs hw
    exact gone (List.mem_map.mpr ⟨q, hq, hid.trans (beq_iff_eq.mp same)⟩)
  rw [Semaphore.heldBy, nothing, total_nil]

theorem Closed.freed (h : a.Closed c) (hr : r ∈ a.waiting) : a.Freed r (a.dismiss r) := by
  have gone : r.id ∉ (a.dismiss r).waiting.map Request.id := by
    rw [(dismiss_same a r).2]
    intro there
    obtain ⟨q, hq, same⟩ := List.mem_map.mp there
    simp [same] at hq
  have nothing := (h.dismiss hr).balanced
  refine ⟨?_, ?_, fun s hs => ?_, fun s hs => ?_⟩
  · unfold Admission.dismiss
    cases r.stage <;> exact Option.map_map ..
  · unfold Admission.dismiss
    cases r.stage with
    | element => rfl
    | bytes => exact Option.map_map ..
  · exact nothing.heldBy_eq_zero gone (show (a.dismiss r).semaphore? .element = some s from hs)
  · exact nothing.heldBy_eq_zero gone (show (a.dismiss r).semaphore? .bytes = some s from hs)

/-! Calls -/

theorem Closed.close (h : a.Closed c) : a.close = (a, []) := by
  have elements : a.closeElements = (a, []) := by
    unfold closeElements
    split
    · rfl
    · next s hs => rw [Semaphore.close_of_closed (h.shut.1 s hs) (h.queue_elements s hs), ← hs]
  have bytes : a.closeBytes = (a, []) := by
    unfold closeBytes
    split
    · rfl
    · next s hs => rw [Semaphore.close_of_closed (h.shut.2 s hs) (h.queue_bytes s hs), ← hs]
  rw [Admission.close, elements]
  dsimp only
  rw [bytes]
  rfl

theorem close_closed (h : a.Balanced c [] 0) : a.close.1.Closed c where
  balanced := Moment.Balanced.steps (m := ⟨a, []⟩) h (close_steps a [])
  shut := close_shut a

/-- A call changes nothing, or a request that waits leaves, or a reservation is released. -/
inductive Empties (a : Admission) : Call → Admission → Prop where
  | nothing {call : Call} :
      (∀ r ∈ a.waiting, call ≠ .resume r.id ∧ call ≠ .cancel r.id) →
      (∀ r ∈ a.live.toList, call ≠ .release r.id) → Empties a call a
  | leaves {r : Request} {call : Call} : r ∈ a.waiting →
      call = .resume r.id ∨ call = .cancel r.id → Empties a call (a.dismiss r)
  | released {r : Reservation} : r ∈ a.live.toList →
      Empties a (.release r.id) (a.release r.id).1

theorem not_waiting (absent : a.request? id = none) : ∀ r ∈ a.waiting, r.id ≠ id :=
  fun r hr => by simpa using List.find?_eq_none.mp absent r hr

theorem Closed.empties (h : a.Closed c) (bounded : c.elements.isSome ∨ c.bytes.isSome)
    (call : Call) : a.Empties call (call.apply a) := by
  cases call with
  | tryReserve id size =>
    rw [Call.apply, h.tryReserve bounded]
    exact .nothing (fun _ _ => ⟨nofun, nofun⟩) fun _ _ => nofun
  | reserve id size =>
    rw [Call.apply, h.reserve bounded]
    exact .nothing (fun _ _ => ⟨nofun, nofun⟩) fun _ _ => nofun
  | resume id =>
    cases hreq : a.request? id with
    | none =>
      rw [Call.apply, resume_absent hreq]
      refine .nothing (fun r hr => ⟨?_, nofun⟩) fun _ _ => nofun
      rintro ⟨⟩
      exact not_waiting hreq r hr rfl
    | some r =>
      obtain ⟨hr, rfl⟩ := mem_of_request? hreq
      rw [Call.apply, h.resume hr]
      exact .leaves hr (.inl rfl)
  | cancel id =>
    cases hreq : a.request? id with
    | none =>
      rw [Call.apply, cancel_absent hreq]
      refine .nothing (fun r hr => ⟨nofun, ?_⟩) fun _ _ => nofun
      rintro ⟨⟩
      exact not_waiting hreq r hr rfl
    | some r =>
      obtain ⟨hr, rfl⟩ := mem_of_request? hreq
      rw [Call.apply, h.cancel hr]
      exact .leaves hr (.inr rfl)
  | release id =>
    cases ht : a.live.take? (·.id == id) with
    | none =>
      have same : (a.release id).1 = a := by rw [Admission.release, ht]
      rw [Call.apply, same]
      refine .nothing (fun _ _ => ⟨nofun, nofun⟩) fun r hr => ?_
      rintro ⟨⟩
      simpa using Fifo.not_of_take?_eq_none ht r hr
    | some found =>
      obtain ⟨r, rest⟩ := found
      obtain ⟨same, perm⟩ := Fifo.perm_of_take? ht
      obtain rfl : r.id = id := by simpa using same
      exact .released (perm.symm.subset (List.mem_cons_self ..))
  | close =>
    rw [Call.apply, h.close]
    exact .nothing (fun _ _ => ⟨nofun, nofun⟩) fun _ _ => nofun

theorem release_waiting (a : Admission) (id : Nat) : (a.release id).1.waiting = a.waiting := by
  unfold Admission.release
  split
  · rfl
  · dsimp only
    rw [returnBytes_fst, returnElement_fst]

variable {call : Call} {later : List Call}

theorem Empties.closed (h : a.Closed c) (empties : a.Empties call b) : b.Closed c := by
  cases empties with
  | nothing => exact h
  | leaves hr => exact h.dismiss hr
  | released =>
    exact ⟨h.balanced.release _, h.shut.changed (release_changed a _)⟩

theorem Balanced.nodup_live {between : List Reservation} {spare : Nat}
    (h : a.Balanced c between spare) : (a.live.toList.map Reservation.id).Nodup :=
  (List.nodup_append.mp h.distinct).2.1

/-- Requests leave by going on or by being given up, and in no other way. -/
theorem Empties.mem_waiting (empties : a.Empties call b) :
    r ∈ b.waiting ↔ r ∈ a.waiting ∧ call ≠ .resume r.id ∧ call ≠ .cancel r.id := by
  cases empties with
  | nothing other => exact ⟨fun hr => ⟨hr, other r hr⟩, And.left⟩
  | @leaves q call hq ends =>
    have left : call ≠ .resume r.id ∧ call ≠ .cancel r.id ↔ r.id ≠ q.id := by
      rcases ends with rfl | rfl <;> simp [eq_comm]
    rw [(dismiss_same a q).2, List.mem_filter, bne_iff_ne, left]
  | released =>
    rw [release_waiting]
    exact ⟨fun hr => ⟨hr, nofun, nofun⟩, And.left⟩

/-- Reservations stay live until they are released. -/
theorem Empties.live_perm (h : a.Closed c) (empties : a.Empties call b) :
    b.live.toList.Perm (a.live.toList.filter fun r => call ≠ .release r.id) := by
  have all (other : ∀ r ∈ a.live.toList, call ≠ .release r.id) :
      a.live.toList.filter (fun r => call ≠ .release r.id) = a.live.toList :=
    List.filter_eq_self.mpr fun r hr => decide_eq_true (other r hr)
  cases empties with
  | nothing _ other => rw [all other]
  | leaves _ ends =>
    rw [(dismiss_same a _).1, all fun _ _ => by rcases ends with rfl | rfl <;> nofun]
  | @released r hr =>
    have same : (fun q : Reservation => decide (Call.release r.id ≠ .release q.id)) =
        fun q => q.id != r.id := by
      funext q
      rw [bne, beq_eq_decide, ← decide_not]
      simp [eq_comm]
    rw [same]
    exact release_live h.balanced.nodup_live (perm_cons_filter_key h.balanced.nodup_live hr)

/-! Runs -/

theorem after_cons (a : Admission) (call : Call) (later : List Call) :
    a.after (call :: later) = (call.apply a).after later :=
  rfl

variable (bounded : c.elements.isSome ∨ c.bytes.isSome)
include bounded

theorem Closed.after (h : a.Closed c) (later : List Call) : (a.after later).Closed c := by
  induction later generalizing a with
  | nil => exact h
  | cons call later ih => exact ih ((h.empties bounded call).closed h)

theorem Closed.mem_waiting_after (h : a.Closed c) (later : List Call) :
    r ∈ (a.after later).waiting ↔
      r ∈ a.waiting ∧ .resume r.id ∉ later ∧ .cancel r.id ∉ later := by
  induction later generalizing a with
  | nil => simp [Admission.after]
  | cons call later ih =>
    have empties := h.empties bounded call
    rw [after_cons, ih (empties.closed h), empties.mem_waiting, List.mem_cons, List.mem_cons,
      not_or, not_or, ne_comm, ne_comm (a := call)]
    tauto

theorem Closed.mem_live_after {r : Reservation} (h : a.Closed c) (later : List Call) :
    r ∈ (a.after later).live.toList ↔ r ∈ a.live.toList ∧ .release r.id ∉ later := by
  induction later generalizing a with
  | nil => simp [Admission.after]
  | cons call later ih =>
    have empties := h.empties bounded call
    rw [after_cons, ih (empties.closed h), (empties.live_perm h).mem_iff, List.mem_filter,
      decide_eq_true_eq, List.mem_cons, not_or, and_assoc, ne_comm]

omit bounded

/-! The books -/

theorem ofNat_le_ofNat {m n : Nat} (le : m ≤ n) (fits : n < Nat.pow 2 64) :
    UInt64.ofNat m ≤ UInt64.ofNat n := by
  rw [UInt64.le_iff_toNat_le, UInt64.toNat_ofNat_of_lt' fits,
    UInt64.toNat_ofNat_of_lt' (Nat.lt_of_le_of_lt le fits)]
  exact le

theorem Empties.elements_le (h : a.Closed c) (empties : a.Empties call b)
    (fits : a.live.toList.length < Nat.pow 2 64) : b.ledger.elements ≤ a.ledger.elements := by
  have fewer : b.live.toList.length ≤ a.live.toList.length := by
    rw [(empties.live_perm h).length_eq]
    exact List.length_filter_le ..
  rw [(empties.closed h).balanced.ledger, h.balanced.ledger]
  exact ofNat_le_ofNat fewer fits

theorem Empties.bytes_le (h : a.Closed c) (empties : a.Empties call b)
    (fits : total Reservation.size a.live.toList < Nat.pow 2 64) :
    b.ledger.bytes ≤ a.ledger.bytes := by
  have fewer : total Reservation.size b.live.toList ≤ total Reservation.size a.live.toList := by
    have parts := ((List.filter_append_perm (fun r => call ≠ .release r.id)
      a.live.toList).map Reservation.size).sum_nat
    rw [List.map_append, List.sum_append_nat, ← ((empties.live_perm h).map _).sum_nat] at parts
    exact Nat.le.intro parts
  rw [(empties.closed h).balanced.ledger, h.balanced.ledger]
  exact ofNat_le_ofNat fewer fits

/-- Under a ceiling the live reservations fit. -/
theorem Balanced.elements_fit (h : a.Balanced c [] 0) (valid : c.validate = .ok ())
    (unbounded : c.elements = none → a.live.toList.length < Nat.pow 2 64) :
    a.live.toList.length < Nat.pow 2 64 := by
  cases hc : c.elements with
  | none => exact unbounded hc
  | some limit =>
    obtain ⟨s, -, backs⟩ := Backed.exists_semaphore (hc ▸ h.elements)
    have most := (((Ceilings.validate_eq_ok_iff c).mp valid).1 limit hc).2
    have conserved := backs.conserved
    exact Nat.lt_of_le_of_lt (by omega) (by decide : maxPermits < Nat.pow 2 64)

theorem Balanced.bytes_fit (h : a.Balanced c [] 0) (valid : c.validate = .ok ())
    (unbounded : c.bytes = none → total Reservation.size a.live.toList < Nat.pow 2 64) :
    total Reservation.size a.live.toList < Nat.pow 2 64 := by
  cases hc : c.bytes with
  | none => exact unbounded hc
  | some limit =>
    obtain ⟨s, -, backs⟩ := Backed.exists_semaphore (hc ▸ h.bytes)
    have most := (((Ceilings.validate_eq_ok_iff c).mp valid).2 limit hc).2
    have conserved := backs.conserved
    exact Nat.lt_of_le_of_lt (by omega) (by decide : maxPermits < Nat.pow 2 64)

/-- While nobody waits, all permits but those of live reservations are free. -/
theorem Balanced.free_elements (h : a.Balanced c [] 0) (nobody : a.waiting = [])
    {limit : Nat} (hc : c.elements = some limit) :
    ∃ s, a.elements = some s ∧ s.free + a.live.toList.length = limit := by
  obtain ⟨s, hs, backs⟩ := Backed.exists_semaphore (hc ▸ h.elements)
  rw [nobody] at backs
  have idle := backs.idle
  rw [List.length_nil, Nat.zero_add, Request.callsAt_nil, List.length_nil, Nat.zero_add] at idle
  exact ⟨s, hs, idle⟩

theorem Balanced.free_bytes (h : a.Balanced c [] 0) (nobody : a.waiting = [])
    {limit : Nat} (hc : c.bytes = some limit) :
    ∃ s, a.bytes = some s ∧ s.free + total Reservation.size a.live.toList = limit := by
  obtain ⟨s, hs, backs⟩ := Backed.exists_semaphore (hc ▸ h.bytes)
  rw [nobody] at backs
  exact ⟨s, hs, backs.idle⟩

/-- Admission at the closing of its ceilings, and after some calls that came later. -/
structure ClosedDown (c : Ceilings) (a : Admission) (later : List Call) (b : Admission) :
    Prop where
  /-- Everybody who waits at the closing was told to go on, or is told by the closing. -/
  told : ∀ r ∈ a.waiting, r.id ∈ a.told ++ a.close.2
  /-- Who waits goes on waiting until it looks or is given up, and nobody else ever waits. -/
  waiting : ∀ r, r ∈ b.waiting ↔ r ∈ a.waiting ∧ .resume r.id ∉ later ∧ .cancel r.id ∉ later
  /-- Who looks is refused, and all that it held of its element and of its bytes is free. -/
  refused : ∀ r ∈ b.waiting,
    ∃ after, b.resume r.id = (.refused .engineShutdown, after, []) ∧ b.Freed r after
  /-- When nobody waits any more only live reservations have permits. -/
  elements : b.waiting = [] → ∀ limit, c.elements = some limit →
    ∃ s, b.elements = some s ∧ s.free + b.live.toList.length = limit
  bytes : b.waiting = [] → ∀ limit, c.bytes = some limit →
    ∃ s, b.bytes = some s ∧ s.free + total Reservation.size b.live.toList = limit
  /-- Every new request is refused, whatever its size, and changes nothing. -/
  reserve : ∀ id size, b.reserve id size = (.refused (c.closedError size), b, [])
  tryReserve : ∀ id size, b.tryReserve id size = (.refused (c.closedError size), b, [])
  /-- What was live at the closing is live until it is released, and nothing else ever is. -/
  live : ∀ r, r ∈ b.live.toList ↔ r ∈ a.live.toList ∧ .release r.id ∉ later
  ledger : b.ledger = .ofLive b.live.toList
  /-- No call increases the ledger, where the live reservations can be counted in 64 bits. -/
  fewerElements : (c.elements = none → b.live.toList.length < Nat.pow 2 64) →
    ∀ call : Call, (call.apply b).ledger.elements ≤ b.ledger.elements
  fewerBytes : (c.bytes = none → total Reservation.size b.live.toList < Nat.pow 2 64) →
    ∀ call : Call, (call.apply b).ledger.bytes ≤ b.ledger.bytes
  empty : (∀ r ∈ a.live.toList, .release r.id ∈ later) → b.ledger = ⟨0, 0⟩

/-- Ceilings are closed once and for all, after any history and before any other calls, at a time
when no request is in the middle of a turn, between its element and its bytes. -/
theorem closing_is_final (valid : c.validate = .ok ())
    (bounded : c.elements.isSome ∨ c.bytes.isSome)
    (history : Moment.Steps ⟨ofCeilings c, []⟩ ⟨a, []⟩) (later : List Call) :
    ClosedDown c a later (a.close.1.after later) := by
  have before : a.Balanced c [] 0 :=
    Moment.Balanced.steps (m := ⟨ofCeilings c, []⟩) (ofCeilings_balanced c) history
  have closed := close_closed before
  have h := closed.after bounded later
  have same : a.close.1.waiting = a.waiting ∧ a.close.1.live = a.live := by
    rw [close, closeBytes_fst, closeElements_fst]
    exact ⟨rfl, rfl⟩
  have stays (r : Reservation) : r ∈ (a.close.1.after later).live.toList ↔
      r ∈ a.live.toList ∧ .release r.id ∉ later := by
    rw [closed.mem_live_after bounded, same.2]
  constructor
  case told =>
    intro r hr
    exact close_told a (closed.balanced.all_told (close_tight a) closed.shut (same.1 ▸ hr))
  case waiting =>
    intro r
    rw [closed.mem_waiting_after bounded, same.1]
  case refused => exact fun r hr => ⟨_, h.resume hr, h.freed hr⟩
  case elements => exact fun nobody limit hc => h.balanced.free_elements nobody hc
  case bytes => exact fun nobody limit hc => h.balanced.free_bytes nobody hc
  case reserve => exact h.reserve bounded
  case tryReserve => exact h.tryReserve bounded
  case live => exact stays
  case ledger => exact h.balanced.ledger
  case fewerElements =>
    exact fun fits call =>
      (h.empties bounded call).elements_le h (h.balanced.elements_fit valid fits)
  case fewerBytes =>
    exact fun fits call => (h.empties bounded call).bytes_le h (h.balanced.bytes_fit valid fits)
  case empty =>
    intro all
    have none : (a.close.1.after later).live.toList = [] := by
      refine List.eq_nil_iff_forall_not_mem.mpr fun r hr => ?_
      obtain ⟨there, kept⟩ := (stays r).mp hr
      exact kept (all r there)
    rw [h.balanced.ledger, none]
    rfl

/-- Two elements and eight bytes: at the closing one reservation of five bytes is live, a request
for six bytes holds its element and three of them, and another one waits for its element. -/
theorem closing_is_final_two_waiting :
    ∃ a : Admission, Moment.Steps ⟨ofCeilings ⟨some 2, some 8, .block⟩, []⟩ ⟨a, []⟩ ∧
      a.waiting = [⟨1, 6, .bytes⟩, ⟨2, 1, .element⟩] ∧ a.live.toList = [⟨0, 5⟩] ∧
      ClosedDown ⟨some 2, some 8, .block⟩ a [] a.close.1 ∧
      (a.close.1.after [.resume 2, .release 0]).ledger = ⟨0, 0⟩ := by
  have valid : (Ceilings.mk (some 2) (some 8) .block).validate = .ok () := by decide
  have asked : Moment.Steps ⟨ofCeilings ⟨some 2, some 8, .block⟩, []⟩ _ :=
    .single (.ask 0 5 5 (by decide) rfl)
  have granted := asked.tail (.takeBytes ⟨0, 5⟩ 5 (by decide) fun _ => rfl)
  have askedAgain := granted.tail (.ask 1 6 6 (by decide) rfl)
  have waits := askedAgain.tail (.takeBytes ⟨1, 6⟩ 6 (by decide) fun _ => rfl)
  have waitsToo := waits.tail (.ask 2 1 1 (by decide) rfl)
  have released := closing_is_final valid (.inl rfl) waitsToo [.resume 2, .release 0]
  refine ⟨_, waitsToo, rfl, rfl, closing_is_final valid (.inl rfl) waitsToo [], ?_⟩
  refine released.empty fun r hr => ?_
  obtain rfl := List.mem_singleton.mp hr
  decide

end Admission
end TopicPublisher
