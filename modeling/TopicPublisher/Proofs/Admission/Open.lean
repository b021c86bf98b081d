import TopicPublisher.Proofs.Admission.Doors

/-!
Requests at open ceilings. A new request is refused, or waits for its element because none is
free, or has its element and comes to its bytes; there it is granted if they are free, and waits
if they are not. A request that was told to go on is granted, or comes from its element to its
bytes. Neither tells anybody else to go on.
-/

namespace TopicPublisher
namespace Semaphore

variable {s : Semaphore} {id permits : Nat}

def take (s : Semaphore) (permits : Nat) : Semaphore := { s with free := s.free - permits }

/-- A waiter joins the queue; what is free is set aside for it. -/
def join (s : Semaphore) (id permits : Nat) : Semaphore :=
  { s with free := 0, queue := s.queue ++ [⟨id, permits, s.free⟩] }

/-- A waiter that was told leaves with its permits. -/
def claim (s : Semaphore) (id : Nat) : Semaphore :=
  { s with told := s.told.filter (·.id != id) }

theorem tryAcquire_of_open (opened : s.closed = false) (permits : Nat) :
    s.tryAcquire permits =
      if s.free < permits then .error .noPermits else .ok (s.take permits) := by
  rw [tryAcquire, if_neg (by simp [opened])]
  rfl

theorem acquire_of_open (opened : s.closed = false) (id permits : Nat) :
    s.acquire id permits =
      if permits ≤ s.free then (.taken, s.take permits) else (.queued, s.join id permits) := by
  rw [acquire, if_neg (by simp [opened])]
  rfl

theorem look_of_open (opened : s.closed = false) (id : Nat) :
    s.look id = if id ∈ s.told.map Waiter.id then (.taken, s.claim id) else (.queued, s) := by
  rw [look, if_neg (by simp [opened])]
  simp only [List.any_eq_true, beq_iff_eq, List.mem_map]
  rfl

/-- There are enough free permits, or a semaphore that has too few of them. -/
theorem enough_or_short (o : Option Semaphore) (permits : Nat) :
    (∀ s, o = some s → permits ≤ s.free) ∨ ∃ s, o = some s ∧ s.free < permits := by
  cases o with
  | none => exact .inl nofun
  | some s =>
    by_cases enough : permits ≤ s.free
    · exact .inl fun t ht => Option.some.inj ht ▸ enough
    · exact .inr ⟨s, rfl, Nat.lt_of_not_le enough⟩

/-- Where permits are free nobody is in the queue. -/
theorem Tight.queue_eq_nil (tight : s.Tight) (free : 0 < s.free) : s.queue = [] := by
  by_contra some
  exact Nat.ne_of_gt free (tight.used some)

/-- Permits that were free, and that nobody waited for, are taken and given back. -/
theorem Tight.release_take (tight : s.Tight) (positive : 0 < permits)
    (enough : permits ≤ s.free) : (s.take permits).release permits = (s, []) := by
  have nobody : s.queue = [] := tight.queue_eq_nil (Nat.lt_of_lt_of_le positive enough)
  obtain ⟨free, queue, told, closed⟩ := s
  obtain rfl : queue = [] := nobody
  simp only [take, release, distribute, List.append_nil, Nat.sub_add_cancel enough]
  rfl

end Semaphore

namespace Admission

variable {c : Ceilings} {a b : Admission} {r : Request} {s : Semaphore} {decision : Decision}
  {between : List Reservation} {id size permits : Nat}

def elementTaken (a : Admission) : Admission := { a with elements := a.elements.map (·.take 1) }

def bytesTaken (a : Admission) (size : Nat) : Admission :=
  { a with bytes := a.bytes.map (·.take size) }

/-- What becomes of a request that has its element: its bytes are free and it is granted, or it
joins the queue for them. -/
inductive TakesBytes (a : Admission) (id size : Nat) : Decision → Admission → Prop where
  | granted : (∀ s, a.bytes = some s → size ≤ s.free) →
      TakesBytes a id size .granted ((a.bytesTaken size).grant id size)
  | waiting {s : Semaphore} : a.bytes = some s → s.free < size →
      TakesBytes a id size .waiting
        { a with bytes := some (s.join id size), waiting := a.waiting ++ [⟨id, size, .bytes⟩] }

/-- What becomes of a new request. One that is refused has changed nothing. -/
inductive Enters (a : Admission) (id size : Nat) : Decision → Admission → Prop where
  | refused (error : PublishError) : Enters a id size (.refused error) a
  | waiting {s : Semaphore} : a.elements = some s → s.free < 1 →
      Enters a id size .waiting
        { a with elements := some (s.join id 1), waiting := a.waiting ++ [⟨id, size, .element⟩] }
  | passing {decision : Decision} {b : Admission} :
      (∀ s, a.elements = some s → 1 ≤ s.free) →
      TakesBytes a.elementTaken id size decision b → Enters a id size decision b

/-- What becomes of a request that goes on. One that was not told goes on waiting. -/
inductive Resumes (a : Admission) (id : Nat) : Decision → Admission → Prop where
  | waiting : Resumes a id .waiting a
  | granted {r : Request} {s : Semaphore} : r ∈ a.waiting → r.id = id → r.stage = .bytes →
      a.bytes = some s → id ∈ s.told.map Waiter.id →
      Resumes a id .granted ({ a.settle id with bytes := some (s.claim id) }.grant id r.size)
  | passing {r : Request} {s : Semaphore} {decision : Decision} {b : Admission} :
      r ∈ a.waiting → r.id = id → r.stage = .element → a.elements = some s →
      id ∈ s.told.map Waiter.id →
      TakesBytes { a.settle id with elements := some (s.claim id) } id r.size decision b →
      Resumes a id decision b

/-! Elements and bytes that are free or not -/

theorem elementTaken_of_none (hs : a.elements = none) : a.elementTaken = a := by
  rw [elementTaken, hs, Option.map_none, ← hs]

theorem bytesTaken_of_none (hs : a.bytes = none) (size : Nat) : a.bytesTaken size = a := by
  rw [bytesTaken, hs, Option.map_none, ← hs]

theorem tryElement_of_free (opened : a.Shut false) (free : ∀ s, a.elements = some s → 1 ≤ s.free) :
    a.tryElement = .ok a.elementTaken := by
  cases hs : a.elements with
  | none => rw [elementTaken_of_none hs, tryElement, hs]
  | some s =>
    rw [tryElement, hs, elementTaken, hs]
    dsimp only
    rw [Semaphore.tryAcquire_of_open (opened.1 s hs), if_neg (Nat.not_lt.mpr (free s hs))]
    rfl

theorem tryElement_of_full (opened : a.Shut false) (hs : a.elements = some s) (full : s.free < 1) :
    a.tryElement = .error .noPermits := by
  rw [tryElement, hs]
  dsimp only
  rw [Semaphore.tryAcquire_of_open (opened.1 s hs), if_pos full]
  rfl

theorem askElement_of_free (opened : a.Shut false) (free : ∀ s, a.elements = some s → 1 ≤ s.free)
    (id size : Nat) : a.askElement id size = (.taken, a.elementTaken) := by
  cases hs : a.elements with
  | none => rw [elementTaken_of_none hs, askElement, hs]
  | some s =>
    rw [askElement, hs, elementTaken, hs]
    dsimp only
    rw [Semaphore.acquire_of_open (opened.1 s hs), if_pos (free s hs)]
    rfl

theorem askElement_of_full (opened : a.Shut false) (hs : a.elements = some s) (full : s.free < 1)
    (id size : Nat) :
    a.askElement id size =
      (.queued, { a with
        elements := some (s.join id 1), waiting := a.waiting ++ [⟨id, size, .element⟩] }) := by
  rw [askElement, hs]
  dsimp only
  rw [Semaphore.acquire_of_open (opened.1 s hs), if_neg (Nat.not_le.mpr full)]

theorem takeBytes_of_room (opened : a.Shut false) (fits : a.Fits size permits)
    (room : ∀ s, a.bytes = some s → size ≤ s.free) (id : Nat) :
    a.takeBytes id size permits = (.granted, (a.bytesTaken size).grant id size, []) := by
  cases hs : a.bytes with
  | none => rw [bytesTaken_of_none hs, takeBytes, hs]
  | some s =>
    obtain rfl : permits = size := fits (by rw [hs]; rfl)
    rw [takeBytes, hs, bytesTaken, hs]
    dsimp only
    rw [Semaphore.acquire_of_open (opened.2 s hs), if_pos (room s hs)]
    rfl

theorem takeBytes_of_short (opened : a.Shut false) (fits : a.Fits size permits)
    (hs : a.bytes = some s) (short : s.free < size) (id : Nat) :
    a.takeBytes id size permits =
      (.waiting, { a with
        bytes := some (s.join id size), waiting := a.waiting ++ [⟨id, size, .bytes⟩] }, []) := by
  obtain rfl : permits = size := fits (by rw [hs]; rfl)
  rw [takeBytes, hs]
  dsimp only
  rw [Semaphore.acquire_of_open (opened.2 s hs), if_neg (Nat.not_le.mpr short)]

theorem tryBytes_of_room (opened : a.Shut false) (fits : a.Fits size permits)
    (room : ∀ s, a.bytes = some s → size ≤ s.free) (id : Nat) :
    a.tryBytes id size permits = (.granted, (a.bytesTaken size).grant id size, []) := by
  cases hs : a.bytes with
  | none => rw [bytesTaken_of_none hs, tryBytes, hs]
  | some s =>
    obtain rfl : permits = size := fits (by rw [hs]; rfl)
    rw [tryBytes, hs, bytesTaken, hs]
    dsimp only
    rw [Semaphore.tryAcquire_of_open (opened.2 s hs), if_neg (Nat.not_lt.mpr (room s hs))]
    rfl

theorem tryBytes_of_short (opened : a.Shut false) (fits : a.Fits size permits)
    (hs : a.bytes = some s) (short : s.free < size) (id : Nat) :
    a.tryBytes id size permits =
      (.refused (.admissionRejected .requestBytes), a.returnElement) := by
  obtain rfl : permits = size := fits (by rw [hs]; rfl)
  rw [tryBytes, hs]
  dsimp only
  rw [Semaphore.tryAcquire_of_open (opened.2 s hs), if_pos short]
  rfl

/-- An element that was free, and that nobody waited for, is taken and given back. -/
theorem returnElement_elementTaken (tight : a.Tight)
    (free : ∀ s, a.elements = some s → 1 ≤ s.free) : a.elementTaken.returnElement = (a, []) := by
  cases hs : a.elements with
  | none => rw [elementTaken_of_none hs, returnElement, hs]
  | some s =>
    rw [elementTaken, hs, Option.map_some, returnElement]
    dsimp only
    rw [(tight.1 s hs).release_take Nat.zero_lt_one (free s hs), ← hs]

theorem elementTaken_changed (free : ∀ s, a.elements = some s → 1 ≤ s.free) :
    Changed [] a a.elementTaken := by
  refine ⟨?_, .refl⟩
  unfold elementTaken
  cases hs : a.elements with
  | none => exact .refl
  | some s => exact .single (.take 1 (free s hs))

/-! Calls -/

theorem takeBytes_takes (opened : a.Shut false) (fits : a.Fits size permits) (id : Nat) :
    ∃ decision b, a.takeBytes id size permits = (decision, b, []) ∧
      a.TakesBytes id size decision b := by
  rcases Semaphore.enough_or_short a.bytes size with room | ⟨s, hs, short⟩
  · exact ⟨_, _, takeBytes_of_room opened fits room id, .granted room⟩
  · exact ⟨_, _, takeBytes_of_short opened fits hs short id, .waiting hs short⟩

theorem tryReserve_enters (h : a.Balanced c between 0) (tight : a.Tight) (opened : a.Shut false)
    (id size : Nat) :
    ∃ decision b, a.tryReserve id size = (decision, b, []) ∧ a.Enters id size decision b := by
  unfold tryReserve
  cases ok : a.ceilings.bytePermits size with
  | error e => exact ⟨_, _, rfl, .refused e⟩
  | ok permits =>
    dsimp only
    rcases Semaphore.enough_or_short a.elements 1 with free | ⟨s, hs, full⟩
    · have after : a.elementTaken.Shut false := opened.changed (elementTaken_changed free)
      have fits : a.elementTaken.Fits size permits := h.fits (h.ceilings ▸ ok)
      rw [tryElement_of_free opened free]
      dsimp only
      rcases Semaphore.enough_or_short a.elementTaken.bytes size with room | ⟨s, hs, short⟩
      · exact ⟨_, _, tryBytes_of_room after fits room id, .passing free (.granted room)⟩
      · rw [tryBytes_of_short after fits hs short id, returnElement_elementTaken tight free]
        exact ⟨_, _, rfl, .refused _⟩
    · rw [tryElement_of_full opened hs full]
      exact ⟨_, _, rfl, .refused _⟩

theorem reserve_enters (h : a.Balanced c between 0) (tight : a.Tight) (opened : a.Shut false)
    (id size : Nat) :
    ∃ decision b, a.reserve id size = (decision, b, []) ∧ a.Enters id size decision b := by
  unfold reserve
  cases ok : a.ceilings.bytePermits size with
  | error e => exact ⟨_, _, rfl, .refused e⟩
  | ok permits =>
    dsimp only
    cases a.ceilings.behavior with
    | failFast => exact tryReserve_enters h tight opened id size
    | block =>
      dsimp only
      rcases Semaphore.enough_or_short a.elements 1 with free | ⟨s, hs, full⟩
      · have after : a.elementTaken.Shut false := opened.changed (elementTaken_changed free)
        have fits : a.elementTaken.Fits size permits := h.fits (h.ceilings ▸ ok)
        obtain ⟨decision, b, done, takes⟩ := takeBytes_takes after fits id
        rw [askElement_of_free opened free]
        exact ⟨decision, b, done, .passing free takes⟩
      · rw [askElement_of_full opened hs full]
        exact ⟨_, _, rfl, .waiting hs full⟩

theorem lookElement_of_open (opened : a.Shut false) (hs : a.elements = some s) (id : Nat) :
    a.lookElement id =
      if id ∈ s.told.map Waiter.id then
        (.taken, { a.settle id with elements := some (s.claim id) })
      else (.queued, a) := by
  rw [lookElement, hs]
  dsimp only
  rw [Semaphore.look_of_open (opened.1 s hs)]
  by_cases told : id ∈ s.told.map Waiter.id
  · rw [if_pos told, if_pos told]
  · rw [if_neg told, if_neg told]

theorem lookBytes_of_open (opened : a.Shut false) (hs : a.bytes = some s) (id size : Nat) :
    a.lookBytes id size =
      if id ∈ s.told.map Waiter.id then
        (.granted, { a.settle id with bytes := some (s.claim id) }.grant id size, [])
      else (.waiting, a, []) := by
  rw [lookBytes, hs]
  dsimp only
  rw [Semaphore.look_of_open (opened.2 s hs)]
  by_cases told : id ∈ s.told.map Waiter.id
  · rw [if_pos told, if_pos told]
  · rw [if_neg told, if_neg told]

theorem resume_resumes (h : a.Balanced c between 0) (opened : a.Shut false) (id : Nat) :
    ∃ decision b, a.resume id = (decision, b, []) ∧ a.Resumes id decision b := by
  unfold resume
  cases hreq : a.request? id with
  | none => exact ⟨_, _, rfl, .waiting⟩
  | some r =>
    obtain ⟨hr, hid⟩ := mem_of_request? hreq
    obtain ⟨s, hs, -⟩ := h.exists_waiter hr
    dsimp only
    cases hstage : r.stage with
    | element =>
      rw [hstage] at hs
      dsimp only
      rw [lookElement_of_open opened hs]
      by_cases told : id ∈ s.told.map Waiter.id
      · have fits : Fits { a.settle id with elements := some (s.claim id) } r.size
            (a.permitsFor r.size) := fun bounded => if_pos bounded
        have after : Shut false { a.settle id with elements := some (s.claim id) } :=
          ⟨fun t ht => Option.some.inj ht ▸ opened.1 s hs, opened.2⟩
        obtain ⟨decision, b, done, takes⟩ := takeBytes_takes after fits id
        rw [if_pos told]
        exact ⟨decision, b, done, .passing hr hid hstage hs told takes⟩
      · rw [if_neg told]
        exact ⟨_, _, rfl, .waiting⟩
    | bytes =>
      rw [hstage] at hs
      dsimp only
      rw [lookBytes_of_open opened hs]
      by_cases told : id ∈ s.told.map Waiter.id
      · rw [if_pos told]
        exact ⟨_, _, rfl, .granted hr hid hstage hs told⟩
      · rw [if_neg told]
        exact ⟨_, _, rfl, .waiting⟩

end Admission
end TopicPublisher
