import TopicPublisher.Proofs.Admission.Room

/-!
Open and closed ceilings. The calls of admission leave the ceilings open or closed as they are. At
open ceilings a request is refused only for want of room. When the ceilings are closed, everybody
who waits is told, and is refused.
-/

namespace TopicPublisher
namespace Admission

variable {c : Ceilings} {a b : Admission} {between : List Reservation} {r : Request}
  {s : Semaphore} {stage : Stage} {spare id size permits : Nat}

/-- For each ceiling, whether it is closed. -/
def doors (a : Admission) : Option Bool × Option Bool :=
  (a.elements.map (·.closed), a.bytes.map (·.closed))

/-- All ceilings are closed, or all are open. -/
abbrev Shut (closed : Bool) : Admission → Prop := Both (·.closed = closed)

theorem changes_closed {told : List Nat} {o o' : Option Semaphore}
    (h : Semaphore.Changes told o o') : o'.map (·.closed) = o.map (·.closed) := by
  induction h with
  | refl => rfl
  | tail _ change _ ih => rw [← ih, Option.map_some, Option.map_some, change.closed]

theorem Changed.doors {told : List Nat} (h : Changed told a b) : b.doors = a.doors :=
  Prod.ext (changes_closed h.elements) (changes_closed h.bytes)

theorem Shut.of_doors {closed : Bool} (h : a.Shut closed) (same : b.doors = a.doors) :
    b.Shut closed := by
  have kept {o o' : Option Semaphore} (same : o'.map (·.closed) = o.map (·.closed))
      (h : ∀ s, o = some s → s.closed = closed) : ∀ t, o' = some t → t.closed = closed := by
    rintro t rfl
    obtain ⟨s, hs, closes⟩ := Option.map_eq_some_iff.mp same.symm
    exact closes.symm.trans (h s hs)
  exact ⟨kept (congrArg Prod.fst same) h.1, kept (congrArg Prod.snd same) h.2⟩

theorem Shut.changed {closed : Bool} {told : List Nat} (h : a.Shut closed)
    (changed : Changed told a b) : b.Shut closed :=
  h.of_doors changed.doors

/-- What is true of a new semaphore is true of both of a new admission. -/
theorem ofCeilings_both {motive : Semaphore → Prop} (fresh : ∀ limit, motive { free := limit })
    (c : Ceilings) : (ofCeilings c).Both motive := by
  constructor
  · intro s hs
    obtain ⟨limit, -, rfl⟩ := Option.map_eq_some_iff.mp hs
    exact fresh limit
  · intro s hs
    obtain ⟨limit, -, rfl⟩ := Option.map_eq_some_iff.mp hs
    exact fresh limit

theorem ofCeilings_shut (c : Ceilings) : (ofCeilings c).Shut false :=
  ofCeilings_both (fun _ => rfl) c

theorem ofCeilings_tight (c : Ceilings) : (ofCeilings c).Tight :=
  ofCeilings_both (fun _ => ⟨fun some => absurd rfl some, nofun, nofun, nofun⟩) c

/-- What is true of a semaphore that was just closed is true of both after a closing. -/
theorem close_both {motive : Semaphore → Prop} (closed : ∀ s : Semaphore, motive s.close.1)
    (a : Admission) : a.close.1.Both motive := by
  rw [close, closeBytes_fst, closeElements_fst]
  constructor
  · intro t ht
    obtain ⟨s, -, rfl⟩ := Option.map_eq_some_iff.mp ht
    exact closed s
  · intro t ht
    obtain ⟨s, -, rfl⟩ := Option.map_eq_some_iff.mp ht
    exact closed s

theorem close_tight (a : Admission) : a.close.1.Tight := close_both Semaphore.close_tight a

theorem close_shut (a : Admission) : a.close.1.Shut true := close_both (fun _ => rfl) a

/-! Closed ceilings -/

theorem closeElements_told (a : Admission) :
    a.closeElements.1.told ⊆ a.told ++ a.closeElements.2 := by
  unfold closeElements
  split
  · exact List.subset_append_left _ _
  next s hs =>
  intro id hid
  simp only [told, hs, Option.elim_some, Semaphore.close, List.map_append, List.mem_append]
    at hid ⊢
  exact or_right_comm.mp hid

theorem closeBytes_told (a : Admission) : a.closeBytes.1.told ⊆ a.told ++ a.closeBytes.2 := by
  unfold closeBytes
  split
  · exact List.subset_append_left _ _
  next s hs =>
  intro id hid
  simp only [told, hs, Option.elim_some, Semaphore.close, List.map_append, List.mem_append]
    at hid ⊢
  exact or_assoc.mpr hid

theorem close_told (a : Admission) : a.close.1.told ⊆ a.told ++ a.close.2 := by
  intro id hid
  have more : id ∈ a.closeElements.1.told ++ a.closeElements.1.closeBytes.2 :=
    closeBytes_told a.closeElements.1 hid
  change id ∈ a.told ++ (a.closeElements.2 ++ a.closeElements.1.closeBytes.2)
  rw [← List.append_assoc]
  rcases List.mem_append.mp more with first | second
  · exact List.mem_append_left _ (closeElements_told a first)
  · exact List.mem_append_right _ second

/-- On closed ceilings everybody who waits is told. -/
theorem Balanced.all_told (h : a.Balanced c between spare) (tight : a.Tight)
    (shut : a.Shut true) (hr : r ∈ a.waiting) : r.id ∈ a.told := by
  obtain ⟨s, hs, w, hw, same, -⟩ := h.exists_waiter hr
  rw [(tight.semaphore hs).shut (shut.semaphore hs), List.nil_append] at hw
  exact mem_told_of_semaphore hs (same ▸ List.mem_map_of_mem hw)

theorem look_closed (closed : s.closed = true) (id : Nat) : (s.look id).1 = .refused := by
  rw [Semaphore.look, if_pos closed]

/-- A request that waits at a closed ceiling is refused when it looks. -/
theorem Balanced.resume_refused (h : a.Balanced c between spare) (shut : a.Shut true)
    (hr : r ∈ a.waiting) : (a.resume r.id).1 = .refused .engineShutdown := by
  have found : a.request? r.id = some r := find?_key h.nodup_waiting hr
  obtain ⟨s, hs, -⟩ := h.exists_waiter hr
  have closed := look_closed (shut.semaphore hs) r.id
  unfold resume
  rw [found]
  dsimp only
  cases hstage : r.stage with
  | element =>
    rw [hstage] at hs
    have he : a.elements = some s := hs
    simp only [lookElement, he]
    cases hl : s.look r.id with
    | mk answer t =>
      obtain rfl : answer = .refused := by rwa [hl] at closed
      rfl
  | bytes =>
    rw [hstage] at hs
    have hb : a.bytes = some s := hs
    simp only [Admission.lookBytes, hb]
    cases hl : s.look r.id with
    | mk answer t =>
      obtain rfl : answer = .refused := by rwa [hl] at closed
      rfl

/-! Open ceilings -/

theorem acquire_open (opened : s.closed = false) (id permits : Nat) :
    (s.acquire id permits).1 ≠ .refused := by
  unfold Semaphore.acquire
  rw [if_neg (by simp [opened])]
  split <;> exact nofun

theorem look_open (opened : s.closed = false) (id : Nat) : (s.look id).1 ≠ .refused := by
  unfold Semaphore.look
  rw [if_neg (by simp [opened])]
  split <;> exact nofun

theorem takeBytes_open {error : PublishError} (opened : a.Shut false) :
    (a.takeBytes id size permits).1 ≠ .refused error := by
  unfold takeBytes
  split
  · exact nofun
  next s hs =>
  split
  · exact nofun
  · exact nofun
  · next ht => exact absurd (congrArg Prod.fst ht) (acquire_open (opened.2 s hs) id permits)

theorem askElement_open (opened : a.Shut false) (id size : Nat) :
    (a.askElement id size).1 ≠ .refused := by
  unfold askElement
  split
  · exact nofun
  next s hs =>
  have answered := acquire_open (opened.1 s hs) id 1
  split
  · exact nofun
  · next answer t _ ht =>
    rw [ht] at answered
    exact answered

theorem bytePermits_error {error : PublishError} (h : c.bytePermits size = .error error) :
    ∃ limit, error = .admissionRejected limit := by
  unfold Ceilings.bytePermits at h
  split at h
  · cases h
  · split at h
    · cases h
      exact ⟨_, rfl⟩
    · cases h

theorem tryAcquire_open {shortage : Shortage} (opened : s.closed = false)
    (short : s.tryAcquire permits = .error shortage) : shortage = .noPermits := by
  unfold Semaphore.tryAcquire at short
  rw [if_neg (by simp [opened])] at short
  split at short
  · cases short
    rfl
  · cases short

theorem tryElement_open {shortage : Shortage} (opened : a.Shut false)
    (short : a.tryElement = .error shortage) : shortage = .noPermits := by
  unfold tryElement at short
  split at short
  · cases short
  next s hs =>
  cases ht : s.tryAcquire 1 with
  | ok t =>
    rw [ht] at short
    cases short
  | error e =>
    rw [ht] at short
    cases short
    exact tryAcquire_open (opened.1 s hs) ht

theorem tryReserve_open {error : PublishError} (opened : a.Shut false)
    (refused : (a.tryReserve id size).1 = .refused error) :
    ∃ limit, error = .admissionRejected limit := by
  unfold tryReserve at refused
  split at refused
  · next ok =>
    cases refused
    exact bytePermits_error ok
  split at refused
  · next shortage ht =>
    cases refused
    obtain rfl := tryElement_open opened ht
    exact ⟨_, rfl⟩
  · next b hb =>
    have after := opened.changed (tryElement_changed hb)
    unfold tryBytes at refused
    split at refused
    · cases refused
    next s hs =>
    split at refused
    · cases refused
    · next shortage ht =>
      cases refused
      obtain rfl := tryAcquire_open (after.2 s hs) ht
      exact ⟨_, rfl⟩

/-- A request at open ceilings is refused only because a ceiling leaves no room for it. -/
theorem reserve_open {error : PublishError} (opened : a.Shut false)
    (refused : (a.reserve id size).1 = .refused error) :
    ∃ limit, error = .admissionRejected limit := by
  unfold reserve at refused
  split at refused
  · next ok =>
    cases refused
    exact bytePermits_error ok
  next permits _ =>
  split at refused
  · exact tryReserve_open opened refused
  · cases ha : a.askElement id size with
    | mk answer b =>
      have answered := askElement_open opened id size
      have after := opened.changed (askElement_changed a id size)
      rw [ha] at answered after refused
      cases answer with
      | taken => exact absurd refused (takeBytes_open after)
      | queued => cases refused
      | refused => exact absurd rfl answered

/-- A request that waits at an open ceiling is never refused. -/
theorem resume_open {error : PublishError} (tight : a.Tight) (opened : a.Shut false) (id : Nat) :
    (a.resume id).1 ≠ .refused error := by
  unfold resume
  split
  · exact nofun
  next r _ =>
  split
  · have after := opened.changed (lookElement_changed tight id)
    cases hl : a.lookElement id with
    | mk answer b =>
      rw [hl] at after
      cases answer with
      | taken => exact takeBytes_open after
      | queued => exact nofun
      | refused =>
        unfold lookElement at hl
        split at hl
        · cases hl
        next s hs =>
        have answered := look_open (opened.1 s hs) id
        split at hl
        · cases hl
        · next answer t _ ht =>
          rw [ht] at answered
          cases hl
          exact absurd rfl answered
  · unfold lookBytes
    split
    · exact nofun
    next s hs =>
    split
    · exact nofun
    · exact nofun
    · next ht => exact absurd (congrArg Prod.fst ht) (look_open (opened.2 s hs) id)

end Admission
end TopicPublisher
