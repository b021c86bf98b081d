import TopicPublisher.Proofs.Admission.Conservation

/-!
What the calls of admission do with the requests that wait and with the reservations that are
live. These are the facts that the callers of admission need; how permits move is not seen from
outside.
-/

namespace TopicPublisher

def Request.reservation (r : Request) : Reservation := ⟨r.id, r.size⟩

namespace Admission

/-- The requests that wait, as the reservations that they ask for. -/
def asked (a : Admission) : List Reservation := a.waiting.map Request.reservation

/-- The outcome of a decision about a request: it is live if it was granted, waits if it was
told to, and is gone if it was refused. All other requests and reservations stay. -/
inductive Decides (a : Admission) (r : Reservation) : Decision → Admission → Prop where
  | granted {b : Admission} :
      b.live.toList.Perm (r :: a.live.toList) → b.asked.Perm a.asked → Decides a r .granted b
  | waiting {b : Admission} :
      b.live.toList.Perm a.live.toList → b.asked.Perm (r :: a.asked) → Decides a r .waiting b
  | refused {b : Admission} (error : PublishError) :
      b.live.toList.Perm a.live.toList → b.asked.Perm a.asked → Decides a r (.refused error) b

variable {a b : Admission} {r : Request} {id size permits : Nat} {decision : Decision}

/-- Only the live reservations and the waiting requests matter for what a decision does. -/
theorem Decides.of_eq {x : Reservation} {n : Admission} (h : b.Decides x decision n)
    (live : b.live = a.live) (waiting : b.waiting = a.waiting) : a.Decides x decision n := by
  have asked : b.asked = a.asked := congrArg (List.map Request.reservation) waiting
  cases h with
  | granted hl hw => exact .granted (live ▸ hl) (asked ▸ hw)
  | waiting hl hw => exact .waiting (live ▸ hl) (asked ▸ hw)
  | refused error hl hw => exact .refused error (live ▸ hl) (asked ▸ hw)

theorem refuse_decides (a : Admission) (x : Reservation) (error : PublishError) :
    a.Decides x (.refused error) a :=
  .refused error (.refl _) (.refl _)

theorem grant_decides (a : Admission) (id size : Nat) :
    a.Decides ⟨id, size⟩ .granted (a.grant id size) :=
  .granted (by simp [grant]) (.refl _)

theorem returnElement_decides (a : Admission) (x : Reservation) (error : PublishError) :
    a.Decides x (.refused error) a.returnElement.1 := by
  rw [returnElement_fst]
  exact (refuse_decides _ x error).of_eq rfl rfl

theorem enqueue_decides (r : Request) (live : b.live = a.live)
    (waiting : b.waiting = a.waiting ++ [r]) : a.Decides r.reservation .waiting b :=
  .waiting (live ▸ .refl _) (by simp [asked, waiting])

theorem takeBytes_decides (a : Admission) (id size permits : Nat) :
    a.Decides ⟨id, size⟩ (a.takeBytes id size permits).1 (a.takeBytes id size permits).2.1 := by
  unfold takeBytes
  split
  · exact grant_decides a id size
  · split
    · exact (grant_decides _ id size).of_eq rfl rfl
    · exact enqueue_decides ⟨id, size, .bytes⟩ rfl rfl
    · exact (returnElement_decides _ _ _).of_eq rfl rfl

theorem tryBytes_decides (a : Admission) (id size permits : Nat) :
    a.Decides ⟨id, size⟩ (a.tryBytes id size permits).1 (a.tryBytes id size permits).2.1 := by
  unfold tryBytes
  split
  · exact grant_decides a id size
  · split
    · exact (grant_decides _ id size).of_eq rfl rfl
    · exact returnElement_decides a _ _

theorem tryElement_same (h : a.tryElement = .ok b) : b.live = a.live ∧ b.waiting = a.waiting := by
  unfold tryElement at h
  split at h
  · cases h
    exact ⟨rfl, rfl⟩
  · next s _ =>
    cases ht : s.tryAcquire 1 with
    | error => rw [ht] at h; cases h
    | ok t =>
      rw [ht] at h
      cases h
      exact ⟨rfl, rfl⟩

/-- A request that asked for its element, and whose requester has the element or was refused,
left no trace among the waiting ones. -/
theorem askElement_same {answer : Acquisition} (h : a.askElement id size = (answer, b))
    (settled : answer ≠ .queued) : b.live = a.live ∧ b.waiting = a.waiting := by
  unfold askElement at h
  split at h
  · cases h
    exact ⟨rfl, rfl⟩
  · split at h
    · cases h
      exact absurd rfl settled
    · cases h
      exact ⟨rfl, rfl⟩

theorem askElement_waits (h : a.askElement id size = (.queued, b)) :
    a.Decides ⟨id, size⟩ .waiting b := by
  unfold askElement at h
  split at h
  · cases h
  · split at h
    · cases h
      exact enqueue_decides ⟨id, size, .element⟩ rfl rfl
    · next hne _ =>
      cases h
      exact absurd rfl hne

theorem tryReserve_decides (a : Admission) (id size : Nat) :
    a.Decides ⟨id, size⟩ (a.tryReserve id size).1 (a.tryReserve id size).2.1 := by
  unfold tryReserve
  split
  · exact refuse_decides a _ _
  · split
    · exact refuse_decides a _ _
    · next b hb =>
      obtain ⟨live, waiting⟩ := tryElement_same hb
      exact (tryBytes_decides b id size _).of_eq live waiting

theorem reserve_decides (a : Admission) (id size : Nat) :
    a.Decides ⟨id, size⟩ (a.reserve id size).1 (a.reserve id size).2.1 := by
  unfold reserve
  split
  · exact refuse_decides a _ _
  split
  · exact tryReserve_decides a id size
  cases h : a.askElement id size with
  | mk answer b =>
    cases answer with
    | taken =>
      obtain ⟨live, waiting⟩ := askElement_same h (by simp)
      exact (takeBytes_decides b id size _).of_eq live waiting
    | queued => exact askElement_waits h
    | refused =>
      obtain ⟨live, waiting⟩ := askElement_same h (by simp)
      exact (refuse_decides b _ _).of_eq live waiting

theorem bytePermits_le {c : Ceilings} {limit : Nat} (ok : c.bytePermits size = .ok permits)
    (hc : c.bytes = some limit) : size ≤ limit := by
  unfold Ceilings.bytePermits at ok
  simp only [hc] at ok
  split at ok
  · cases ok
  · next fits => exact Nat.le_of_not_lt fun large => fits (.inl large)

/-- A request whose message is larger than the ceiling on bytes is refused and never waits. -/
theorem reserve_waits (waits : (a.reserve id size).1 = .waiting) :
    ∀ limit, a.ceilings.bytes = some limit → size ≤ limit := by
  intro limit hc
  unfold reserve at waits
  split at waits
  · cases waits
  · next permits ok => exact bytePermits_le ok hc

theorem tryReserve_waits (a : Admission) (id size : Nat) :
    (a.tryReserve id size).1 ≠ .waiting := by
  unfold tryReserve
  split
  · exact nofun
  split
  · exact nofun
  · unfold tryBytes
    split
    · exact nofun
    · split <;> exact nofun

/-! Requests that wait -/

theorem asked_settle (a : Admission) (id : Nat) :
    (a.settle id).asked = a.asked.filter (·.id != id) := by
  simp [asked, settle, List.filter_map, Function.comp_def, Request.reservation]

/-- A request that goes on waiting was settled and waits again. -/
theorem stays_decides (nodup : (a.waiting.map Request.id).Nodup) (hr : r ∈ a.waiting) :
    (a.settle r.id).Decides r.reservation .waiting a :=
  .waiting (.refl _) ((perm_cons_filter_key nodup hr).map Request.reservation)

theorem lookElement_same {answer : Acquisition} (h : a.lookElement id = (answer, b))
    (settled : answer ≠ .queued) :
    (a.settle id).live = b.live ∧ (a.settle id).waiting = b.waiting := by
  unfold lookElement at h
  split at h
  · cases h
    exact absurd rfl settled
  split at h
  · cases h
    exact absurd rfl settled
  · cases h
    exact ⟨rfl, rfl⟩

theorem lookBytes_decides (nodup : (a.waiting.map Request.id).Nodup) (hr : r ∈ a.waiting) :
    (a.settle r.id).Decides r.reservation (a.lookBytes r.id r.size).1
      (a.lookBytes r.id r.size).2.1 := by
  unfold lookBytes
  split
  · exact stays_decides nodup hr
  · split
    · exact (grant_decides _ r.id r.size).of_eq rfl rfl
    · exact stays_decides nodup hr
    · exact (returnElement_decides _ _ _).of_eq rfl rfl

/-- A request that waits is decided again: it is taken off the waiting ones first. -/
theorem resume_decides (nodup : (a.waiting.map Request.id).Nodup) (hr : r ∈ a.waiting) :
    (a.settle r.id).Decides r.reservation (a.resume r.id).1 (a.resume r.id).2.1 := by
  have found : a.request? r.id = some r := find?_key nodup hr
  unfold resume
  rw [found]
  dsimp only
  cases r.stage with
  | bytes => exact lookBytes_decides nodup hr
  | element =>
    dsimp only
    cases h : a.lookElement r.id with
    | mk answer b =>
      cases answer with
      | taken =>
        obtain ⟨live, waiting⟩ := lookElement_same h (by simp)
        exact (takeBytes_decides b r.id r.size _).of_eq live.symm waiting.symm
      | queued =>
        obtain rfl := lookElement_queued h
        exact stays_decides nodup hr
      | refused =>
        obtain ⟨live, waiting⟩ := lookElement_same h (by simp)
        exact (refuse_decides b _ _).of_eq live.symm waiting.symm

theorem cancel_same (a : Admission) (id : Nat) :
    (a.cancel id).1.live = a.live ∧ (a.cancel id).1.asked = a.asked.filter (·.id != id) := by
  rw [← asked_settle]
  unfold cancel
  cases h : a.request? id with
  | none =>
    have hw : a.waiting.filter (·.id != id) = a.waiting := by
      rw [List.filter_eq_self]
      intro r hr
      simpa using List.find?_eq_none.mp h r hr
    exact ⟨rfl, by simp [asked, settle, hw]⟩
  | some r =>
    dsimp only
    split
    · split <;> exact ⟨rfl, rfl⟩
    · split
      · exact ⟨rfl, rfl⟩
      · rw [returnElement_fst]
        exact ⟨rfl, rfl⟩

/-! Releasing and closing -/

theorem release_asked (a : Admission) (id : Nat) : (a.release id).1.asked = a.asked := by
  unfold release
  split
  · rfl
  · dsimp only
    rw [returnBytes_fst, returnElement_fst]
    rfl

theorem release_live {x : Reservation} {rest : List Reservation}
    (nodup : (a.live.toList.map Reservation.id).Nodup) (h : a.live.toList.Perm (x :: rest)) :
    (a.release x.id).1.live.toList.Perm rest := by
  have hx : x ∈ a.live.toList := h.symm.subset (List.mem_cons_self ..)
  unfold release
  split
  · next ht =>
    have hne := Fifo.not_of_take?_eq_none ht x hx
    simp at hne
  · next y live ht =>
    obtain ⟨hid, hp⟩ := Fifo.perm_of_take? ht
    have hy : y ∈ a.live.toList := hp.symm.subset (List.mem_cons_self ..)
    obtain rfl : y = x := List.inj_on_of_nodup_map nodup hy hx (by simpa using hid)
    dsimp only
    rw [returnBytes_fst, returnElement_fst]
    exact List.Perm.cons_inv (hp.symm.trans h)

theorem release_live_subset (a : Admission) (id : Nat) :
    (a.release id).1.live.toList ⊆ a.live.toList := by
  unfold release
  split
  · exact List.Subset.refl _
  · next y live ht =>
    dsimp only
    rw [returnBytes_fst, returnElement_fst]
    exact fun x hx => (Fifo.perm_of_take? ht).2.symm.subset (List.mem_cons_of_mem _ hx)

theorem close_same (a : Admission) : a.close.1.live = a.live ∧ a.close.1.asked = a.asked := by
  rw [close, closeBytes_fst, closeElements_fst]
  exact ⟨rfl, rfl⟩

end Admission
end TopicPublisher
