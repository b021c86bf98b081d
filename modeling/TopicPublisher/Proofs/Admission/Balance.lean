import TopicPublisher.Proofs.Admission.Backed

/-!
The books of admission. Each permit of a ceiling is free, set aside for a request that waits,
held by a request that is between its element and its bytes, or taken by a live reservation, and
the ledger shows the live reservations. Here requests take elements and bytes for the first time,
and the books stay balanced.
-/

namespace TopicPublisher
namespace Admission

/-- The books are balanced: `between` are the requests that hold an element and are about to
take their bytes, and `spare` byte permits are in the hands of a request at work. -/
structure Balanced (c : Ceilings) (a : Admission) (between : List Reservation) (spare : Nat) :
    Prop where
  ceilings : a.ceilings = c
  elements : Backed a.elements c.elements (Request.callsAt .element a.waiting)
    (between.length + (Request.callsAt .bytes a.waiting).length + a.live.toList.length)
  bytes : Backed a.bytes c.bytes (Request.callsAt .bytes a.waiting)
    (total Reservation.size a.live.toList + spare)
  ledger : a.ledger = .ofLive a.live.toList
  distinct : (a.waiting.map Request.id ++ between.map Reservation.id ++
    a.live.toList.map Reservation.id).Nodup

/-- No request has the number and no reservation. -/
def Unused (a : Admission) (between : List Reservation) (id : Nat) : Prop :=
  id ∉ a.waiting.map Request.id ++ between.map Reservation.id ++
    a.live.toList.map Reservation.id

instance (a : Admission) (between : List Reservation) (id : Nat) :
    Decidable (a.Unused between id) :=
  inferInstanceAs (Decidable (¬ _))

variable {c : Ceilings} {a b : Admission} {between : List Reservation} {r : Reservation}
  {spare id size permits : Nat}

theorem ofCeilings_balanced (c : Ceilings) : (ofCeilings c).Balanced c [] 0 where
  ceilings := rfl
  elements := by
    unfold ofCeilings
    cases c.elements with
    | none => exact .unbounded
    | some limit => exact .ceiling ⟨by simp [Semaphore.setAside], .refl _, .nil, by simp, by simp,
        by simp⟩
  bytes := by
    unfold ofCeilings
    cases c.bytes with
    | none => exact .unbounded
    | some limit => exact .ceiling ⟨by simp [Semaphore.setAside], .refl _, .nil, by simp, by simp,
        by simp⟩
  ledger := rfl
  distinct := .nil

theorem Balanced.nodup_waiting (h : a.Balanced c between spare) :
    (a.waiting.map Request.id).Nodup :=
  (List.nodup_append.mp (List.nodup_append.mp h.distinct).1).1

theorem Balanced.perm {others : List Reservation} (h : a.Balanced c between spare)
    (hp : between.Perm others) : a.Balanced c others spare where
  ceilings := h.ceilings
  elements := hp.length_eq ▸ h.elements
  bytes := h.bytes
  ledger := h.ledger
  distinct := (((hp.map _).append_left _).append_right _).nodup h.distinct

/-! Asking for an element -/

theorem Balanced.enter (h : a.Balanced c between 0) (size : Nat) (unused : a.Unused between id)
    {elements : Option Semaphore}
    (he : Backed elements c.elements (Request.callsAt .element a.waiting)
      (between.length + (Request.callsAt .bytes a.waiting).length + a.live.toList.length + 1)) :
    Balanced c { a with elements := elements } (⟨id, size⟩ :: between) 0 where
  ceilings := h.ceilings
  elements := by
    have hn : between.length + (Request.callsAt .bytes a.waiting).length +
        a.live.toList.length + 1 = (Reservation.mk id size :: between).length +
          (Request.callsAt .bytes a.waiting).length + a.live.toList.length := by
      simp only [List.length_cons]
      omega
    exact hn ▸ he
  bytes := h.bytes
  ledger := h.ledger
  distinct := by
    have hp : (id :: (a.waiting.map Request.id ++ between.map Reservation.id ++
        a.live.toList.map Reservation.id)).Nodup := List.nodup_cons.mpr ⟨unused, h.distinct⟩
    refine List.Perm.nodup ?_ hp
    simp only [List.map_cons, List.append_assoc]
    exact List.perm_middle.symm

theorem Balanced.askElement_taken (h : a.Balanced c between 0) (unused : a.Unused between id)
    (ha : a.askElement id size = (.taken, b)) : b.Balanced c (⟨id, size⟩ :: between) 0 := by
  have he := h.elements
  unfold askElement at ha
  split at ha
  · next hs =>
    cases ha
    rw [hs] at he
    have hb := h.enter size unused (he.absent _)
    rwa [← hs] at hb
  · next s hs =>
    rw [hs] at he
    split at ha
    · cases ha
    · next answer t _ ht =>
      cases ha
      exact h.enter size unused (he.update fun _ backs => backs.acquire_taken ht)

theorem Balanced.askElement_queued (h : a.Balanced c between 0) (unused : a.Unused between id)
    (ha : a.askElement id size = (.queued, b)) : b.Balanced c between 0 := by
  have he := h.elements
  unfold askElement at ha
  split at ha
  · cases ha
  · next s hs =>
    rw [hs] at he
    split at ha
    · next t ht =>
      cases ha
      have fresh : id ∉ (Request.callsAt .element a.waiting).map Prod.fst := fun hm =>
        unused (List.mem_append_left _ (List.mem_append_left _
          (Request.mem_ids_of_mem_callsAt hm)))
      constructor
      case ceilings => exact h.ceilings
      case elements =>
        simp only [Request.callsAt_append, Request.callsAt_single_self,
          Request.callsAt_single_of_ne (show Stage.element ≠ Stage.bytes by decide),
          List.append_nil, Stage.permits]
        exact he.update fun _ backs => backs.acquire_queued ht fresh
      case bytes =>
        simpa only [Request.callsAt_append, List.append_nil,
          Request.callsAt_single_of_ne (show Stage.element ≠ Stage.bytes by decide)] using h.bytes
      case ledger => exact h.ledger
      case distinct =>
        refine List.Perm.nodup ?_ (List.nodup_cons.mpr ⟨unused, h.distinct⟩)
        simp only [List.map_append, List.map_cons, List.map_nil, List.append_assoc]
        exact List.perm_middle.symm
    · next answer t hne ht =>
      cases ha
      exact absurd rfl hne

theorem askElement_refused (ha : a.askElement id size = (.refused, b)) : b = a := by
  unfold askElement at ha
  split at ha
  · cases ha
  · next s hs =>
    split at ha
    · cases ha
    · next answer t _ ht =>
      cases ha
      rw [Semaphore.acquire_refused ht, ← hs]

theorem Balanced.tryElement (h : a.Balanced c between 0) (unused : a.Unused between id)
    (ha : a.tryElement = .ok b) : b.Balanced c (⟨id, size⟩ :: between) 0 := by
  have he := h.elements
  unfold Admission.tryElement at ha
  split at ha
  · next hs =>
    cases ha
    rw [hs] at he
    have hb := h.enter size unused (he.absent _)
    rwa [← hs] at hb
  · next s hs =>
    rw [hs] at he
    cases ht : s.tryAcquire 1 with
    | error => rw [ht] at ha; cases ha
    | ok t =>
      rw [ht] at ha
      cases ha
      exact h.enter size unused (he.update fun _ backs => backs.tryAcquire ht)

/-! Taking bytes -/

/-- A request between its element and its bytes that has its bytes in hand is granted. -/
theorem Balanced.grant (h : a.Balanced c (⟨id, size⟩ :: between) size) :
    (a.grant id size).Balanced c between 0 where
  ceilings := h.ceilings
  elements := by
    have he := h.elements
    simp only [Admission.grant, Fifo.toList_push, List.length_append, List.length_cons,
      List.length_nil] at he ⊢
    rwa [show between.length + 1 + (Request.callsAt .bytes a.waiting).length +
      a.live.toList.length = between.length + (Request.callsAt .bytes a.waiting).length +
        (a.live.toList.length + (0 + 1)) by omega] at he
  bytes := by simpa [Admission.grant, total] using h.bytes
  ledger := by
    rw [Admission.grant, h.ledger]
    simpa using Ledger.acquire_ofLive a.live.toList ⟨id, size⟩
  distinct := by
    refine List.Perm.nodup ?_ h.distinct
    simp only [Admission.grant, Fifo.toList_push, List.map_append, List.map_cons, List.map_nil,
      List.append_assoc]
    refine List.Perm.append_left _ ?_
    refine List.perm_middle.symm.trans (List.Perm.append_left _ ?_)
    exact (List.perm_append_singleton _ _).symm

theorem Balanced.grantBytes (h : a.Balanced c (⟨id, size⟩ :: between) 0) {bytes : Option Semaphore}
    (hb : Backed bytes c.bytes (Request.callsAt .bytes a.waiting)
      (total Reservation.size a.live.toList + size)) :
    ({ a with bytes := bytes }.grant id size).Balanced c between 0 :=
  Balanced.grant ⟨h.ceilings, h.elements, hb, h.ledger, h.distinct⟩

theorem returnElement_fst (a : Admission) :
    a.returnElement.1 = { a with elements := a.elements.map fun s => (s.release 1).1 } := by
  unfold returnElement
  split
  · next hs => rw [hs, Option.map_none, ← hs]
  · next s hs => rw [hs, Option.map_some]

theorem returnBytes_fst (a : Admission) (permits : Nat) :
    (a.returnBytes permits).1 =
      { a with bytes := a.bytes.map fun s => (s.release permits).1 } := by
  unfold returnBytes
  split
  · next hs => rw [hs, Option.map_none, ← hs]
  · next s hs => rw [hs, Option.map_some]

/-- A request between its element and its bytes gives up, and its element goes to the next. -/
theorem Balanced.returnElement (h : a.Balanced c (r :: between) spare) :
    a.returnElement.1.Balanced c between spare := by
  rw [returnElement_fst]
  refine ⟨h.ceilings, Backed.giveBack ?_, h.bytes, h.ledger, ?_⟩
  · have he := h.elements
    rwa [List.length_cons, show between.length + 1 + (Request.callsAt .bytes a.waiting).length +
      a.live.toList.length = between.length + (Request.callsAt .bytes a.waiting).length +
        a.live.toList.length + 1 by omega] at he
  · refine h.distinct.sublist (List.Sublist.append_right (List.Sublist.append_left ?_ _) _)
    exact (List.sublist_cons_self r between).map _

theorem Balanced.returnBytes (h : a.Balanced c between (spare + permits)) :
    (a.returnBytes permits).1.Balanced c between spare := by
  rw [returnBytes_fst]
  refine ⟨h.ceilings, h.elements, Backed.giveBack ?_, h.ledger, h.distinct⟩
  have hb := h.bytes
  rwa [← Nat.add_assoc] at hb

/-- The byte permits of a request are its size, wherever there is a ceiling on bytes. -/
def Fits (a : Admission) (size permits : Nat) : Prop := a.bytes.isSome → permits = size

theorem Balanced.takeBytes (h : a.Balanced c (⟨id, size⟩ :: between) 0)
    (fits : a.Fits size permits) : (a.takeBytes id size permits).2.1.Balanced c between 0 := by
  have hb := h.bytes
  unfold Admission.takeBytes
  split
  · next hs =>
    rw [hs] at hb
    have hg := h.grantBytes (hb.absent _)
    rwa [← hs] at hg
  next s hs =>
  -- There is a ceiling on bytes, so the permits are the size.
  obtain rfl : permits = size := fits (by rw [hs]; rfl)
  rw [hs] at hb
  split
  · next t ht => exact h.grantBytes (hb.update fun _ backs => backs.acquire_taken ht)
  · next t ht =>
    have fresh : id ∉ (Request.callsAt .bytes a.waiting).map Prod.fst := by
      intro hm
      have hd := (List.nodup_append.mp (List.nodup_append.mp h.distinct).1).2.2
      exact hd id (Request.mem_ids_of_mem_callsAt hm) id (by simp) rfl
    constructor
    case ceilings => exact h.ceilings
    case elements =>
      have he := h.elements
      simp only [Request.callsAt_append, Request.callsAt_single_self, List.append_nil,
        Request.callsAt_single_of_ne (show Stage.bytes ≠ Stage.element by decide),
        List.length_append, List.length_cons, List.length_nil] at he ⊢
      rwa [show between.length + 1 + (Request.callsAt .bytes a.waiting).length +
        a.live.toList.length = between.length + ((Request.callsAt .bytes a.waiting).length +
          (0 + 1)) + a.live.toList.length by omega] at he
    case bytes =>
      simp only [Request.callsAt_append, Request.callsAt_single_self, Stage.permits]
      exact hb.update fun _ backs => backs.acquire_queued ht fresh
    case ledger => exact h.ledger
    case distinct =>
      refine List.Perm.nodup ?_ h.distinct
      simp only [List.map_append, List.map_cons, List.map_nil, List.append_assoc,
        List.cons_append, List.nil_append]
      exact .refl _
  · next t ht =>
    obtain rfl := Semaphore.acquire_refused ht
    refine Balanced.returnElement (r := ⟨id, permits⟩) ?_
    rwa [← hs]

theorem Balanced.tryBytes (h : a.Balanced c (⟨id, size⟩ :: between) 0)
    (fits : a.Fits size permits) : (a.tryBytes id size permits).2.1.Balanced c between 0 := by
  have hb := h.bytes
  unfold Admission.tryBytes
  split
  · next hs =>
    rw [hs] at hb
    have hg := h.grantBytes (hb.absent _)
    rwa [← hs] at hg
  next s hs =>
  obtain rfl : permits = size := fits (by rw [hs]; rfl)
  rw [hs] at hb
  split
  · next t ht => exact h.grantBytes (hb.update fun _ backs => backs.tryAcquire ht)
  · exact h.returnElement

end Admission
end TopicPublisher
