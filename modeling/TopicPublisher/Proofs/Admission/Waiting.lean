import TopicPublisher.Proofs.Admission.Balance

/-!
Requests that wait look for what they were given or give up, reservations are released, and
ceilings are closed. The books stay balanced.
-/

namespace TopicPublisher
namespace Admission

variable {c : Ceilings} {a b : Admission} {between : List Reservation} {r : Request}
  {spare id size permits : Nat}

/-! Leaving a queue -/

theorem mem_of_request? {r : Request} (hr : a.request? id = some r) :
    r ∈ a.waiting ∧ r.id = id :=
  ⟨List.mem_of_find?_eq_some hr, by simpa using List.find?_some hr⟩

theorem Balanced.unused_settle (h : a.Balanced c between spare) (hr : r ∈ a.waiting) :
    (a.settle r.id).Unused between r.id := by
  have hd := List.nodup_append.mp (List.append_assoc .. ▸ h.distinct)
  intro hm
  rw [List.append_assoc] at hm
  rcases List.mem_append.mp hm with hm | hm
  · obtain ⟨x, hx, hid⟩ := List.mem_map.mp hm
    simpa [hid] using (List.mem_filter.mp hx).2
  · exact hd.2.2 r.id (List.mem_map_of_mem hr) r.id hm rfl

theorem Balanced.leaveElement (h : a.Balanced c between spare) (hr : r ∈ a.waiting)
    (stage : r.stage = .element) {elements : Option Semaphore}
    (he : Backed elements c.elements ((Request.callsAt .element a.waiting).filter (·.1 != r.id))
      (between.length + (Request.callsAt .bytes a.waiting).length + a.live.toList.length)) :
    Balanced c { a.settle r.id with elements := elements } between spare := by
  have hp := Request.callsAt_perm .bytes h.nodup_waiting hr
  obtain ⟨rid, rsize, rstage⟩ := r
  cases stage
  rw [Request.callsAt_single_of_ne (by decide), List.nil_append] at hp
  refine ⟨h.ceilings, ?_, h.bytes.perm hp, h.ledger, ?_⟩
  · rw [hp.length_eq, ← Request.callsAt_filter_ne] at he
    exact he
  · refine h.distinct.sublist (List.Sublist.append_right (List.Sublist.append_right ?_ _) _)
    exact List.filter_sublist.map _

/-- A request leaves the queue for bytes and still holds its element. -/
theorem Balanced.leaveBytes (h : a.Balanced c between 0) (hr : r ∈ a.waiting)
    (stage : r.stage = .bytes) {bytes : Option Semaphore} {spare : Nat}
    (hb : Backed bytes c.bytes ((Request.callsAt .bytes a.waiting).filter (·.1 != r.id))
      (total Reservation.size a.live.toList + spare)) :
    Balanced c { a.settle r.id with bytes := bytes } (⟨r.id, r.size⟩ :: between) spare := by
  have he := Request.callsAt_perm .element h.nodup_waiting hr
  have hp := Request.callsAt_perm .bytes h.nodup_waiting hr
  have hd := perm_cons_filter_key h.nodup_waiting hr
  obtain ⟨rid, rsize, rstage⟩ := r
  cases stage
  rw [Request.callsAt_single_of_ne (by decide), List.nil_append] at he
  rw [Request.callsAt_single_self] at hp
  refine ⟨h.ceilings, ?_, ?_, h.ledger, ?_⟩
  · have hl := hp.length_eq
    simp only [List.length_append, List.length_cons, List.length_nil] at hl
    have hh := h.elements.perm he
    rw [hl] at hh
    rwa [show between.length + (0 + 1 + (Request.callsAt .bytes
        (a.waiting.filter (·.id != rid))).length) + a.live.toList.length =
      (Reservation.mk rid rsize :: between).length + (Request.callsAt .bytes
        (a.waiting.filter (·.id != rid))).length + a.live.toList.length by
          simp only [List.length_cons]; omega] at hh
  · rw [← Request.callsAt_filter_ne] at hb
    exact hb
  · refine List.Perm.nodup ?_ h.distinct
    refine List.Perm.append_right _ (((hd.map _).append_right _).trans ?_)
    exact List.perm_middle.symm

theorem Balanced.lookElement_taken (h : a.Balanced c between 0) (hr : r ∈ a.waiting)
    (stage : r.stage = .element) (hl : a.lookElement r.id = (.taken, b)) :
    b.Balanced c (⟨r.id, r.size⟩ :: between) 0 := by
  have he := h.elements
  unfold lookElement at hl
  split at hl
  · cases hl
  next s hs =>
  rw [hs] at he
  split at hl
  · cases hl
  next answer t _ ht =>
  cases hl
  -- The request leaves the queue, and comes to the element that was set aside for it.
  have left := h.leaveElement hr stage (he.update fun _ backs => backs.withdraw r.id)
  have unused := h.unused_settle hr
  refine left.enter r.size unused ?_
  have mine := stage ▸ Request.mem_callsAt hr
  have hp := Request.callsAt_perm .bytes h.nodup_waiting hr
  obtain ⟨rid, rsize, rstage⟩ := r
  cases stage
  rw [Request.callsAt_single_of_ne (by decide), List.nil_append] at hp
  have taken := he.update fun _ backs => backs.look_taken ht mine
  rw [hp.length_eq, ← Request.callsAt_filter_ne] at taken
  exact taken

theorem Balanced.lookElement_refused (h : a.Balanced c between 0) (hr : r ∈ a.waiting)
    (stage : r.stage = .element) (hl : a.lookElement r.id = (.refused, b)) :
    b.Balanced c between 0 := by
  have he := h.elements
  unfold lookElement at hl
  split at hl
  · cases hl
  next s hs =>
  rw [hs] at he
  split at hl
  · cases hl
  next answer t _ ht =>
  cases hl
  exact h.leaveElement hr stage (he.update fun _ backs => backs.look_refused ht)

theorem lookElement_queued (hl : a.lookElement id = (.queued, b)) : b = a := by
  unfold lookElement at hl
  split at hl
  · cases hl; rfl
  split at hl
  · cases hl; rfl
  next answer t hne ht => cases hl; exact absurd rfl hne

theorem Balanced.lookBytes (h : a.Balanced c between 0) (hr : r ∈ a.waiting)
    (stage : r.stage = .bytes) : (a.lookBytes r.id r.size).2.1.Balanced c between 0 := by
  have hb := h.bytes
  unfold Admission.lookBytes
  split
  · exact h
  next s hs =>
  rw [hs] at hb
  split
  · next t ht =>
    have mine := stage ▸ Request.mem_callsAt hr
    refine Balanced.grant ?_
    exact h.leaveBytes hr stage (hb.update fun _ backs => backs.look_taken ht mine)
  · exact h
  · next t ht =>
    refine Balanced.returnElement (r := ⟨r.id, r.size⟩) ?_
    exact h.leaveBytes hr stage (hb.update fun _ backs => backs.look_refused ht)

/-! Giving up, releasing and closing -/

theorem Balanced.cancel (h : a.Balanced c between 0) (id : Nat) :
    (a.cancel id).1.Balanced c between 0 := by
  have he := h.elements
  have hb := h.bytes
  unfold Admission.cancel
  cases hreq : a.request? id with
  | none => exact h
  | some r =>
    obtain ⟨hr, rfl⟩ := mem_of_request? hreq
    have mine := Request.mem_callsAt hr
    cases stage : r.stage with
    | element =>
      cases hs : a.elements with
      | none =>
        rw [hs] at he
        rw [stage, he.calls_eq_nil] at mine
        cases mine
      | some s =>
        rw [hs] at he
        simp only [settle, hs, stage]
        exact h.leaveElement hr stage (he.update fun _ backs => backs.withdraw r.id)
    | bytes =>
      cases hs : a.bytes with
      | none =>
        rw [hs] at hb
        rw [stage, hb.calls_eq_nil] at mine
        cases mine
      | some s =>
        rw [hs] at hb
        simp only [settle, hs, stage]
        refine Balanced.returnElement (r := ⟨r.id, r.size⟩) ?_
        exact h.leaveBytes hr stage (hb.update fun _ backs => backs.withdraw r.id)

theorem Balanced.release (h : a.Balanced c between 0) (id : Nat) :
    (a.release id).1.Balanced c between 0 := by
  unfold Admission.release
  cases ht : a.live.take? (·.id == id) with
  | none => exact h
  | some found =>
    obtain ⟨r, rest⟩ := found
    have hp := (Fifo.perm_of_take? ht).2
    have freed : Balanced c { a with ledger := a.ledger.release r.size, live := rest }
        (r :: between) r.size := by
      constructor
      case ceilings => exact h.ceilings
      case elements =>
        have he := h.elements
        rw [hp.length_eq] at he
        simp only [List.length_cons] at he ⊢
        rwa [show between.length + (Request.callsAt .bytes a.waiting).length +
          (rest.toList.length + 1) = between.length + 1 +
            (Request.callsAt .bytes a.waiting).length + rest.toList.length by omega] at he
      case bytes =>
        have hb := h.bytes
        rw [total, (hp.map _).sum_nat] at hb
        simp only [total, List.map_cons, List.sum_cons] at hb ⊢
        rwa [Nat.add_zero, Nat.add_comm] at hb
      case ledger =>
        simp only [h.ledger]
        exact Ledger.release_ofLive hp
      case distinct =>
        refine List.Perm.nodup ?_ h.distinct
        simp only [List.append_assoc]
        refine List.Perm.append_left _ (((hp.map _).append_left _).trans ?_)
        exact List.perm_middle
    exact Balanced.returnBytes (by simpa using freed.returnElement)

theorem closeElements_fst (a : Admission) :
    a.closeElements.1 = { a with elements := a.elements.map fun s => s.close.1 } := by
  unfold closeElements
  split
  · next hs => rw [hs, Option.map_none, ← hs]
  · next s hs => rw [hs, Option.map_some]

theorem closeBytes_fst (a : Admission) :
    a.closeBytes.1 = { a with bytes := a.bytes.map fun s => s.close.1 } := by
  unfold closeBytes
  split
  · next hs => rw [hs, Option.map_none, ← hs]
  · next s hs => rw [hs, Option.map_some]

theorem Balanced.closeElements (h : a.Balanced c between spare) :
    a.closeElements.1.Balanced c between spare := by
  rw [closeElements_fst]
  exact ⟨h.ceilings, h.elements.close, h.bytes, h.ledger, h.distinct⟩

theorem Balanced.closeBytes (h : a.Balanced c between spare) :
    a.closeBytes.1.Balanced c between spare := by
  rw [closeBytes_fst]
  exact ⟨h.ceilings, h.elements, h.bytes.close, h.ledger, h.distinct⟩

end Admission
end TopicPublisher
