import TopicPublisher.Proofs.Admission.Changes
import TopicPublisher.Proofs.Admission.Decision

/-!
Who waits, and what for. A request that waits is a waiter of the semaphore of its stage, and only
requests that wait are told to go on. When everybody who was told has looked, requests wait only
for want of room.
-/

namespace TopicPublisher
namespace Admission

/-- The semaphore at which requests of a stage wait. -/
def semaphore? (a : Admission) : Stage → Option Semaphore
  | .element => a.elements
  | .bytes => a.bytes

variable {c : Ceilings} {a b : Admission} {between : List Reservation} {r : Request}
  {s : Semaphore} {stage : Stage} {spare id size permits : Nat}

theorem told_eq (a : Admission) :
    a.told = (a.semaphore? .element).elim [] (·.told.map Waiter.id) ++
      (a.semaphore? .bytes).elim [] (·.told.map Waiter.id) :=
  rfl

theorem mem_told_of_semaphore (hs : a.semaphore? stage = some s)
    (hid : id ∈ s.told.map Waiter.id) : id ∈ a.told := by
  rw [told_eq, List.mem_append]
  cases stage with
  | element => exact .inl (by rw [hs]; exact hid)
  | bytes => exact .inr (by rw [hs]; exact hid)

theorem semaphore_of_mem_told (hid : id ∈ a.told) :
    ∃ stage s, a.semaphore? stage = some s ∧ id ∈ s.told.map Waiter.id := by
  have found (stage : Stage) (h : id ∈ (a.semaphore? stage).elim [] (·.told.map Waiter.id)) :
      ∃ s, a.semaphore? stage = some s ∧ id ∈ s.told.map Waiter.id := by
    cases hs : a.semaphore? stage with
    | none =>
      rw [hs] at h
      cases h
    | some s =>
      rw [hs] at h
      exact ⟨s, rfl, h⟩
  rw [told_eq, List.mem_append] at hid
  rcases hid with hid | hid
  · exact ⟨.element, found _ hid⟩
  · exact ⟨.bytes, found _ hid⟩

theorem Both.semaphore {motive : Semaphore → Prop} (h : a.Both motive)
    (hs : a.semaphore? stage = some s) : motive s := by
  cases stage with
  | element => exact h.1 s hs
  | bytes => exact h.2 s hs

/-! Waiters and requests -/

theorem Balanced.backs (h : a.Balanced c between spare) (hs : a.semaphore? stage = some s) :
    ∃ limit out, s.Backs limit (Request.callsAt stage a.waiting) out := by
  have backed {o : Option Semaphore} {limit : Option Nat} {calls : List (Nat × Nat)} {out : Nat}
      (hb : Backed o limit calls out) (ho : o = some s) : ∃ limit out, s.Backs limit calls out := by
    cases hb with
    | unbounded => cases ho
    | ceiling backs =>
      obtain rfl := Option.some.inj ho
      exact ⟨_, _, backs⟩
  cases stage with
  | element => exact backed h.elements hs
  | bytes => exact backed h.bytes hs

theorem Balanced.exists_waiter (h : a.Balanced c between spare) (hr : r ∈ a.waiting) :
    ∃ s, a.semaphore? r.stage = some s ∧
      ∃ w ∈ s.queue ++ s.told, w.id = r.id ∧ w.needed = r.stage.permits r.size := by
  have called := Request.mem_callsAt hr
  cases hs : a.semaphore? r.stage with
  | none =>
    have nobody {limit : Option Nat} {calls : List (Nat × Nat)} {out : Nat}
        (hb : Backed (a.semaphore? r.stage) limit calls out) : calls = [] :=
      Backed.calls_eq_nil (hs ▸ hb)
    cases hstage : r.stage with
    | element =>
      rw [hstage] at nobody called
      rw [nobody h.elements] at called
      cases called
    | bytes =>
      rw [hstage] at nobody called
      rw [nobody h.bytes] at called
      cases called
  | some s =>
    obtain ⟨_, _, backs⟩ := h.backs hs
    obtain ⟨w, hw, same⟩ := List.mem_map.mp (backs.waiters.symm.subset called)
    exact ⟨s, rfl, w, hw, congrArg Prod.fst same, congrArg Prod.snd same⟩

theorem Balanced.exists_request (h : a.Balanced c between spare)
    (hs : a.semaphore? stage = some s) {w : Waiter} (hw : w ∈ s.queue ++ s.told) :
    ∃ r ∈ a.waiting, r.stage = stage ∧ r.id = w.id ∧ stage.permits r.size = w.needed := by
  obtain ⟨_, _, backs⟩ := h.backs hs
  have called := backs.waiters.subset (List.mem_map_of_mem hw)
  obtain ⟨r, hr, same⟩ := List.mem_map.mp called
  obtain ⟨hr, hstage⟩ := List.mem_filter.mp hr
  exact ⟨r, hr, by simpa using hstage, congrArg Prod.fst same, congrArg Prod.snd same⟩

theorem Balanced.told_waiting (h : a.Balanced c between spare) (hid : id ∈ a.told) :
    id ∈ a.waiting.map Request.id := by
  obtain ⟨stage, s, hs, hid⟩ := semaphore_of_mem_told hid
  obtain ⟨w, hw, rfl⟩ := List.mem_map.mp hid
  obtain ⟨r, hr, -, same, -⟩ := h.exists_request hs (List.mem_append_right _ hw)
  exact same ▸ List.mem_map_of_mem hr

/-- A request waits at one stage only, so only there can it be told. -/
theorem Balanced.told_here (h : a.Balanced c between spare) (hr : r ∈ a.waiting)
    (hs : a.semaphore? r.stage = some s) (hid : r.id ∈ a.told) :
    r.id ∈ s.told.map Waiter.id := by
  obtain ⟨stage, t, ht, hid⟩ := semaphore_of_mem_told hid
  obtain ⟨w, hw, same⟩ := List.mem_map.mp hid
  obtain ⟨q, hq, hstage, hqid, -⟩ := h.exists_request ht (List.mem_append_right _ hw)
  obtain rfl : q = r := List.inj_on_of_nodup_map h.nodup_waiting hq hr (hqid.trans same)
  rw [hstage, ht] at hs
  obtain rfl := Option.some.inj hs
  exact hid

theorem asked_ids (a : Admission) : a.asked.map Reservation.id = a.waiting.map Request.id := by
  rw [asked, List.map_map]
  rfl

theorem settle_ids (a : Admission) (id : Nat) : id ∉ (a.settle id).asked.map Reservation.id := by
  rw [asked_settle]
  intro hm
  obtain ⟨x, hx, hid⟩ := List.mem_map.mp hm
  simpa [hid] using (List.mem_filter.mp hx).2

/-! Those who looked are not told any more -/

theorem cancel_untold (h : a.Balanced c between 0) (id : Nat) : id ∉ (a.cancel id).1.told := by
  intro told
  have waits := (h.cancel id).told_waiting told
  rw [← asked_ids, (cancel_same a id).2, ← asked_settle] at waits
  exact settle_ids a id waits

theorem lookElement_untold {b : Admission} (hl : a.lookElement id = (.queued, b))
    (hs : a.elements = some s) : id ∉ s.told.map Waiter.id := by
  unfold lookElement at hl
  rw [hs] at hl
  dsimp only at hl
  split at hl
  · next _ hq =>
    unfold Semaphore.look at hq
    split at hq
    · cases hq
    split at hq
    · cases hq
    · next none => simpa using none
  · next hne _ =>
    cases hl
    exact absurd rfl hne

theorem lookBytes_untold (waits : (a.lookBytes id size).1 = .waiting) (hs : a.bytes = some s) :
    (a.lookBytes id size).2.1 = a ∧ id ∉ s.told.map Waiter.id := by
  unfold lookBytes at waits ⊢
  rw [hs] at waits ⊢
  dsimp only at waits ⊢
  split at waits
  · cases waits
  · next hq =>
    refine ⟨rfl, ?_⟩
    unfold Semaphore.look at hq
    split at hq
    · cases hq
    split at hq
    · cases hq
    · next none => simpa using none
  · cases waits

/-- A request that has to wait for its bytes stands in the queue. -/
theorem takeBytes_queued (waits : (a.takeBytes id size permits).1 = .waiting) :
    ⟨id, size, .bytes⟩ ∈ (a.takeBytes id size permits).2.1.waiting ∧
      ∃ t, (a.takeBytes id size permits).2.1.bytes = some t ∧ id ∈ t.queue.map Waiter.id := by
  unfold takeBytes at waits ⊢
  split at waits
  · cases waits
  next s hs =>
  split at waits
  · cases waits
  · next t ht =>
    refine ⟨List.mem_append_right _ (List.mem_singleton_self _), t, rfl, ?_⟩
    unfold Semaphore.acquire at ht
    split at ht
    · cases ht
    split at ht
    · cases ht
    · cases ht
      simp
  · cases waits

/-- A request that looked either has its decision or is back in a queue. -/
theorem resume_untold (h : a.Balanced c between 0) (id : Nat) :
    id ∉ (a.resume id).2.1.told := by
  have after : (a.resume id).2.1.Balanced c between 0 :=
    Moment.Balanced.steps (m := ⟨a, between⟩) h (resume_steps h id)
  cases hreq : a.request? id with
  | none =>
    have same : (a.resume id).2.1 = a := by rw [resume, hreq]
    rw [same]
    intro told
    obtain ⟨r, hr, hid⟩ := List.mem_map.mp (h.told_waiting told)
    simpa [hid] using List.find?_eq_none.mp hreq r hr
  | some r =>
    obtain ⟨hr, rfl⟩ := mem_of_request? hreq
    have gone {b : Admission} (balanced : b.Balanced c between 0)
        (hp : b.asked.Perm (a.settle r.id).asked) : r.id ∉ b.told := by
      intro told
      have waits := balanced.told_waiting told
      rw [← asked_ids] at waits
      exact settle_ids a r.id ((hp.map _).subset waits)
    have decides := resume_decides h.nodup_waiting hr
    cases hd : (a.resume r.id).1 with
    | granted =>
      rw [hd] at decides
      cases decides with
      | granted _ hp => exact gone after hp
    | refused error =>
      rw [hd] at decides
      cases decides with
      | refused _ _ hp => exact gone after hp
    | waiting =>
      obtain ⟨s, hs, -⟩ := h.exists_waiter hr
      unfold resume at hd after ⊢
      rw [hreq] at hd after ⊢
      cases hstage : r.stage with
      | bytes =>
        simp only [hstage] at hd hs ⊢
        obtain ⟨same, untold⟩ := lookBytes_untold hd hs
        rw [same]
        exact fun told => untold (h.told_here hr (hstage ▸ hs) told)
      | element =>
        simp only [hstage] at hd hs after ⊢
        cases hl : a.lookElement r.id with
        | mk answer b =>
          rw [hl] at hd after
          cases answer with
          | refused => cases hd
          | queued =>
            obtain rfl := lookElement_queued hl
            exact fun told => lookElement_untold hl hs (h.told_here hr (hstage ▸ hs) told)
          | taken =>
            obtain ⟨waits, t, ht, queued⟩ := takeBytes_queued hd
            have held : Admission.semaphore? _ .bytes = some t := ht
            obtain ⟨_, _, backs⟩ := after.backs held
            intro told
            have here := after.told_here waits ht told
            exact (List.nodup_append.mp backs.nodup).2.2 _ queued _ here rfl

/-! Room -/

/-- Where nobody was told, all that is set aside is for the first waiter. -/
theorem setAside_eq (tight : s.Tight) (settled : s.told = []) {w : Waiter} {rest : List Waiter}
    (hq : s.queue = w :: rest) : s.free = 0 ∧ w.held < w.needed ∧ s.setAside = w.held := by
  have used := tight.used (by rw [hq]; exact List.cons_ne_nil _ _)
  have first := tight.first w (by rw [hq]; rfl)
  have others : total (·.held) rest = 0 :=
    List.sum_eq_zero_iff_forall_eq_nat.mpr (List.forall_mem_map.mpr fun x hx =>
      tight.others x (by rw [hq]; exact hx))
  refine ⟨used, first, ?_⟩
  rw [Semaphore.setAside, settled, hq, List.append_nil, total_cons, others, Nat.add_zero]

theorem told_eq_nil (settled : a.told = []) (hs : a.semaphore? stage = some s) : s.told = [] := by
  rw [← List.map_eq_nil_iff (f := Waiter.id), List.eq_nil_iff_forall_not_mem]
  intro id hid
  have told := mem_told_of_semaphore hs hid
  rw [settled] at told
  cases told

/-- The first request that waits for its bytes, when everybody who was told has looked, would not
fit in with the live reservations. -/
theorem Balanced.bytes_wanting (h : a.Balanced c between 0) (tight : a.Tight)
    (settled : a.told = []) (hs : a.bytes = some s) {limit : Nat} (hc : c.bytes = some limit)
    {w : Waiter} {rest : List Waiter} (hq : s.queue = w :: rest) :
    limit < total Reservation.size a.live.toList + w.needed := by
  have held : a.semaphore? .bytes = some s := hs
  obtain ⟨used, first, aside⟩ := setAside_eq (tight.2 s hs) (told_eq_nil settled held) hq
  obtain ⟨t, ht, backs⟩ := Backed.exists_semaphore (hc ▸ h.bytes)
  obtain rfl := Option.some.inj (hs.symm.trans ht)
  have sum := backs.conserved
  omega

/-- A request waits for its element, when everybody who was told has looked, only if all elements
are with live reservations and with requests that go on to their bytes. -/
theorem Balanced.elements_wanting (h : a.Balanced c between 0) (tight : a.Tight)
    (settled : a.told = []) (hs : a.elements = some s) {limit : Nat} (hc : c.elements = some limit)
    {w : Waiter} {rest : List Waiter} (hq : s.queue = w :: rest) :
    between.length + (Request.callsAt .bytes a.waiting).length + a.live.toList.length = limit := by
  have held : a.semaphore? .element = some s := hs
  obtain ⟨used, first, aside⟩ := setAside_eq (tight.1 s hs) (told_eq_nil settled held) hq
  have one : w.needed = 1 := by
    obtain ⟨r, -, -, -, needs⟩ := h.exists_request held
      (List.mem_append_left s.told (hq ▸ List.mem_cons_self ..))
    exact needs.symm
  obtain ⟨t, ht, backs⟩ := Backed.exists_semaphore (hc ▸ h.elements)
  obtain rfl := Option.some.inj (hs.symm.trans ht)
  have sum := backs.conserved
  omega

theorem Balanced.exists_limit (h : a.Balanced c between spare) (hs : a.semaphore? stage = some s) :
    ∃ limit, (match stage with | .element => c.elements | .bytes => c.bytes) = some limit := by
  have backed {o : Option Semaphore} {limit : Option Nat} {calls : List (Nat × Nat)} {out : Nat}
      (hb : Backed o limit calls out) (ho : o = some s) : ∃ permits, limit = some permits := by
    cases hb with
    | unbounded => cases ho
    | ceiling _ => exact ⟨_, rfl⟩
  cases stage with
  | element => exact backed h.elements hs
  | bytes => exact backed h.bytes hs

theorem Balanced.queue_of_waiting (h : a.Balanced c between spare) (settled : a.told = [])
    (hr : r ∈ a.waiting) :
    ∃ s w rest, a.semaphore? r.stage = some s ∧ s.queue = w :: rest := by
  obtain ⟨s, hs, w, hw, -⟩ := h.exists_waiter hr
  rw [told_eq_nil settled hs, List.append_nil] at hw
  obtain ⟨first, rest, hq⟩ := List.exists_cons_of_ne_nil (List.ne_nil_of_mem hw)
  exact ⟨s, first, rest, hs, hq⟩

/-- With nothing reserved there is room for everybody, so nobody waits who has not been told. -/
theorem Balanced.nobody_waits (h : a.Balanced c [] 0) (tight : a.Tight) (settled : a.told = [])
    (valid : c.validate = .ok ()) (fits : ∀ r ∈ a.waiting, ∀ limit, c.bytes = some limit →
      r.size ≤ limit) (idle : a.live.toList = []) : a.waiting = [] := by
  obtain ⟨positive, -⟩ := (Ceilings.validate_eq_ok_iff c).mp valid
  have noBytes : ∀ r ∈ a.waiting, r.stage ≠ .bytes := by
    intro r hr hstage
    obtain ⟨s, w, rest, hs, hq⟩ := h.queue_of_waiting settled hr
    rw [hstage] at hs
    obtain ⟨limit, hc⟩ := h.exists_limit hs
    have wants := h.bytes_wanting tight settled hs hc hq
    obtain ⟨q, hmem, -, -, needs⟩ := h.exists_request hs
      (List.mem_append_left s.told (hq ▸ List.mem_cons_self ..))
    have small := fits q hmem limit hc
    rw [idle, total_nil, ← needs] at wants
    exact absurd wants (Nat.not_lt.mpr ((Nat.zero_add _).symm ▸ small))
  rw [List.eq_nil_iff_forall_not_mem]
  intro r hr
  have hstage : r.stage = .element := by
    cases hst : r.stage with
    | element => rfl
    | bytes => exact absurd hst (noBytes r hr)
  obtain ⟨s, w, rest, hs, hq⟩ := h.queue_of_waiting settled hr
  rw [hstage] at hs
  obtain ⟨limit, hc⟩ := h.exists_limit hs
  have all := h.elements_wanting tight settled hs hc hq
  have none : Request.callsAt .bytes a.waiting = [] := by
    rw [Request.callsAt, List.map_eq_nil_iff, List.filter_eq_nil_iff]
    exact fun q hq => by simpa using noBytes q hq
  rw [none, idle] at all
  have some := (positive limit hc).1
  simp only [List.length_nil] at all
  omega

end Admission
end TopicPublisher
