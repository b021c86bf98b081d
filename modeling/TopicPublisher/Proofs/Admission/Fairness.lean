import TopicPublisher.Proofs.Admission.Runs

/-!
Who is granted, and who has to wait, in runs of admission at open ceilings. Nobody is overtaken by
a later caller, and nobody waits while there is room.
-/

namespace TopicPublisher
namespace Admission

open Semaphore

variable {c : Ceilings} {a b : Admission} {r : Request} {id size : Nat}

theorem Balanced.waiting_behind (h : a.Balanced c [] 0) (settled : a.told = [])
    (hr : r ∈ a.waiting) : r.id ∈ queueOf a.bytes ++ lineOf a.elements := by
  obtain ⟨s, hs, w, hw, same, -⟩ := h.exists_waiter hr
  rw [told_eq_nil settled hs, List.append_nil] at hw
  have queued : r.id ∈ s.queue.map Waiter.id := same ▸ List.mem_map_of_mem hw
  cases hstage : r.stage with
  | element =>
    have he : a.elements = some s := by rwa [hstage] at hs
    rw [he]
    exact List.mem_append_right _ (List.mem_append_right _ queued)
  | bytes =>
    have hb : a.bytes = some s := by rwa [hstage] at hs
    rw [hb]
    exact List.mem_append_left _ queued

theorem Enters.nobody_waits (enters : a.Enters id size .granted b) (h : a.Balanced c [] 0)
    (tight : a.Tight) (settled : a.told = []) (positive : 0 < size) : a.waiting = [] := by
  cases enters with
  | passing free takes =>
    cases takes with
    | granted room =>
      rw [List.eq_nil_iff_forall_not_mem]
      intro r hr
      obtain ⟨s, w, rest, hs, hq⟩ := h.queue_of_waiting settled hr
      have used : s.free = 0 := (tight.semaphore hs).used (hq ▸ List.cons_ne_nil _ _)
      cases hstage : r.stage with
      | element =>
        rw [hstage] at hs
        exact Nat.ne_of_gt (free s hs) used
      | bytes =>
        rw [hstage] at hs
        exact Nat.ne_of_gt (Nat.lt_of_lt_of_le positive (room s hs)) used

theorem Orderly.head_of_first {turn : List Nat} {passed : Nat → Prop}
    (h : a.Orderly turn passed) (balanced : a.Balanced c [] 0) (settled : a.told = [])
    (hr : r ∈ a.waiting) (stage : r.stage = .bytes)
    (first : ∀ q ∈ a.waiting, q.stage = .bytes → r.id ≤ q.id) :
    ∃ s w rest, a.bytes = some s ∧ s.queue = w :: rest ∧ w.needed = r.size := by
  obtain ⟨s, w, rest, hs, hq⟩ := balanced.queue_of_waiting settled hr
  obtain ⟨t, ht, x, hx, same, -⟩ := balanced.exists_waiter hr
  obtain rfl := Option.some.inj (hs.symm.trans ht)
  rw [stage] at hs
  have hb : a.bytes = some s := hs
  obtain ⟨q, hmem, hstage, hid, needs⟩ :=
    balanced.exists_request hs (List.mem_append_left s.told (hq ▸ List.mem_cons_self ..))
  refine ⟨s, w, rest, hb, hq, ?_⟩
  -- The head has the least number of its queue, and so has `r`.
  have least : q.id ≤ r.id := by
    have ranked := (List.pairwise_append.mp h.ranked).1
    rw [hb, lineOf, List.pairwise_append] at ranked
    have queue : ((w :: rest).map Waiter.id).Pairwise (· < ·) := hq ▸ ranked.2.1
    rw [told_eq_nil settled hs, List.append_nil, hq] at hx
    rw [hid, ← same]
    rcases List.mem_cons.mp hx with rfl | hx
    · exact Nat.le_refl _
    · exact Nat.le_of_lt ((List.pairwise_cons.mp queue).1 x.id (List.mem_map_of_mem hx))
  have both : q.id = r.id := Nat.le_antisymm least (first q hmem hstage)
  obtain rfl : q = r := List.inj_on_of_nodup_map balanced.nodup_waiting hmem hr both
  exact needs.symm

end Admission

namespace AdmissionSession

variable {c : Ceilings} {sizes : List Nat} {gone : Nat → Prop} {s : AdmissionSession}
  {i j size : Nat}

/-- When a caller is granted some bytes, every earlier one has its decision or is gone. -/
theorem Underway.granted_before (h : Underway c sizes gone s) (settled : s.admission.told = [])
    (before : i < j) (asked : sizes[j]? = some size) (positive : 0 < size)
    (granted : j ∈ s.granted) (kept : ¬ gone i) (answered : i ∉ s.refused.map Prod.fst) :
    i ∈ s.granted := by
  have passed : sizes[j]? ≠ some 0 := by
    rw [asked]
    exact fun zero => Nat.ne_of_gt positive (Option.some.inj zero)
  have known : i < sizes.length := Nat.lt_trans before (h.registered.granted j granted)
  rcases h.registered.accounted i known with there | refused | waits | left
  · exact there
  · exact absurd refused answered
  · -- Whoever waits is behind all that were granted some bytes.
    rw [Admission.asked_ids] at waits
    obtain ⟨r, hr, rfl⟩ := List.mem_map.mp waits
    have ahead := h.orderly.ahead j ⟨granted, passed⟩ r.id (h.balanced.waiting_behind settled hr)
    exact absurd (Nat.lt_trans before ahead) (Nat.lt_irrefl _)
  · exact absurd left kept

theorem Underway.attempt_not_granted (h : Underway c sizes gone s)
    (settled : s.admission.told = []) (waits : s.admission.waiting ≠ []) (positive : 0 < size) :
    s.callers ∉ (s.perform (.attempt size)).granted := by
  intro granted
  have answered := answered_tryReserve h.balanced h.tight h.opened h.registered.unused size
  change s.callers ∈ (s.enter (s.admission.tryReserve s.callers size)).granted at granted
  generalize s.admission.tryReserve s.callers size = answer at answered granted
  obtain ⟨decision, b, told⟩ := answer
  obtain rfl : told = [] := answered.quiet
  rw [enter_quiet, mem_granted_note] at granted
  rcases granted with before | ⟨rfl, -⟩
  · have less := h.registered.granted _ before
    rw [← h.registered.callers] at less
    exact Nat.lt_irrefl _ less
  · exact waits (answered.enters.nobody_waits h.balanced h.tight settled positive)

/-- On open ceilings, after any attempts, reservations, releases and cancellations, each of them
followed by all that go on because of it: the callers that were granted are those that the reports
name, and everybody who was told has looked; of two callers the later one, if it asked for some
bytes, is not granted before the earlier one, unless that one was given up or refused; and while
anybody waits, no attempt to reserve some bytes is granted. -/
theorem not_overtaken (c : Ceilings) (commands : List AdmissionCommand)
    (opened : .close ∉ commands) :
    ((reports commands (ofCeilings c)).flatMap AdmissionReport.granted).Perm
        (after c commands).granted ∧
      (after c commands).admission.told = [] ∧
      (∀ i j size, i < j → (requested commands)[j]? = some size → 0 < size →
        j ∈ (after c commands).granted → ¬ Cancelled c commands i →
        i ∉ (after c commands).refused.map Prod.fst → i ∈ (after c commands).granted) ∧
      ∀ r ∈ (after c commands).admission.waiting, ∀ size, 0 < size →
        (after c commands).callers ∉ ((after c commands).perform (.attempt size)).granted := by
  obtain ⟨h, settled⟩ := after_underway c opened
  refine ⟨reports_granted commands (ofCeilings c), settled, ?_, ?_⟩
  · intro i j size before asked positive granted kept answered
    exact h.granted_before settled before asked positive granted kept answered
  · intro r hr size positive
    exact h.attempt_not_granted settled (List.ne_nil_of_mem hr) positive

/-- Two elements and eight bytes: the second caller has its element and waits for bytes, and the
third waits for its element although its byte would be free. Once the first is done, the third is
not granted without the second, and until then no attempt is. -/
theorem not_overtaken_both_ceilings :
    2 ∈ (after ⟨some 2, some 8, .block⟩
        [.reserve 5, .reserve 6, .reserve 1, .release 0]).granted ∧
      1 ∈ (after ⟨some 2, some 8, .block⟩
        [.reserve 5, .reserve 6, .reserve 1, .release 0]).granted ∧
      3 ∉ ((after ⟨some 2, some 8, .block⟩ [.reserve 5, .reserve 6, .reserve 1]).perform
        (.attempt 1)).granted := by
  have kept : ¬ Cancelled ⟨some 2, some 8, .block⟩
      [.reserve 5, .reserve 6, .reserve 1, .release 0] 1 := by
    rintro ⟨before, first, -⟩
    exact absurd (first.subset (List.mem_append_right _ (List.mem_singleton_self _))) (by decide)
  have released := not_overtaken ⟨some 2, some 8, .block⟩
    [.reserve 5, .reserve 6, .reserve 1, .release 0] (by decide)
  have held := not_overtaken ⟨some 2, some 8, .block⟩ [.reserve 5, .reserve 6, .reserve 1]
    (by decide)
  refine ⟨by decide, ?_, ?_⟩
  · exact released.2.2.1 1 2 1 (by decide) rfl (by decide) (by decide) kept (by decide)
  · exact held.2.2.2 ⟨1, 6, .bytes⟩ (by decide) 1 (by decide)

/-- Under valid ceilings that are open, after any attempts, reservations, releases and
cancellations, each of them followed by all that go on because of it: everybody who was told has
looked; the first of those who wait for bytes would not fit in with the live reservations; if
anybody waits for an element, the live reservations and those who wait for bytes have all elements;
and nobody waits if no reservation is live. -/
theorem waits_for_room (valid : c.validate = .ok ()) (commands : List AdmissionCommand)
    (opened : .close ∉ commands) :
    (after c commands).admission.told = [] ∧
      (∀ r ∈ (after c commands).admission.waiting, r.stage = .bytes →
        (∀ q ∈ (after c commands).admission.waiting, q.stage = .bytes → r.id ≤ q.id) →
        ∃ limit, c.bytes = some limit ∧
          limit < total Reservation.size (after c commands).admission.live.toList + r.size) ∧
      (∀ r ∈ (after c commands).admission.waiting, r.stage = .element →
        ∃ limit, c.elements = some limit ∧
          (after c commands).admission.live.toList.length +
            (after c commands).admission.waiting.countP (·.stage == .bytes) = limit) ∧
      ((after c commands).admission.live.toList = [] →
        (after c commands).admission.waiting = []) := by
  obtain ⟨h, settled⟩ := after_underway c opened
  refine ⟨settled, ?_, ?_, ?_⟩
  · intro r hr stage first
    obtain ⟨s, w, rest, hs, hq, needs⟩ :=
      h.orderly.head_of_first h.balanced settled hr stage first
    have held : (after c commands).admission.semaphore? .bytes = some s := hs
    obtain ⟨limit, hc⟩ := h.balanced.exists_limit held
    rw [← needs]
    exact ⟨limit, hc, h.balanced.bytes_wanting h.tight settled hs hc hq⟩
  · intro r hr stage
    obtain ⟨s, w, rest, hs, hq⟩ := h.balanced.queue_of_waiting settled hr
    rw [stage] at hs
    obtain ⟨limit, hc⟩ := h.balanced.exists_limit hs
    have all := h.balanced.elements_wanting h.tight settled hs hc hq
    rw [Request.length_callsAt, List.length_nil, Nat.zero_add, Nat.add_comm] at all
    exact ⟨limit, hc, all⟩
  · intro idle
    apply h.balanced.nobody_waits h.tight settled valid ?_ idle
    intro r hr
    exact h.registered.fits r.reservation (List.mem_map_of_mem hr)

/-- Two elements and eight bytes: with five bytes reserved, a request for six waits for its bytes
and the next one for its element. The next one is granted when the other is given up, and nobody
waits once all reservations are released. -/
theorem waits_for_room_both_ceilings :
    8 < total Reservation.size (after ⟨some 2, some 8, .block⟩
        [.reserve 5, .reserve 6, .reserve 1]).admission.live.toList + 6 ∧
      (after ⟨some 2, some 8, .block⟩
          [.reserve 5, .reserve 6, .reserve 1]).admission.live.toList.length +
        (after ⟨some 2, some 8, .block⟩
          [.reserve 5, .reserve 6, .reserve 1]).admission.waiting.countP (·.stage == .bytes) = 2 ∧
      (after ⟨some 2, some 8, .block⟩ [.reserve 5, .reserve 6, .reserve 1, .cancel 1,
        .release 2, .release 0]).admission.waiting = [] := by
  have held := waits_for_room (c := ⟨some 2, some 8, .block⟩) (by decide)
    [.reserve 5, .reserve 6, .reserve 1] (by decide)
  have idle := waits_for_room (c := ⟨some 2, some 8, .block⟩) (by decide)
    [.reserve 5, .reserve 6, .reserve 1, .cancel 1, .release 2, .release 0] (by decide)
  refine ⟨?_, ?_, idle.2.2.2 (by decide)⟩
  · obtain ⟨limit, hc, short⟩ := held.2.1 ⟨1, 6, .bytes⟩ (by decide) rfl (by decide)
    obtain rfl := Option.some.inj hc
    exact short
  · obtain ⟨limit, hc, all⟩ := held.2.2.1 ⟨2, 1, .element⟩ (by decide) rfl
    obtain rfl := Option.some.inj hc
    exact all

end AdmissionSession
end TopicPublisher
