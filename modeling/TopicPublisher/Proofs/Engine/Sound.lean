import TopicPublisher.Proofs.Engine.Kept

/-!
Every move keeps custody sound, and nothing that was given out is taken back.
-/

namespace TopicPublisher
namespace Custody

variable {c : Config} {k : Custody} {x : Entry}

theorem Sound.nodup_live (h : k.Sound c) : (k.admission.live.toList.map Reservation.id).Nodup :=
  (List.nodup_append.mp h.balanced.distinct).2.1

/-- An entry that is nowhere yet has a number that admission does not know. -/
theorem Sound.unused (h : k.Sound c) (new : x.id ∉ k.returned)
    (unused : x.id ∉ (k.granted ++ k.blocked).map Entry.id) : k.admission.Unused [] x.id := by
  intro hm
  simp only [List.map_nil, List.append_nil, List.mem_append] at hm
  rcases hm with hm | hm
  · have asked := h.kept.asked.map Reservation.id
    simp only [Admission.asked, List.map_map] at asked
    refine unused ?_
    rw [List.map_append]
    exact List.mem_append_right _ (asked.subset hm)
  · have live := h.kept.live.map Reservation.id
    rw [List.map_map] at live
    have hm := live.subset hm
    simp only [List.map_append, List.mem_append] at hm
    rcases hm with hm | hm
    · exact unused (by rw [List.map_append]; exact List.mem_append_left _ hm)
    · exact (h.kept.untouched new).2.2 hm

theorem decided_admission (k : Custody) (x : Entry) (d : Decision) (a b : Admission) :
    { k with admission := b }.decided x d a = k.decided x d a := by
  cases d <;> rfl

theorem admission_decided (k : Custody) (x : Entry) (d : Decision) (a : Admission) :
    (k.decided x d a).admission = a := by
  cases d <;> rfl

theorem Sound.reserve (h : k.Sound c) {rest : List Entry} (hx : k.asking = x :: rest)
    (fits : x.size ≤ maxBatchBytes) :
    ({ k with asking := rest }.decided x (k.admission.reserve x.id x.size).1
      (k.admission.reserve x.id x.size).2.1).Sound c := by
  obtain ⟨left, new, unused⟩ := h.kept.leaveAsking hx
  refine ⟨left.decided new unused fits (Admission.reserve_decides _ _ _), ?_⟩
  rw [admission_decided]
  have apart : x.id ∉ (k.granted ++ k.blocked).map Entry.id := by
    rw [List.append_assoc, List.map_append] at unused
    exact fun hm => unused (List.mem_append_right _ hm)
  exact Admission.Moment.Balanced.steps (m := ⟨k.admission, []⟩) h.balanced
    (Admission.reserve_steps h.balanced (h.unused new apart))

theorem Sound.resume (h : k.Sound c) (hx : x ∈ k.blocked) :
    ({ k with blocked := k.blocked.filter (·.id != x.id) }.decided x
      (k.admission.resume x.id).1 (k.admission.resume x.id).2.1).Sound c := by
  have hu : x ∈ k.unreturned := List.mem_append_right _ hx
  have left := h.kept.leaveBlocked x.id (a := k.admission.settle x.id) rfl
    (Admission.asked_settle _ _)
  have unused : x.id ∉ (k.asking ++ k.granted ++ k.blocked.filter (·.id != x.id)).map
      Entry.id := by
    have apart := h.kept.apart
    rw [Custody.unreturned, List.map_append, List.nodup_append] at apart
    intro hm
    rw [List.map_append, List.mem_append] at hm
    rcases hm with hm | hm
    · exact apart.2.2 _ hm _ (List.mem_map_of_mem hx) rfl
    · obtain ⟨y, hy, hid⟩ := List.mem_map.mp hm
      simpa [hid] using (List.mem_filter.mp hy).2
  have fits := h.kept.fits x (List.mem_append_left _ (List.mem_append_right _ hx))
  obtain ⟨r, hr, same⟩ : ∃ r ∈ k.admission.waiting, r.reservation = x.reservation :=
    List.mem_map.mp (h.kept.asked.symm.subset (List.mem_map_of_mem hx))
  have decides := Admission.resume_decides h.balanced.nodup_waiting hr
  rw [same, show r.id = x.id from congrArg Reservation.id same] at decides
  have decided := left.decided (h.kept.unreturned x hu) unused fits decides
  rw [decided_admission { k with blocked := k.blocked.filter (·.id != x.id) }] at decided
  refine ⟨decided, ?_⟩
  rw [admission_decided]
  exact Admission.Moment.Balanced.steps (m := ⟨k.admission, []⟩) h.balanced
    (Admission.resume_steps h.balanced x.id)

theorem Sound.move {l : Custody} {mayCrash : Prop} (h : k.Sound c) (move : k.Move c mayCrash l) :
    l.Sound c := by
  have kept := h.kept
  cases move with
  | wait now _ => exact ⟨{ kept with }, h.balanced⟩
  | arrive x new unused => exact ⟨kept.arrive new unused, h.balanced⟩
  | reserve x rest hx fits => exact h.reserve hx fits
  | resume x hx => exact h.resume hx
  | refuse x rest error hx =>
    obtain ⟨left, new, unused⟩ := kept.leaveAsking hx
    exact ⟨left.refuse new unused _, h.balanced⟩
  | enqueue x rest hx running => exact ⟨kept.enqueue hx, h.balanced⟩
  | turnAway x rest error hx =>
    exact ⟨kept.turnAway hx h.nodup_live _, h.balanced.release x.id⟩
  | cancel call =>
    obtain ⟨live, asked⟩ := Admission.cancel_same k.admission call
    exact ⟨kept.leaveBlocked call live asked, h.balanced.cancel call⟩
  | close =>
    obtain ⟨live, asked⟩ := Admission.close_same k.admission
    refine ⟨{ kept with live := live ▸ kept.live, asked := asked ▸ kept.asked }, ?_⟩
    exact Admission.Moment.Balanced.steps (m := ⟨k.admission, []⟩) h.balanced
      (Admission.close_steps _ _)
  | take x rest _ hq =>
    refine ⟨kept.rearrange ?_ ?_ kept.numbered kept.numbers, h.balanced⟩
    · simp [underway, outstanding, hq]
    · exact fun y hy => kept.queued y (hq ▸ List.mem_cons_of_mem _ hy)
  | dispatch b current _ hc => exact ⟨kept.dispatch hc, h.balanced⟩
  | finish n b result hb none parallel _ =>
    refine ⟨counted_kept _ _ (kept.finish hb none parallel), ?_⟩
    rw [counted_admission]
    exact h.balanced
  | kill _ none _ => exact ⟨kept.kill none _, h.balanced⟩
  | resolve x outcome rest hx =>
    exact ⟨kept.resolve hx h.nodup_live, h.balanced.release x.id⟩
  | retire running _ _ => exact ⟨{ kept with }, h.balanced⟩
  | call n attempt b hb =>
    rw [note_called]
    exact ⟨{ kept with }, h.balanced⟩

/-- What was given out stays so, and the batches are numbered upwards. -/
theorem Move.grows {l : Custody} {mayCrash : Prop} (move : k.Move c mayCrash l) :
    k.resolved ⊆ l.resolved ∧ k.released ⊆ l.released ∧ k.dispatched ≤ l.dispatched := by
  have decided (k : Custody) (x : Entry) (d : Decision) (a : Admission) :
      (k.decided x d a).resolved = k.resolved ∧ (k.decided x d a).released = k.released ∧
        (k.decided x d a).dispatched = k.dispatched := by
    cases d <;> exact ⟨rfl, rfl, rfl⟩
  cases move with
  | reserve x rest _ _ | resume x _ =>
    obtain ⟨resolved, released, dispatched⟩ := decided _ _ _ _
    rw [resolved, released, dispatched]
    exact ⟨.refl _, .refl _, Nat.le_refl _⟩
  | finish n b result _ _ _ _ =>
    cases result <;> exact ⟨List.Subset.refl _, List.Subset.refl _, Nat.le_refl _⟩
  | refuse | enqueue | turnAway | resolve | dispatch | call =>
    exact ⟨List.subset_append_left _ _, List.subset_append_left _ _, by simp [note, relinquish]⟩
  | _ => exact ⟨List.Subset.refl _, List.Subset.refl _, Nat.le_refl _⟩

theorem Moves.grows {l : Custody} {mayCrash : Prop} (moves : Moves c mayCrash k l) :
    k.resolved ⊆ l.resolved ∧ k.released ⊆ l.released ∧ k.dispatched ≤ l.dispatched := by
  induction moves with
  | refl => exact ⟨.refl _, .refl _, Nat.le_refl _⟩
  | tail _ move ih =>
    obtain ⟨resolved, released, dispatched⟩ := move.grows
    exact ⟨List.Subset.trans ih.1 resolved, List.Subset.trans ih.2.1 released,
      Nat.le_trans ih.2.2 dispatched⟩

/-- What every move keeps is kept by any number of moves. -/
theorem Moves.keeps {l : Custody} {mayCrash : Prop} {motive : Custody → Prop}
    (keeps : ∀ {k l : Custody}, k.Sound c → motive k → k.Move c mayCrash l → motive l)
    (h : k.Sound c) (init : motive k) (moves : Moves c mayCrash k l) : motive l := by
  have both : motive l ∧ l.Sound c := by
    induction moves with
    | refl => exact ⟨init, h⟩
    | tail _ move ih => exact ⟨keeps ih.2 ih.1 move, ih.2.move move⟩
  exact both.1

theorem Sound.moves {l : Custody} {mayCrash : Prop} (h : k.Sound c) (moves : Moves c mayCrash k l) :
    l.Sound c :=
  Moves.keeps (fun _ sound move => sound.move move) h h moves

end Custody
end TopicPublisher
