import TopicPublisher.Proofs.Engine.Custody

/-!
The entries are kept by whatever happens to them one by one: as they ask for admission and get it,
are queued and sent, and end.
-/

namespace TopicPublisher
namespace Custody

variable {k : Custody} {x : Entry}

/-- Entries that hold reservations may change places among themselves. -/
theorem Kept.rearrange (h : k.Kept) {now dispatched : Nat} {batching : BatchingLife}
    {queue current admitted : List Entry} {sends dispatches : List (Nat × Batch)}
    {ending : List (Entry × Outcome)} {published failed : UInt64}
    {calls : List (Nat × Nat × List Message)}
    (places : (ending.map Prod.fst ++ (sends.flatMap (·.2.entries) ++ current ++ queue)).Perm
      k.underway)
    (queued : ∀ x ∈ queue, x.size ≤ maxBatchBytes) (numbered : (sends.map Prod.fst).Nodup)
    (numbers : ∀ s ∈ sends, s.1 < dispatched) :
    Kept { k with
      now := now, batching := batching, queue := queue, current := current, sends := sends
      ending := ending, dispatched := dispatched, published := published, failed := failed
      admitted := admitted, dispatches := dispatches, calls := calls } where
  live := h.live.trans ((places.append_left _).map _).symm
  asked := h.asked
  apart := h.apart
  distinct := (places.map _).symm.nodup h.distinct
  fits y hy := by
    rcases List.mem_append.mp hy with hy | hy
    · exact h.fits y (List.mem_append_left _ hy)
    · exact queued y hy
  unreturned := h.unreturned
  returned y hy := h.returned y (places.subset hy)
  unresolved y hy := h.unresolved y (places.subset hy)
  past := h.past
  resolvedOnce := h.resolvedOnce
  releasedOnce := h.releasedOnce
  numbered := numbered
  numbers := numbers

theorem Kept.queued (h : k.Kept) : ∀ x ∈ k.queue, x.size ≤ maxBatchBytes :=
  fun x hx => h.fits x (List.mem_append_right _ hx)

theorem Kept.arrive (h : k.Kept) (new : x.id ∉ k.returned)
    (unused : x.id ∉ k.unreturned.map Entry.id) : Kept { k with asking := x :: k.asking } :=
  { h with
    apart := List.nodup_cons.mpr ⟨unused, h.apart⟩
    unreturned := List.forall_mem_cons.mpr ⟨new, h.unreturned⟩ }

/-- Without an entry whose call asks for admission. -/
theorem Kept.leaveAsking (h : k.Kept) {rest : List Entry} (hx : k.asking = x :: rest) :
    Kept { k with asking := rest } ∧ x.id ∉ k.returned ∧
      x.id ∉ (rest ++ k.granted ++ k.blocked).map Entry.id := by
  have apart := h.apart
  have unreturned := h.unreturned
  simp only [Custody.unreturned, hx, List.cons_append, List.map_cons, List.nodup_cons] at apart
  simp only [Custody.unreturned, hx, List.cons_append, List.forall_mem_cons] at unreturned
  exact ⟨{ h with apart := apart.2, unreturned := unreturned.2 }, unreturned.1, apart.1⟩

/-- Without an entry that waits for admission. -/
theorem Kept.leaveBlocked (h : k.Kept) (id : Nat) {a : Admission}
    (live : a.live = k.admission.live) (asked : a.asked = k.admission.asked.filter (·.id != id)) :
    Kept { k with admission := a, blocked := k.blocked.filter (·.id != id) } := by
  have sub : ((k.asking ++ k.granted) ++ k.blocked.filter (·.id != id)).Sublist k.unreturned :=
    List.Sublist.append_left List.filter_sublist _
  refine { h with live := live ▸ h.live, asked := ?_, apart := ?_, fits := ?_, unreturned := ?_ }
  · have filtered := h.asked.filter (·.id != id)
    rwa [List.filter_map, ← asked] at filtered
  · exact h.apart.sublist (sub.map _)
  · intro y hy
    refine h.fits y (List.Sublist.subset ?_ hy)
    exact (List.Sublist.append_left List.filter_sublist _).append_right _
  · exact fun y hy => h.unreturned y (sub.subset hy)

theorem Kept.decided (h : k.Kept) (new : x.id ∉ k.returned)
    (unused : x.id ∉ k.unreturned.map Entry.id) (fits : x.size ≤ maxBatchBytes)
    {d : Decision} {a : Admission} (decides : k.admission.Decides x.reservation d a) :
    (k.decided x d a).Kept := by
  have joined : ∀ {l : List Entry}, l.Perm (x :: k.unreturned) →
      (l.map Entry.id).Nodup ∧ ∀ y ∈ l, y.id ∉ k.returned := by
    intro l hl
    refine ⟨(hl.map _).symm.nodup (List.nodup_cons.mpr ⟨unused, h.apart⟩), fun y hy => ?_⟩
    rcases List.mem_cons.mp (hl.subset hy) with rfl | hy
    · exact new
    · exact h.unreturned y hy
  have allFit : ∀ {l : List Entry}, l.Perm (x :: (k.granted ++ k.blocked ++ k.queue)) →
      ∀ y ∈ l, y.size ≤ maxBatchBytes := by
    intro l hl y hy
    rcases List.mem_cons.mp (hl.subset hy) with rfl | hy
    · exact fits
    · exact h.fits y hy
  cases decides with
  | granted live asked =>
    have hl : (k.asking ++ (x :: k.granted) ++ k.blocked).Perm (x :: k.unreturned) := by
      exact List.perm_middle.append_right _
    exact { h with
      live := live.trans (h.live.cons _)
      asked := asked.trans h.asked
      apart := (joined hl).1
      fits := allFit (.refl _)
      unreturned := (joined hl).2 }
  | waiting live asked =>
    have added : (k.blocked ++ [x]).Perm (x :: k.blocked) := List.perm_append_singleton _ _
    have hl : (k.asking ++ k.granted ++ (k.blocked ++ [x])).Perm (x :: k.unreturned) :=
      (added.append_left _).trans List.perm_middle
    exact { h with
      live := live.trans h.live
      asked := asked.trans ((h.asked.cons _).trans (added.map _).symm)
      apart := (joined hl).1
      fits := allFit (((added.append_left _).trans List.perm_middle).append_right _)
      unreturned := (joined hl).2 }
  | refused error live asked =>
    exact { h with
      live := live.trans h.live
      asked := asked.trans h.asked
      apart := (joined (.refl _)).1
      unreturned := (joined (.refl _)).2 }

/-! Handles -/

theorem Kept.noteReturned (h : k.Kept) {id : Nat} (unused : id ∉ k.unreturned.map Entry.id) :
    (k.note [.returned id]).Kept := by
  rw [note_returned]
  refine { h with unreturned := ?_, returned := ?_, past := ?_ }
  · intro y hy hm
    rcases List.mem_append.mp hm with hm | hm
    · exact h.unreturned y hy hm
    · obtain rfl := List.mem_singleton.mp hm
      exact unused (List.mem_map_of_mem hy)
  · exact fun y hy => List.mem_append_left _ (h.returned y hy)
  · exact fun call hc => List.mem_append_left _ (h.past call hc)

theorem Kept.noteReleased (h : k.Kept) {id : Nat} (returned : id ∈ k.returned)
    (once : id ∉ k.released) (gone : id ∉ k.underway.map Entry.id) :
    (k.note [.released id]).Kept := by
  rw [note_released]
  refine { h with unresolved := ?_, past := ?_, releasedOnce := ?_ }
  · intro y hy
    refine ⟨(h.unresolved y hy).1, fun hm => ?_⟩
    rcases List.mem_append.mp hm with hm | hm
    · exact (h.unresolved y hy).2 hm
    · obtain rfl := List.mem_singleton.mp hm
      exact gone (List.mem_map_of_mem hy)
  · intro call hc
    simp only [List.mem_append, List.mem_singleton] at hc
    rcases hc with hc | hc | rfl
    · exact h.past call (.inl hc)
    · exact h.past call (.inr hc)
    · exact returned
  · exact (List.perm_append_singleton _ _).symm.nodup (List.nodup_cons.mpr ⟨once, h.releasedOnce⟩)

theorem Kept.noteResolved (h : k.Kept) {id : Nat} {outcome : Outcome} (returned : id ∈ k.returned)
    (once : id ∉ k.resolved.map Prod.fst) (gone : id ∉ k.underway.map Entry.id) :
    (k.note [.resolved id outcome]).Kept := by
  rw [note_resolved]
  refine { h with unresolved := ?_, past := ?_, resolvedOnce := ?_ }
  · intro y hy
    refine ⟨fun hm => ?_, (h.unresolved y hy).2⟩
    rw [List.map_append, List.mem_append] at hm
    rcases hm with hm | hm
    · exact (h.unresolved y hy).1 hm
    · obtain rfl := List.mem_singleton.mp hm
      exact gone (List.mem_map_of_mem hy)
  · intro call hc
    simp only [List.map_append, List.map_cons, List.map_nil, List.mem_append,
      List.mem_singleton] at hc
    rcases hc with (hc | rfl) | hc
    · exact h.past call (.inl hc)
    · exact returned
    · exact h.past call (.inr hc)
  · rw [List.map_append]
    exact (List.perm_append_singleton _ _).symm.nodup (List.nodup_cons.mpr ⟨once, h.resolvedOnce⟩)

/-- A call that has not returned holds nothing that could be released or resolved. -/
theorem Kept.untouched (h : k.Kept) {id : Nat} (new : id ∉ k.returned) :
    id ∉ k.resolved.map Prod.fst ∧ id ∉ k.released ∧ id ∉ k.underway.map Entry.id := by
  refine ⟨fun hm => new (h.past id (.inl hm)), fun hm => new (h.past id (.inr hm)), fun hm => ?_⟩
  obtain ⟨y, hy, rfl⟩ := List.mem_map.mp hm
  exact new (h.returned y hy)

/-- The call of an entry that was refused returns a handle with its outcome. -/
theorem Kept.refuse (h : k.Kept) {id : Nat} (new : id ∉ k.returned)
    (unused : id ∉ k.unreturned.map Entry.id) (outcome : Outcome) :
    (k.note [.returned id, .resolved id outcome]).Kept := by
  obtain ⟨unresolved, -, gone⟩ := h.untouched new
  have back := h.noteReturned unused
  rw [show ([.returned id, .resolved id outcome] : List Happening) =
    [.returned id] ++ [.resolved id outcome] from rfl, note_append]
  refine back.noteResolved ?_ ?_ ?_
  all_goals rw [note_returned]
  · simp
  · exact unresolved
  · exact gone

/-- Without an entry that was just granted, which still holds its reservation. -/
theorem Kept.leaveGranted (h : k.Kept) {rest : List Entry} (hx : k.granted = x :: rest) :
    x.id ∉ k.returned ∧ x.size ≤ maxBatchBytes ∧
      ((k.asking ++ rest ++ k.blocked).map Entry.id).Nodup ∧
        (∀ y ∈ k.asking ++ rest ++ k.blocked, y.id ∉ k.returned ∧ y.id ≠ x.id) ∧
          ∀ y ∈ rest ++ k.blocked ++ k.queue, y.size ≤ maxBatchBytes := by
  have hp : k.unreturned.Perm (x :: (k.asking ++ rest ++ k.blocked)) := by
    rw [Custody.unreturned, hx]
    exact List.perm_middle.append_right _
  have apart := (hp.map Entry.id).nodup h.apart
  rw [List.map_cons, List.nodup_cons] at apart
  have fits := h.fits
  rw [hx] at fits
  refine ⟨h.unreturned x (hp.symm.subset (List.mem_cons_self ..)), fits x (by simp), apart.2,
    fun y hy => ⟨h.unreturned y (hp.symm.subset (List.mem_cons_of_mem _ hy)), fun hid => ?_⟩,
    fun y hy => fits y (List.mem_cons_of_mem _ hy)⟩
  exact apart.1 (hid ▸ List.mem_map_of_mem hy)

theorem Kept.enqueue (h : k.Kept) {rest : List Entry} (hx : k.granted = x :: rest) :
    ({ k with granted := rest, queue := k.queue ++ [x] }.note
      [.admitted x, .returned x.id]).Kept := by
  obtain ⟨new, size, apart, others, fits⟩ := h.leaveGranted hx
  obtain ⟨unresolved, unreleased, gone⟩ := h.untouched new
  rw [note_enqueued]
  have places : (k.ending.map Prod.fst ++ (k.sends.flatMap (·.2.entries) ++ k.current ++
      (k.queue ++ [x]))).Perm (x :: k.underway) := by
    simp only [← List.append_assoc]
    refine (List.perm_append_singleton _ _).trans ?_
    simp only [underway, outstanding, List.append_assoc]
    exact .refl _
  have all {p : Entry → Prop} (first : p x) (others : ∀ y ∈ k.underway, p y) :
      ∀ y ∈ k.ending.map Prod.fst ++ (k.sends.flatMap (·.2.entries) ++ k.current ++
        (k.queue ++ [x])), p y :=
    fun y hy => List.forall_mem_cons.mpr ⟨first, others⟩ y (places.subset hy)
  refine { h with
    live := ?_, apart := apart, distinct := ?_, fits := ?_, unreturned := ?_, returned := ?_,
    unresolved := ?_, past := ?_ }
  · refine h.live.trans ?_
    rw [hx]
    exact (((places.append_left rest).trans List.perm_middle).map _).symm
  · exact (places.map _).symm.nodup (List.nodup_cons.mpr ⟨gone, h.distinct⟩)
  · intro y hy
    simp only [← List.append_assoc] at hy
    rcases List.mem_append.mp hy with hy | hy
    · exact fits y hy
    · exact List.mem_singleton.mp hy ▸ size
  · intro y hy hm
    rcases List.mem_append.mp hm with hm | hm
    · exact (others y hy).1 hm
    · exact (others y hy).2 (List.mem_singleton.mp hm)
  · exact all (by simp) fun y hy => List.mem_append_left _ (h.returned y hy)
  · exact all ⟨unresolved, unreleased⟩ h.unresolved
  · exact fun call hc => List.mem_append_left _ (h.past call hc)

/-- Releases the reservation of an entry that is no longer anywhere. -/
theorem Kept.turnAway (h : k.Kept) {rest : List Entry} (hx : k.granted = x :: rest)
    (nodup : (k.admission.live.toList.map Reservation.id).Nodup) (outcome : Outcome) :
    (({ k with granted := rest }.relinquish x).note
      [.released x.id, .returned x.id, .resolved x.id outcome]).Kept := by
  obtain ⟨new, -, apart, others, fits⟩ := h.leaveGranted hx
  obtain ⟨unresolved, unreleased, gone⟩ := h.untouched new
  have live := h.live
  rw [hx] at live
  have left : ({ k with granted := rest }.relinquish x).Kept :=
    { h with
      live := Admission.release_live (x := x.reservation) nodup live
      asked := (Admission.release_asked k.admission x.id).symm ▸ h.asked
      apart := apart
      fits := fits
      unreturned := fun y hy => (others y hy).1 }
  have unused : x.id ∉ (k.asking ++ rest ++ k.blocked).map Entry.id := by
    intro hm
    obtain ⟨y, hy, hid⟩ := List.mem_map.mp hm
    exact (others y hy).2 hid
  have back := left.refuse new unused outcome
  -- Returns, outcomes and releases are listed apart, so the release may as well come last.
  rw [show ∀ l : Custody, l.note [.released x.id, .returned x.id, .resolved x.id outcome] =
    l.note ([.returned x.id, .resolved x.id outcome] ++ [.released x.id]) from fun _ => rfl,
    note_append]
  refine back.noteReleased ?_ ?_ gone
  · simp [note]
  · simpa [note, relinquish] using unreleased

/-- An entry that is ending gives its reservation back, and its handle has the outcome. -/
theorem Kept.resolve (h : k.Kept) {outcome : Outcome} {rest : List (Entry × Outcome)}
    (hx : k.ending = (x, outcome) :: rest)
    (nodup : (k.admission.live.toList.map Reservation.id).Nodup) :
    (({ k with ending := rest }.relinquish x).note
      [.released x.id, .resolved x.id outcome]).Kept := by
  have places : k.underway = x :: (rest.map Prod.fst ++ k.outstanding) := by
    rw [underway, hx]
    rfl
  have hmem : x ∈ k.underway := places ▸ List.mem_cons_self ..
  obtain ⟨unresolved, unreleased⟩ := h.unresolved x hmem
  have distinct := h.distinct
  rw [places, List.map_cons, List.nodup_cons] at distinct
  have live := h.live
  rw [places] at live
  have held : ∀ y ∈ rest.map Prod.fst ++ k.outstanding, y ∈ k.underway :=
    fun y hy => places ▸ List.mem_cons_of_mem _ hy
  have left : ({ k with ending := rest }.relinquish x).Kept :=
    { h with
      live := Admission.release_live (x := x.reservation) nodup
        (live.trans (List.perm_middle.map Entry.reservation))
      asked := (Admission.release_asked k.admission x.id).symm ▸ h.asked
      distinct := distinct.2
      returned := fun y hy => h.returned y (held y hy)
      unresolved := fun y hy => h.unresolved y (held y hy) }
  have back := left.noteReleased (h.returned x hmem) unreleased distinct.1
  rw [show ([.released x.id, .resolved x.id outcome] : List Happening) =
    [.released x.id] ++ [.resolved x.id outcome] from rfl, note_append]
  refine back.noteResolved ?_ ?_ ?_
  all_goals rw [note_released]
  · exact h.returned x hmem
  · exact unresolved
  · exact distinct.1

/-! Batches -/

theorem Kept.dispatch (h : k.Kept) {b : Batch} {current : List Entry}
    (hc : k.current = b.entries ++ current) :
    ({ k with
      current := current
      sends := k.sends ++ [(k.dispatched, b)]
      dispatched := k.dispatched + 1 }.note [.dispatched k.dispatched b]).Kept := by
  rw [note_dispatched]
  refine h.rearrange ?_ h.queued ?_ ?_
  · simp [underway, outstanding, hc]
  · rw [List.map_append]
    refine (List.perm_append_singleton _ _).symm.nodup (List.nodup_cons.mpr ⟨?_, h.numbered⟩)
    intro hm
    obtain ⟨s, hs, hn⟩ := List.mem_map.mp hm
    exact absurd (h.numbers s hs) (by omega)
  · intro s hs
    rcases List.mem_append.mp hs with hs | hs
    · exact Nat.lt_succ_of_lt (h.numbers s hs)
    · simp [List.mem_singleton.mp hs]

theorem map_fst_zip {xs : List Entry} {outcomes : List Outcome}
    (parallel : outcomes.length = xs.length) : (xs.zip outcomes).map Prod.fst = xs := by
  rw [List.map_fst_zip]
  omega

/-- The entries of a batch whose sending has ended are ending, and still underway. -/
theorem Kept.finish_places (h : k.Kept) {n : Nat} {b : Batch} {outcomes : List Outcome}
    (hb : (n, b) ∈ k.sends) (none : k.ending = []) (parallel : outcomes.length = b.entries.length) :
    ((b.entries.zip outcomes).map Prod.fst ++ ((k.sends.filter (·.1 != n)).flatMap (·.2.entries) ++
      k.current ++ k.queue)).Perm k.underway := by
  have hp := perm_cons_filter_key h.numbered hb
  rw [map_fst_zip parallel, underway, none, outstanding]
  simp only [List.map_nil, List.nil_append, ← List.append_assoc]
  refine List.Perm.append_right _ (List.Perm.append_right _ ?_)
  exact hp.symm.flatMap_right (·.2.entries)

theorem Kept.finish (h : k.Kept) {n : Nat} {b : Batch} {outcomes : List Outcome}
    (hb : (n, b) ∈ k.sends) (none : k.ending = []) (parallel : outcomes.length = b.entries.length) :
    Kept { k with
      sends := k.sends.filter (·.1 != n)
      ending := b.entries.zip outcomes } :=
  h.rearrange (h.finish_places hb none parallel) h.queued
    (h.numbered.sublist (List.filter_sublist.map _))
    fun s hs => h.numbers s (List.mem_filter.mp hs).1

theorem counted_kept (messages : Nat) (result : SendResult) (h : k.Kept) :
    (k.counted messages result).Kept := by
  cases result <;> exact { h with }

theorem counted_admission (k : Custody) (messages : Nat) (result : SendResult) :
    (k.counted messages result).admission = k.admission := by
  cases result <;> rfl

theorem Kept.kill (h : k.Kept) (none : k.ending = []) (outcome : Outcome) :
    Kept { k with
      batching := .killed
      current := []
      queue := []
      ending := (k.current ++ k.queue).map (·, outcome) } := by
  refine h.rearrange ?_ (by simp) h.numbered h.numbers
  rw [underway, none, outstanding, List.map_map]
  simp only [Function.comp_def, List.map_id', List.map_nil, List.nil_append, List.append_nil]
  rw [List.append_assoc _ k.current]
  exact List.perm_append_comm

end Custody
end TopicPublisher
