import TopicPublisher.Proofs.Admission.Doors
import TopicPublisher.Proofs.Engine.Accounts

/-!
Where the entries of publish calls are. A call that has returned has an outcome, unless its entry
is underway; what is underway was admitted, and stays out of the queue and the open batch once the
batching task is gone. A call waits for admission only if its message could be admitted.
-/

namespace TopicPublisher

namespace Custody

/-- A call that has returned has its outcome or an admitted entry underway. -/
structure Answered (k : Custody) : Prop where
  answered : ∀ call ∈ k.returned,
    call ∈ k.resolved.map Prod.fst ∨ call ∈ k.underway.map Entry.id
  admitted : ∀ x ∈ k.underway, x ∈ k.admitted

/-- Entries are where they can go on. -/
structure Placed (c : Config) (k : Custody) : Prop extends k.Answered where
  idle : k.batching ≠ .running → k.current = [] ∧ k.queue = []
  fits : ∀ x ∈ k.blocked, ∀ limit, c.ceilings.bytes = some limit → x.size ≤ limit

variable {c : Config} {mayCrash : Prop} {k l : Custody} {x : Entry}

/-- Entries that are underway may change places, and outcomes be given. -/
theorem Answered.rearrange (h : k.Answered) (underway : ∀ x, x ∈ l.underway ↔ x ∈ k.underway)
    (returned : l.returned = k.returned) (admitted : l.admitted = k.admitted)
    (resolved : l.resolved = k.resolved) : l.Answered := by
  refine ⟨fun call hc => ?_, fun x hx => admitted ▸ h.admitted x ((underway x).mp hx)⟩
  rw [resolved]
  refine (h.answered call (returned ▸ hc)).imp_right fun there => ?_
  obtain ⟨x, hx, same⟩ := List.mem_map.mp there
  exact same ▸ List.mem_map_of_mem ((underway x).mpr hx)

theorem Answered.answer (h : k.Answered) {call : Nat} {outcome : Outcome} :
    Answered { k with
      returned := k.returned ++ [call]
      resolved := k.resolved ++ [(call, outcome)] } := by
  refine ⟨fun other ho => ?_, h.admitted⟩
  rw [List.map_append]
  rcases List.mem_append.mp ho with ho | ho
  · exact (h.answered other ho).imp_left (List.mem_append_left _)
  · exact .inl (List.mem_append_right _ ho)

theorem Answered.enqueue (h : k.Answered) (rest : List Entry) :
    ({ k with granted := rest, queue := k.queue ++ [x] }.note
      [.admitted x, .returned x.id]).Answered := by
  rw [note_enqueued]
  have underway : Custody.underway { k with
      granted := rest, queue := k.queue ++ [x], admitted := k.admitted ++ [x]
      returned := k.returned ++ [x.id] } = k.underway ++ [x] := by
    simp [Custody.underway, outstanding]
  refine ⟨fun call hc => ?_, fun y hy => ?_⟩
  · rw [underway, List.map_append]
    rcases List.mem_append.mp hc with hc | hc
    · exact (h.answered call hc).imp_right (List.mem_append_left _)
    · exact .inr (List.mem_append_right _ hc)
  · rw [underway] at hy
    rcases List.mem_append.mp hy with hy | hy
    · exact List.mem_append_left _ (h.admitted y hy)
    · exact List.mem_append_right _ hy

theorem Answered.resolve (h : k.Answered) {outcome : Outcome} {rest : List (Entry × Outcome)}
    (hx : k.ending = (x, outcome) :: rest) :
    (({ k with ending := rest }.relinquish x).note
      [.released x.id, .resolved x.id outcome]).Answered := by
  rw [note_ended]
  have places : k.underway = x :: (rest.map Prod.fst ++ k.outstanding) := by
    rw [underway, hx]
    rfl
  refine ⟨fun call hc => ?_, fun y hy => h.admitted y (places ▸ List.mem_cons_of_mem _ hy)⟩
  have before := h.answered call hc
  rw [places, List.map_cons, List.mem_cons] at before
  rcases before with there | rfl | left
  · exact .inl (by rw [List.map_append]; exact List.mem_append_left _ there)
  · exact .inl (by rw [List.map_append]; exact List.mem_append_right _ (List.mem_singleton_self _))
  · exact .inr left

theorem Placed.decided (h : k.Placed c) (d : Decision) (a : Admission)
    (fits : d = .waiting → ∀ limit, c.ceilings.bytes = some limit → x.size ≤ limit) :
    (k.decided x d a).Placed c := by
  cases d with
  | granted => exact { h with toAnswered := h.toAnswered.rearrange (fun _ => .rfl) rfl rfl rfl }
  | refused error =>
    exact { h with toAnswered := h.toAnswered.rearrange (fun _ => .rfl) rfl rfl rfl }
  | waiting =>
    refine { h with
      toAnswered := h.toAnswered.rearrange (fun _ => .rfl) rfl rfl rfl, fits := fun y hy => ?_ }
    rcases List.mem_append.mp hy with hy | hy
    · exact h.fits y hy
    · exact List.mem_singleton.mp hy ▸ fits rfl

/-- Every move leaves entries where they can go on. -/
theorem Placed.move (sound : k.Sound c) (h : k.Placed c) (move : k.Move c mayCrash l) :
    l.Placed c := by
  have kept := h.toAnswered
  cases move with
  | wait now _ => exact { h with toAnswered := kept.rearrange (fun _ => .rfl) rfl rfl rfl }
  | arrive x _ _ => exact { h with toAnswered := kept.rearrange (fun _ => .rfl) rfl rfl rfl }
  | reserve x rest _ _ =>
    have left : Placed c { k with asking := rest } :=
      { h with toAnswered := kept.rearrange (fun _ => .rfl) rfl rfl rfl }
    refine left.decided _ _ fun waits limit hc => ?_
    exact Admission.reserve_waits waits limit (sound.balanced.ceilings.symm ▸ hc)
  | resume x hx =>
    have left : Placed c { k with blocked := k.blocked.filter (·.id != x.id) } :=
      { h with
        toAnswered := kept.rearrange (fun _ => .rfl) rfl rfl rfl
        fits := fun y hy => h.fits y (List.mem_of_mem_filter hy) }
    exact left.decided _ _ fun _ => h.fits x hx
  | refuse x rest error _ =>
    rw [note_refused]
    exact { h with toAnswered := kept.answer.rearrange (fun _ => .rfl) rfl rfl rfl }
  | enqueue x rest _ running =>
    refine { h with toAnswered := kept.enqueue rest, idle := fun stopped => ?_ }
    exact absurd running stopped
  | turnAway x rest error _ =>
    rw [note_turnedAway]
    exact { h with toAnswered := kept.answer.rearrange (fun _ => .rfl) rfl rfl rfl }
  | cancel call =>
    exact { h with
      toAnswered := kept.rearrange (fun _ => .rfl) rfl rfl rfl
      fits := fun y hy => h.fits y (List.mem_of_mem_filter hy) }
  | close => exact { h with toAnswered := kept.rearrange (fun _ => .rfl) rfl rfl rfl }
  | take x rest running hq =>
    refine { h with
      toAnswered := kept.rearrange (fun y => ?_) rfl rfl rfl
      idle := fun stopped => absurd running stopped }
    simp [underway, outstanding, hq]
  | dispatch b current running hc =>
    rw [note_dispatched]
    refine { h with
      toAnswered := kept.rearrange (fun y => ?_) rfl rfl rfl
      idle := fun stopped => absurd running stopped }
    simp [underway, outstanding, hc]
  | finish n b result hb none parallel _ =>
    have places := sound.kept.finish_places hb none parallel
    cases result <;> exact { h with
      toAnswered := kept.rearrange (fun _ => places.mem_iff) rfl rfl rfl }
  | kill running none _ =>
    refine { h with
      toAnswered := kept.rearrange (fun y => ?_) rfl rfl rfl
      idle := fun _ => ⟨rfl, rfl⟩ }
    simp only [underway, outstanding, none, List.map_map, Function.comp_def, List.map_id',
      List.map_nil, List.nil_append, List.append_nil]
    rw [List.append_assoc _ k.current]
    exact List.perm_append_comm.mem_iff
  | resolve x outcome rest hx => exact { h with toAnswered := kept.resolve hx }
  | retire running hc hq =>
    exact { h with
      toAnswered := kept.rearrange (fun _ => .rfl) rfl rfl rfl
      idle := fun _ => ⟨hc, hq⟩ }
  | call n attempt b _ =>
    rw [note_called]
    exact { h with toAnswered := kept.rearrange (fun _ => .rfl) rfl rfl rfl }

/-! Admission -/

theorem Move.tight (move : k.Move c mayCrash l) (tight : k.admission.Tight) :
    l.admission.Tight := by
  cases move with
  | reserve x rest _ _ =>
    rw [admission_decided]
    exact tight.changed (Admission.reserve_changed _ _ _)
  | resume x _ =>
    rw [admission_decided]
    exact tight.changed (Admission.resume_changed tight _)
  | turnAway x rest error _ => exact tight.changed (Admission.release_changed _ x.id)
  | cancel call => exact tight.changed (Admission.cancel_changed _ call)
  | close => exact Admission.close_tight _
  | finish n b result _ _ _ _ =>
    rw [counted_admission]
    exact tight
  | resolve x outcome rest _ => exact tight.changed (Admission.release_changed _ x.id)
  | _ => exact tight

/-- Those who are told to go on are publish calls that wait. -/
theorem Sound.told_blocked (h : k.Sound c) {call : Nat} (told : call ∈ k.admission.told) :
    call ∈ k.blocked.map Entry.id := by
  have waits := h.balanced.told_waiting told
  rw [← Admission.asked_ids] at waits
  have asked := (h.kept.asked.map Reservation.id).subset waits
  rwa [List.map_map] at asked

end Custody

namespace Engine

variable {σ τ : Type} {v : Service σ τ} {c : Config} {e : Engine σ τ}

theorem start_placed (c : Config) (service : σ) :
    (start c service : Engine σ τ).custody.Placed c := by
  refine ⟨⟨?_, ?_⟩, ?_, ?_⟩ <;>
    simp [custody, start, Custody.underway, Custody.outstanding, returned, events,
      List.filterMap_cons]

theorem Reachable.placed (h : Reachable v c e) : e.custody.Placed c :=
  h.keeps (start_placed c) fun sound placed move => placed.move sound move

/-- Where nothing is outstanding, every handle that was returned has its outcome. -/
theorem Reachable.answered (h : Reachable v c e) (done : e.custody.outstanding = [])
    {call : Nat} (returned : call ∈ e.returned) : (e.outcomeOf call).isSome = true := by
  rcases h.placed.answered call returned with resolved | there
  · exact outcomeOf_isSome h.sound.kept resolved
  · rw [show e.custody.underway = [] from done] at there
    cases there

theorem Reachable.tight (h : Reachable v c e) : e.admission.Tight :=
  h.keeps (motive := fun k => k.admission.Tight)
    (fun _ => Admission.ofCeilings_tight c.ceilings) fun _ tight move => move.tight tight

end Engine
end TopicPublisher
