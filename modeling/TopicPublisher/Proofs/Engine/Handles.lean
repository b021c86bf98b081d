import TopicPublisher.Proofs.Engine.Progress

/-!
Handles and messages. A handle has an identifier only if its message was admitted, and where the
handles of all calls have outcomes they can be counted in place of the messages.
-/

namespace TopicPublisher
namespace Custody

/-- Only messages that were admitted have identifiers. -/
def Earned (k : Custody) : Prop :=
  ∀ o ∈ k.resolved, o.2.isOk = true → o.1 ∈ k.admitted.map Entry.id

variable {c : Config} {mayCrash : Prop} {k l : Custody} {x : Entry}

theorem Earned.fail (h : k.Earned) {l : Custody} {call : Nat} {error : PublishError}
    (admitted : l.admitted = k.admitted)
    (resolved : l.resolved = k.resolved ++ [(call, .error error)]) : l.Earned := by
  intro o ho earned
  rw [resolved] at ho
  rcases List.mem_append.mp ho with old | new
  · exact admitted ▸ h o old earned
  · rw [List.mem_singleton.mp new] at earned
    cases earned

theorem Earned.decided (h : k.Earned) (x : Entry) (d : Decision) (a : Admission) :
    (k.decided x d a).Earned := by
  cases d <;> exact h

theorem Earned.move (placed : k.Placed c) (h : k.Earned) (move : k.Move c mayCrash l) :
    l.Earned := by
  cases move with
  | wait | arrive | cancel | close | take | kill | retire => exact h
  | reserve x rest => exact Earned.decided (k := { k with asking := rest }) h x _ _
  | resume x =>
    exact Earned.decided (k := { k with blocked := k.blocked.filter (·.id != x.id) }) h x _ _
  | refuse x rest error =>
    rw [note_refused]
    exact h.fail rfl rfl
  | turnAway x rest error =>
    rw [note_turnedAway]
    exact h.fail rfl rfl
  | enqueue x rest =>
    rw [note_enqueued]
    intro o ho earned
    rw [List.map_append]
    exact List.mem_append_left _ (h o ho earned)
  | dispatch b current =>
    rw [note_dispatched]
    exact h
  | finish n b result =>
    cases result <;> exact h
  | resolve x outcome rest ending =>
    rw [note_ended]
    intro o ho earned
    rcases List.mem_append.mp ho with old | new
    · exact h o old earned
    · rw [List.mem_singleton.mp new]
      refine List.mem_map_of_mem (placed.admitted x ?_)
      rw [underway, ending]
      exact List.mem_append_left _ (List.mem_cons_self ..)
  | call n attempt b =>
    rw [note_called]
    exact h

end Custody

namespace Engine

variable {σ τ : Type} {v : Service σ τ} {c : Config} {e : Engine σ τ}

theorem Reachable.earned (h : Reachable v c e) : e.custody.Earned := by
  have both : e.custody.Placed c ∧ e.custody.Earned :=
    h.keeps (motive := fun k => k.Placed c ∧ k.Earned)
      (fun service => ⟨start_placed c service, nofun⟩)
      (fun sound both move => ⟨both.1.move sound move, both.2.move both.1 move⟩)
  exact both.2

/-- Where outcomes of a kind are given to admitted messages only, as many handles have one as
messages. -/
theorem Reachable.countP_resolved (h : Reachable v c e) {q : Outcome → Bool}
    (only : ∀ o ∈ e.resolved, q o.2 = true → o.1 ∈ e.admitted.map Entry.id) :
    e.resolved.countP (q ·.2) = e.admitted.countP fun x => (e.outcomeOf x.id).any q := by
  have kept := h.sound.kept
  have handles : ((e.resolved.filter (q ·.2)).map Prod.fst).Nodup :=
    kept.resolvedOnce.sublist (List.filter_sublist.map _)
  have messages : ((e.admitted.filter fun x => (e.outcomeOf x.id).any q).map Entry.id).Nodup :=
    h.ordered.admitted.sublist (List.filter_sublist.map _)
  have same : ((e.resolved.filter (q ·.2)).map Prod.fst).Perm
      ((e.admitted.filter fun x => (e.outcomeOf x.id).any q).map Entry.id) := by
    refine (List.perm_ext_iff_of_nodup handles messages).mpr fun call => ⟨?_, ?_⟩
    · intro handle
      obtain ⟨o, ho, rfl⟩ := List.mem_map.mp handle
      obtain ⟨there, kind⟩ := List.mem_filter.mp ho
      obtain ⟨x, hx, id⟩ := List.mem_map.mp (only o there kind)
      refine List.mem_map.mpr ⟨x, List.mem_filter.mpr ⟨hx, ?_⟩, id⟩
      rw [id, outcomeOf_eq_some kept there]
      exact kind
    · intro message
      obtain ⟨x, hx, rfl⟩ := List.mem_map.mp message
      obtain ⟨outcome, known, kind⟩ := (Option.any_eq_true ..).mp (List.mem_filter.mp hx).2
      exact List.mem_map.mpr ⟨_, List.mem_filter.mpr ⟨mem_resolved known, kind⟩, rfl⟩
  have length := same.length_eq
  rwa [List.length_map, List.length_map, ← List.countP_eq_length_filter,
    ← List.countP_eq_length_filter] at length

/-- Where nothing is outstanding, the calls that returned are those with outcomes. -/
theorem Reachable.resolved_perm (h : Reachable v c e) (done : e.custody.outstanding = [])
    (distinct : e.returned.Nodup) : (e.resolved.map Prod.fst).Perm e.returned := by
  have kept := h.sound.kept
  refine (List.perm_ext_iff_of_nodup kept.resolvedOnce distinct).mpr fun call => ⟨?_, ?_⟩
  · exact fun resolved => kept.past call (.inl resolved)
  · intro returned
    obtain ⟨outcome, known⟩ := Option.isSome_iff_exists.mp (h.answered done returned)
    exact List.mem_map_of_mem (mem_resolved known)

/-- The messages that count as published are the handles with identifiers. -/
theorem Reachable.published_eq (calm : ¬ v.MayCrash) (h : Reachable v c e)
    (alive : e.batching ≠ .killed) :
    e.counters.messagesPublished = UInt64.ofNat (e.resolved.countP (·.2.isOk)) := by
  obtain ⟨done, accounts⟩ := h.accounted calm alive
  have published : e.counters.messagesPublished = _ := accounts.published
  rw [published, h.countP_resolved h.earned, countP_admitted h.sound.kept accounts]
  exact congrArg (fun xs => UInt64.ofNat (List.countP _ xs)) (List.append_nil done)

/-- Where every message was admitted, those that count as failed are the handles with errors. -/
theorem Reachable.failed_eq (calm : ¬ v.MayCrash) (h : Reachable v c e)
    (alive : e.batching ≠ .killed) (all : e.returned ⊆ e.admitted.map Entry.id) :
    e.counters.messagesFailed = UInt64.ofNat (e.resolved.countP (!·.2.isOk)) := by
  obtain ⟨done, accounts⟩ := h.accounted calm alive
  have failed : e.counters.messagesFailed = _ := accounts.failed
  have only : ∀ o ∈ e.resolved, (!o.2.isOk) = true → o.1 ∈ e.admitted.map Entry.id :=
    fun o ho _ => all (h.sound.kept.past o.1 (.inl (List.mem_map_of_mem ho)))
  rw [failed, h.countP_resolved (q := (!·.isOk)) only, countP_admitted h.sound.kept accounts]
  exact congrArg (fun xs => UInt64.ofNat (List.countP _ xs)) (List.append_nil done)

end Engine
end TopicPublisher
