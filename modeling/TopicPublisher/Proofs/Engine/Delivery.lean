import TopicPublisher.Proofs.Engine.Course
import TopicPublisher.Proofs.Engine.Order
import TopicPublisher.Proofs.Engine.Tally

/-!
The delivery of outcomes. At the reading at which the sending of a batch ends, all handles of the
batch get their outcomes.
-/

namespace TopicPublisher
namespace Transit

variable {σ τ : Type} {c : Config} {k l : Transit σ τ} {p : Nat × Happening}

theorem mem_log_dispatchAll {bs : List Batch} (there : p ∈ (k.dispatchAll bs).log) :
    p ∈ k.log ∨ p.2.ended? = none := by
  refine dispatchAll_carries (motive := fun m => p ∈ m.log → p ∈ k.log ∨ _) ?_ .inl bs there
  intro m b before there
  rcases List.mem_append.mp there with old | new
  · exact before old
  · exact .inr (List.mem_singleton.mp new ▸ rfl)

/-- No sending ends while entries are gathered. -/
theorem Gather.mem_log (gather : Gather c k l) (there : p ∈ l.log) :
    p ∈ k.log ∨ p.2.ended? = none := by
  cases gather with
  | enqueue x _ =>
    refine (List.mem_append.mp there).imp_right fun new => ?_
    exact List.mem_singleton.mp new ▸ rfl
  | add x rest closed batcher _ _ _ =>
    exact mem_log_dispatchAll (k := { k with queue := rest, batcher := batcher }) there
  | close _ _ =>
    refine (List.mem_append.mp there).imp_right fun new => ?_
    exact List.mem_singleton.mp new ▸ rfl
  | retire _ _ _ => exact .inl there
  | kill _ _ => exact .inl there

theorem Gathers.mem_log (gathers : Gathers c k l) (there : p ∈ l.log) :
    p ∈ k.log ∨ p.2.ended? = none := by
  induction gathers with
  | refl => exact .inl there
  | tail _ step ih =>
    rcases step.mem_log there with before | other
    · exact ih before
    · exact .inr other

end Transit

namespace Engine

variable {σ τ : Type} {v : Service σ τ} {c : Config} {e f g : Engine σ τ} {s : Sending τ}
  {t n : Nat} {b : Batch} {result : SendResult}

/-- The outcomes that the handle of a publish call was given, each with the reading at which it
was. -/
def deliveriesOf (e : Engine σ τ) (call : Nat) : List (Nat × Outcome) :=
  ((e.picked Happening.resolved?).filter (·.2.1 == call)).map fun d => (d.1, d.2.2)

theorem deliveriesOf_eq (kept : e.custody.Kept) {o : Nat × Outcome}
    (there : (t, .resolved o.1 o.2) ∈ e.history) : e.deliveriesOf o.1 = [(t, o.2)] := by
  have once : ((e.picked Happening.resolved?).map fun d => d.2.1).Nodup := by
    have ids : (e.resolved.map Prod.fst).Nodup := kept.resolvedOnce
    rwa [resolved, ← map_snd_picked, List.map_map] at ids
  have member : (t, o) ∈ e.picked Happening.resolved? :=
    (mem_picked fun _ _ => Happening.resolved?_eq_some).mpr there
  rw [deliveriesOf, filter_key once member, List.map_singleton]

theorem deliveriesOf_eq_nil {call : Nat} (none : call ∉ e.resolved.map Prod.fst) :
    e.deliveriesOf call = [] := by
  rw [deliveriesOf, List.map_eq_nil_iff, List.filter_eq_nil_iff]
  intro d hd same
  refine none (List.mem_map.mpr ⟨d.2, ?_, beq_iff_eq.mp same⟩)
  rw [resolved, ← map_snd_picked]
  exact List.mem_map_of_mem hd

/-! Turns of the tasks that send -/

/-- Nothing that was entered is the end of the sending of a batch. -/
def EndsNone (e f : Engine σ τ) : Prop :=
  ∀ t n result, (t, .sendEnded n result) ∈ f.history → (t, .sendEnded n result) ∈ e.history

/-- If the sending ends in a turn of its task, then all handles of the batch have their outcomes
from the same reading. -/
def Delivers (e : Engine σ τ) (s : Sending τ) (f : Engine σ τ) : Prop :=
  ∀ t n result, (t, .sendEnded n result) ∈ f.history →
    (t, .sendEnded n result) ∈ e.history ∨
      n = s.id ∧ ∀ o ∈ s.batch.ids.zip (result.outcomes s.batch.size),
        (t, .resolved o.1 o.2) ∈ f.history

theorem mem_note {hs : List Happening} {p : Nat × Happening} :
    p ∈ (e.note hs).history ↔ (p.1 = e.now ∧ p.2 ∈ hs) ∨ p ∈ e.history := by
  simp only [note, List.mem_append, List.mem_reverse, List.mem_map, Prod.ext_iff]
  refine or_congr_left ⟨?_, ?_⟩
  · rintro ⟨h, hh, now, same⟩
    exact ⟨now.symm, same ▸ hh⟩
  · rintro ⟨now, hh⟩
    exact ⟨p.2, hh, now.symm, rfl⟩

theorem note_endsNone (e : Engine σ τ) (hs : List Happening) (other : ∀ h ∈ hs, h.ended? = none) :
    e.EndsNone (e.note hs) := by
  intro t n result ended
  refine (mem_note.mp ended).resolve_left fun ⟨_, new⟩ => ?_
  cases other _ new

theorem EndsNone.delivers (h : e.EndsNone f) (s : Sending τ) : e.Delivers s f :=
  fun t n result ended => .inl (h t n result ended)

theorem EndsNone.then (h : e.EndsNone f) (delivers : f.Delivers s g) : e.Delivers s g :=
  fun t n result ended => (delivers t n result ended).imp_left (h t n result)

theorem endSending_delivers (e : Engine σ τ) (s : Sending τ) (result : SendResult) :
    e.Delivers s (e.endSending s result) := by
  intro t n r ended
  rw [endSending_history] at ended ⊢
  refine (mem_note.mp ended).symm.imp_right fun ⟨now, new⟩ => ?_
  have own : (n, r) ∈ (endOf s result ++ resolutionsOf
      (s.batch.ids.zip (result.outcomes s.batch.size))).filterMap Happening.ended? :=
    List.mem_filterMap.mpr ⟨_, new, rfl⟩
  rw [List.filterMap_append, (filterMap_endOf s result).2.2,
    (filterMap_resolutionsOf (s.batch.ids.zip (result.outcomes s.batch.size))).2.2] at own
  cases List.mem_singleton.mp own
  refine ⟨rfl, fun o ho => mem_note.mpr (.inl ⟨now, List.mem_append_right _ ?_⟩)⟩
  exact List.mem_flatMap.mpr ⟨o, ho, by simp⟩

theorem SendingTurn.delivers {again : Bool} (turn : SendingTurn v c e s (again, f)) :
    e.Delivers s f := by
  cases turn with
  | call timeout latency call service _ _ _ =>
    exact (e.note_endsNone [.logged _ _, .called _ _ _] (by simp)).delivers s
  | wait wake _ _ | resume wake error _ _ _ => exact (e.note_endsNone [] (by simp)).delivers s
  | settle timeout limit answerAt call reply service result _ _ _ =>
    have answered := e.note_endsNone [.answered s.id s.attempts reply] (by simp)
    exact answered.then (endSending_delivers _ s result)
  | fail timeout limit answerAt call reply service error _ _ _ =>
    exact (e.note_endsNone (.answered s.id s.attempts reply :: List.map _ _) (by simp)).delivers s
  | exhaust wake error _ _ _ => exact endSending_delivers e s _

/-! Steps -/

theorem run_delivers (here : e.sending? s.id = some s) :
    e.Delivers s (e.run v c (.sending s.id)) := by
  rcases run_sending v c e s.id with ⟨-, -, none⟩ | ⟨u, again, f, ready, same, found, -, turn⟩
  · exact nomatch none.symm.trans here
  · obtain rfl : u = s := Option.some.inj (found.symm.trans here)
    rw [same]
    exact turn.delivers

theorem gathers_endsNone (gathers : Transit.Gathers c e.transit f.transit) : e.EndsNone f := by
  intro t n result ended
  rcases gathers.mem_log (mem_log.mpr ⟨ended, rfl⟩) with old | new
  · exact (mem_log.mp old).1
  · cases new

/-- A sending ends only in a turn of its task. -/
theorem Step.delivers (sound : e.custody.Sound c) (step : Step v c e f) :
    e.EndsNone f ∨ ∃ s, e.sending? s.id = some s ∧ e.Delivers s f := by
  cases step.transits sound with
  | gather gathers => exact .inl (gathers_endsNone gathers)
  | forward s here turn _ =>
    rw [turn]
    exact .inr ⟨s, here, run_delivers here⟩
  | pass now _ moved =>
    left
    rw [moved, moveTo, wakeAll_eq]
    exact fun t n result => id

/-! Runs -/

theorem Reachable.dispatched_once (h : Reachable v c e) {b b' : Batch}
    (first : (n, b) ∈ e.dispatches) (second : (n, b') ∈ e.dispatches) : b = b' := by
  have once : (e.dispatches.map Prod.fst).Nodup := h.numbered ▸ List.nodup_range
  exact congrArg Prod.snd (List.inj_on_of_nodup_map once first second rfl)

/-- A batch whose sending has ended was dispatched. -/
theorem Reachable.dispatched_ended (h : Reachable v c e)
    (ended : (t, .sendEnded n result) ∈ e.history) : ∃ b, (n, b) ∈ e.dispatches := by
  have there : n ∈ e.sends.map Sending.id ++ e.results.map Prod.fst :=
    List.mem_append_right _ (List.mem_map_of_mem (mem_results (r := (n, result)).mpr ⟨t, ended⟩))
  rw [← transit_results] at there
  have counted := h.tallied.numbers.mem_iff.mp there
  obtain ⟨d, hd, rfl⟩ := List.mem_map.mp (h.numbered.symm ▸ counted : n ∈ e.dispatches.map Prod.fst)
  exact ⟨d.2, hd⟩

theorem Reachable.sending_dispatched (h : Reachable v c e) (hs : s ∈ e.sends) :
    (s.id, s.batch) ∈ e.dispatches :=
  h.ordered.sends _ (List.mem_map_of_mem hs)

/-- When the sending of a batch ends, each of its handles has the outcome that this end means for
it. -/
theorem Reachable.delivered (h : Reachable v c e) (dispatched : (n, b) ∈ e.dispatches)
    (ended : (t, .sendEnded n result) ∈ e.history) :
    ∀ o ∈ b.ids.zip (result.outcomes b.size), (t, .resolved o.1 o.2) ∈ e.history := by
  obtain ⟨service, run⟩ := h
  induction run generalizing n b with
  | refl =>
    cases List.mem_singleton.mp ended
  | @tail e f before step ih =>
    have reached : Reachable v c e := ⟨service, before⟩
    have later := reached.step step
    have earlier (old : (t, .sendEnded n result) ∈ e.history) :
        ∀ o ∈ b.ids.zip (result.outcomes b.size), (t, .resolved o.1 o.2) ∈ f.history := by
      obtain ⟨b', there⟩ := reached.dispatched_ended old
      obtain ⟨t', entered⟩ := mem_dispatches.mp there
      obtain rfl := later.dispatched_once dispatched (mem_dispatches.mpr ⟨t', step.keeps entered⟩)
      exact fun o ho => step.keeps (ih there old o ho)
    rcases step.delivers reached.sound with none | ⟨s, here, delivers⟩
    · exact earlier (none t n result ended)
    · rcases delivers t n result ended with old | ⟨rfl, given⟩
      · exact earlier old
      · have sent := reached.sending_dispatched (List.mem_of_find?_eq_some here)
        obtain ⟨t', entered⟩ := mem_dispatches.mp sent
        obtain rfl :=
          later.dispatched_once dispatched (mem_dispatches.mpr ⟨t', step.keeps entered⟩)
        exact given

end Engine
end TopicPublisher
