import TopicPublisher.Proofs.Admission.Closing
import TopicPublisher.Proofs.Engine.Survival
import TopicPublisher.Proofs.Engine.Transit.Steps

/-!
Publish calls that are not admitted. Main statement: a turn of such a call changes nothing of what
is on its way to the service and counts nothing but a rejection, and once the call is over no part
of the engine knows its message and no permit is taken in its name.
-/

namespace TopicPublisher

/-- Counts the outcome of a handle that had failed when it was returned. -/
def Counters.countRefusal (counters : Counters) : Nat × Outcome → Counters
  | (_, .error error) => if error.isRejection then counters.countRejection else counters
  | (_, .ok _) => counters

namespace Custody

variable {c : Config} {mayCrash : Prop} {k l : Custody}

/-- Only admitted entries are ever dispatched. -/
def Drawn (k : Custody) : Prop := ∀ d ∈ k.dispatches, ∀ x ∈ d.2.entries, x ∈ k.admitted

theorem Drawn.decided (h : k.Drawn) (x : Entry) (d : Decision) (a : Admission) :
    (k.decided x d a).Drawn := by
  cases d <;> exact h

theorem Drawn.move (placed : k.Placed c) (h : k.Drawn) (move : k.Move c mayCrash l) : l.Drawn := by
  cases move with
  | reserve x rest _ _ => exact Drawn.decided (k := { k with asking := rest }) h x _ _
  | resume x _ =>
    exact Drawn.decided (k := { k with blocked := k.blocked.filter (·.id != x.id) }) h x _ _
  | refuse x rest error _ =>
    rw [note_refused]
    exact h
  | enqueue x rest _ _ =>
    rw [note_enqueued]
    exact fun d hd y hy => List.mem_append_left _ (h d hd y hy)
  | turnAway x rest error _ =>
    rw [note_turnedAway]
    exact h
  | dispatch b current _ hc =>
    rw [note_dispatched]
    intro d hd y hy
    rcases List.mem_append.mp hd with hd | hd
    · exact h d hd y hy
    · rw [List.mem_singleton.mp hd] at hy
      have there : y ∈ k.current := hc ▸ List.mem_append_left _ hy
      refine placed.admitted y (List.mem_append_right _ ?_)
      exact List.mem_append_left _ (List.mem_append_right _ there)
  | finish n b result _ _ _ _ => cases result <;> exact h
  | resolve x outcome rest _ =>
    rw [note_ended]
    exact h
  | call n attempt b _ =>
    rw [note_called]
    exact h
  | _ => exact h

end Custody

namespace Engine

variable {σ τ : Type} {v : Service σ τ} {c : Config} {e f g : Engine σ τ} {x : Entry} {call : Nat}

/-! Turns of publish calls -/

/-- The turns of the publish call that brings an entry: it is made, it is looked at while it waits,
or it is given up while it waits. -/
inductive PublishTurn (v : Service σ τ) (c : Config) (x : Entry) (e : Engine σ τ) :
    Engine σ τ → Prop where
  | make : 0 < e.clones → x.id ∉ e.returned → x.id ∉ e.blocked.map Entry.id →
      PublishTurn v c x e (e.publish x)
  | look : x ∈ e.blocked → .publishing x.id ∈ e.ready →
      PublishTurn v c x e (e.run v c (.publishing x.id))
  | giveUp : x ∈ e.blocked → PublishTurn v c x e (e.cancel x.id)

theorem PublishTurn.step (turn : PublishTurn v c x e f) : Step v c e f := by
  cases turn with
  | make clones new unused => exact .publish x clones new unused
  | look _ ready => exact .run _ ready
  | giveUp waits => exact .cancel _ (List.mem_map_of_mem waits)

theorem PublishTurn.new (h : Reachable v c e) (turn : PublishTurn v c x e f) :
    x.id ∉ e.returned := by
  cases turn with
  | make _ new _ => exact new
  | look waits _ | giveUp waits =>
    exact h.sound.kept.unreturned x (List.mem_append_right _ waits)

/-- Nothing on its way to the service is touched, and of the handles that get their outcomes at
once only those that were refused for want of room are counted. -/
structure Aside (e f : Engine σ τ) : Prop where
  transit : f.transit = e.transit
  counts : ∃ given, f.resolved = e.resolved ++ given ∧
    f.counters = given.foldl Counters.countRefusal e.counters

theorem Aside.of_same (transit : f.transit = e.transit) (resolved : f.resolved = e.resolved)
    (counters : f.counters = e.counters) : Aside e f :=
  ⟨transit, [], by rw [resolved, List.append_nil], counters⟩

theorem Aside.trans (first : Aside e f) (second : Aside f g) : Aside e g := by
  obtain ⟨given, resolved, counters⟩ := first.counts
  obtain ⟨more, later, counted⟩ := second.counts
  refine ⟨second.transit.trans first.transit, given ++ more, ?_, ?_⟩
  · rw [later, resolved, List.append_assoc]
  · rw [counted, counters, List.foldl_append]

theorem refuse_aside (e : Engine σ τ) (call : Nat) {error : PublishError}
    (plain : error.isRejection = false) : Aside e (e.refuse call error) := by
  refine ⟨transit_refuse e call error, _, resolved_refuse e call error, ?_⟩
  rw [List.foldl_cons, List.foldl_nil, Counters.countRefusal, if_neg (Bool.eq_false_iff.mp plain)]
  rfl

theorem releaseCall_aside (e : Engine σ τ) (call : Nat) : Aside e (e.releaseCall call) :=
  .of_same (transit_releaseCall e call) (resolved_releaseCall e call)
    (by rw [releaseCall_eq]; rfl)

/-- Admission may change, with the calls that wait for it. -/
theorem wakeCalls_aside (e : Engine σ τ) (a : Admission) (blocked : List Entry)
    (calls : List Nat) :
    Aside e ({ e with admission := a, blocked := blocked }.wakeCalls calls) := by
  rw [wakeCalls_eq]
  exact .of_same rfl rfl rfl

/-- What admission decides about an entry is not seen, unless the entry is admitted. -/
theorem Decided.aside {d : Decision} (decided : Decided e x d f) :
    x ∈ f.admitted ∨ Aside e f := by
  cases decided with
  | waits => exact .inr (.of_same rfl rfl rfl)
  | refused error =>
    refine .inr ⟨transit_refused e x.id error, _, resolved_refuse _ x.id error, ?_⟩
    rw [List.foldl_cons, List.foldl_nil, Counters.countRefusal]
    rfl
  | accepted _ _ =>
    refine .inl ?_
    rw [wake_eq, admitted_note]
    exact List.mem_append_right _ (List.mem_singleton_self x)
  | late _ => exact .inr ((releaseCall_aside e x.id).trans (refuse_aside _ x.id rfl))
  | orphaned _ _ =>
    refine .inr ⟨?_, [(x.id, .error .engineShutdown)], ?_, ?_⟩
    · rw [transit_note_aside (by simp [Happening.inTransit]), transit_resolve]
    · rw [resolve, record_eq, note_note, resolved_note, resolved_releaseCall]
      rfl
    · rw [resolve_eq]
      rfl

theorem publish_aside (e : Engine σ τ) (x : Entry) :
    x ∈ (e.publish x).admitted ∨ Aside e (e.publish x) := by
  have arrives := publish_arrives e x
  generalize e.publish x = f at arrives ⊢
  cases arrives with
  | tooLarge _ | late _ _ => exact .inr (refuse_aside e x.id rfl)
  | asks _ _ decided => exact decided.aside.imp_right (wakeCalls_aside e _ e.blocked _).trans

theorem publishingTurn_aside (sound : e.custody.Sound c) (hx : x ∈ e.blocked) :
    x ∈ (e.publishingTurn x.id).admitted ∨ Aside e (e.publishingTurn x.id) := by
  have looks := publishingTurn_looks e x.id
  generalize e.publishingTurn x.id = f at looks ⊢
  cases looks with
  | gone gone => exact absurd (List.mem_map_of_mem hx) gone
  | asks y found decided =>
    obtain rfl : x = y := Option.some.inj ((find?_blocked sound hx).symm.trans found)
    exact decided.aside.imp_right (wakeCalls_aside e _ _ _).trans

theorem PublishTurn.aside (h : Reachable v c e) (turn : PublishTurn v c x e f) :
    x ∈ f.admitted ∨ Aside e f := by
  cases turn with
  | make _ _ _ => exact publish_aside e x
  | look waits _ =>
    rw [run_publishing]
    refine (publishingTurn_aside (e := { e with ready := e.ready.erase (.publishing x.id) })
      h.sound waits).imp_right fun looked => ?_
    exact Aside.trans (f := { e with ready := e.ready.erase (.publishing x.id) })
      (.of_same rfl rfl rfl) looked
  | giveUp _ =>
    refine .inr (.of_same (transit_cancel e x.id) (resolved_cancel e x.id) ?_)
    rw [cancel_eq]

/-- How a turn of a publish call ends. Calls that wait and calls that were given up have not
returned. -/
inductive Ending (e : Engine σ τ) (x : Entry) (f : Engine σ τ) : Prop where
  | admitted : f.admitted = e.admitted ++ [x] → f.returned = e.returned ++ [x.id] →
      f.resolved = e.resolved → Ending e x f
  | unreturned : f.admitted = e.admitted → f.returned = e.returned → f.resolved = e.resolved →
      Ending e x f
  | refused (error : PublishError) : e.Refuses x error → f.admitted = e.admitted →
      f.returned = e.returned ++ [x.id] → f.resolved = e.resolved ++ [(x.id, .error error)] →
      Ending e x f

theorem Handled.ending (blocked : List Entry) (h : Handled { e with blocked := blocked } x f) :
    Ending e x f := by
  cases h with
  | admitted _ _ desk resolved =>
    exact .admitted (congrArg Desk.admitted desk) (congrArg Desk.returned desk) resolved
  | waiting _ desk resolved =>
    exact .unreturned (congrArg Desk.admitted desk) (congrArg Desk.returned desk) resolved
  | refused error reason desk resolved =>
    exact .refused error (reason.congr rfl rfl) (congrArg Desk.admitted desk)
      (congrArg Desk.returned desk) resolved

theorem PublishTurn.ending (h : Reachable v c e) (turn : PublishTurn v c x e f) :
    Ending e x f := by
  cases turn with
  | make _ _ _ => exact Handled.ending e.blocked (publish_handled h.shut x)
  | look waits _ =>
    rw [run_publishing]
    have looked := publishingTurn_handled
      (e := { e with ready := e.ready.erase (.publishing x.id) }) h.sound h.tight h.shut waits
    have looked : Handled { e with blocked := e.blocked.filter (·.id != x.id) } x _ :=
      looked.congr rfl rfl rfl
    exact looked.ending _
  | giveUp _ =>
    have desk := desk_cancel e x.id
    exact .unreturned (congrArg Desk.admitted desk) (congrArg Desk.returned desk)
      (resolved_cancel e x.id)

/-! Calls that are over -/

/-- A step ends the turn of a call that had not returned, or no call returns in it. -/
theorem Visit.ending (kept : e.custody.Kept) (visit : Visit v c e f) :
    (f.admitted = e.admitted ∧ f.returned = e.returned) ∨
      ∃ x, x.id ∉ e.returned ∧ Ending e x f := by
  cases visit with
  | inner _ same | cancel _ same _ | clones _ _ _ same _ | shutdown _ _ _ same _
  | finish _ _ _ same _ =>
    exact .inl ⟨congrArg Desk.admitted same, congrArg Desk.returned same⟩
  | arrive x _ new handled => exact .inr ⟨x, new, Handled.ending e.blocked handled⟩
  | resume x hx handled =>
    exact .inr ⟨x, kept.unreturned x (List.mem_append_right _ hx), handled.ending _⟩

end Engine
end TopicPublisher
