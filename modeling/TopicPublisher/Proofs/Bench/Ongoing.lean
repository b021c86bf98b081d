import Mathlib.Data.List.Perm.Subperm
import TopicPublisher.Proofs.Engine.Load
import TopicPublisher.Session.Basic

/-!
Sessions in which clients publish and do nothing else. Every message is of a call that has
returned, of one that waits, or still to be published by the client of one; and with every turn of
a task the load goes down, so that all that is ready comes to rest.
-/

namespace TopicPublisher

/-- The calls of a client that have not returned. -/
def Client.calls (client : Client) : List Nat := client.waiting :: client.rest.map Entry.id

/-- Without a ceiling on bytes, and while nobody shuts it, admission that blocks turns nobody
away. -/
theorem Admission.reserve_blocks {a : Admission} {error : PublishError} (opened : a.Shut false)
    (unlimited : a.ceilings.bytes = none) (blocks : a.ceilings.behavior = .block)
    (id size : Nat) : (a.reserve id size).1 ≠ .refused error := by
  have permits : a.ceilings.bytePermits size = .ok 0 := by
    unfold Ceilings.bytePermits
    rw [unlimited]
  unfold reserve
  rw [permits, blocks]
  dsimp only
  have asked := askElement_open opened id size
  have changed := askElement_changed a id size
  generalize a.askElement id size = answer at asked changed
  obtain ⟨answer, b⟩ := answer
  cases answer with
  | taken => exact takeBytes_open (opened.changed changed)
  | queued => exact nofun
  | refused => exact absurd rfl asked

namespace Engine

variable {σ τ : Type} {c : Config} {e f : Engine σ τ} {x : Entry} {most : Nat}

theorem isBlocked_iff {call : Nat} :
    e.isBlocked call = true ↔ call ∈ e.blocked.map Entry.id := by
  simp [isBlocked]

theorem Decided.resolved {d : Decision} (decided : Decided e x d f) (opened : e.closing = false)
    (running : e.batching = .running) (kept : ∀ error, d ≠ .refused error) :
    f.resolved = e.resolved := by
  cases decided with
  | waits => rfl
  | refused error => exact absurd rfl (kept error)
  | accepted _ _ =>
    rw [resolved_note, wake_eq]
    exact List.append_nil _
  | late closing => exact nomatch opened.symm.trans closing
  | orphaned _ stopped => exact absurd running stopped

theorem publish_resolved (h : e.Lively c most) (blocks : c.ceilings.behavior = .block)
    (sendable : x.size ≤ maxBatchBytes) : (e.publish x).resolved = e.resolved := by
  have same := h.balanced.ceilings
  have kept {error : PublishError} : (e.admission.reserve x.id x.size).1 ≠ .refused error :=
    Admission.reserve_blocks h.shut (same ▸ h.unlimited) (same ▸ blocks) x.id x.size
  obtain ⟨d, a, answered, -⟩ := Admission.reserve_enters h.balanced h.tight h.shut x.id x.size
  rw [answered] at kept
  have arrives := publish_arrives e x
  generalize e.publish x = f at arrives ⊢
  cases arrives with
  | tooLarge large => exact absurd large (Nat.not_lt.mpr sendable)
  | late _ closing => exact nomatch h.opened.symm.trans closing
  | asks _ _ decided =>
    rw [answered] at decided
    exact Decided.resolved (e := { e with admission := a }) decided h.opened h.running fun _ => kept

theorem publishingTurn_resolved (h : e.Lively c most) (call : Nat) :
    (e.publishingTurn call).resolved = e.resolved := by
  have looks := publishingTurn_looks e call
  generalize e.publishingTurn call = f at looks ⊢
  cases looks with
  | gone _ => rfl
  | asks x _ decided =>
    have kept {error : PublishError} : (e.admission.resume call).1 ≠ .refused error :=
      Admission.resume_open h.tight h.shut call
    obtain ⟨d, a, answered, -⟩ := Admission.resume_resumes h.balanced h.shut call
    rw [answered] at kept decided
    exact Decided.resolved
      (e := { e with admission := a, blocked := e.blocked.filter (·.id != call) }) decided h.opened
      h.running fun _ => kept

end Engine

namespace Session

variable {σ τ : Type} {v : Service σ τ} {c : Config} {s : Session σ τ} {f : Engine σ τ} {x : Entry}
  {size most : Nat} {rest : List Entry} {active : List (List Entry)}

/-- Every message has the same size and is of a call that returned, of a client that waits, or
among the `active` ones that clients are about to publish. -/
structure Counted (size : Nat) (active : List (List Entry)) (s : Session σ τ) : Prop where
  opened : s.engine.closing = false
  clones : s.engine.clones = s.clients.length + active.length + 1
  blocked : (s.engine.blocked.map Entry.id).Perm (s.clients.map Client.waiting)
  numbers : (s.engine.returned ++ (s.clients.flatMap Client.calls ++
    active.flatMap (·.map Entry.id))).Perm (List.range s.published)
  plain : ∀ client ∈ s.clients, client.thenShutdown = false
  sizes : ∀ x ∈ s.engine.blocked ++ (s.clients.flatMap Client.rest ++ active.flatten),
    x.size = size
  taken : size ≤ maxBatchBytes → s.engine.returned ⊆ s.engine.admitted.map Entry.id

theorem Counted.nodup (h : s.Counted size active) : (s.engine.returned ++
    (s.clients.flatMap Client.calls ++ active.flatMap (·.map Entry.id))).Nodup :=
  h.numbers.nodup_iff.mpr List.nodup_range

theorem Counted.fresh (h : s.Counted size ((x :: rest) :: active)) :
    x.id ∉ s.engine.returned ∧ x.id ∉ s.engine.blocked.map Entry.id := by
  obtain ⟨-, others, apart⟩ := List.nodup_append.mp h.nodup
  obtain ⟨-, -, aside⟩ := List.nodup_append.mp others
  have here : x.id ∈ ((x :: rest) :: active).flatMap (·.map Entry.id) :=
    List.mem_append_left _ (List.mem_cons_self ..)
  refine ⟨fun there => apart _ there _ (List.mem_append_right _ here) rfl, fun there => ?_⟩
  obtain ⟨client, hc, same⟩ := List.mem_map.mp (h.blocked.subset there)
  exact aside _ (List.mem_flatMap.mpr ⟨client, hc, List.mem_cons_self ..⟩) _ here same

theorem Counted.return (h : s.Counted size ((x :: rest) :: active))
    (opened : f.closing = false) (clones : f.clones = s.engine.clones)
    (blocked : f.blocked = s.engine.blocked) (returned : f.returned = s.engine.returned ++ [x.id])
    (taken : size ≤ maxBatchBytes → f.returned ⊆ f.admitted.map Entry.id) :
    Counted size (rest :: active) { s with engine := f } where
  opened := opened
  clones := clones.trans h.clones
  blocked := blocked ▸ h.blocked
  numbers := by
    have moved : (x.id :: (s.clients.flatMap Client.calls ++
        (rest :: active).flatMap (·.map Entry.id))).Perm
        (s.clients.flatMap Client.calls ++ ((x :: rest) :: active).flatMap (·.map Entry.id)) :=
      List.perm_middle.symm
    refine .trans (.of_eq ?_) ((moved.append_left s.engine.returned).trans h.numbers)
    rw [returned, List.append_assoc, List.singleton_append]
  plain := h.plain
  sizes y hy := h.sizes y (by
    rw [← blocked]
    refine (List.Sublist.append_left ?_ _).subset hy
    exact (List.sublist_cons_self x _).append_left _)
  taken := taken

theorem Counted.wait (h : s.Counted size ((x :: rest) :: active))
    (opened : f.closing = false) (clones : f.clones = s.engine.clones)
    (blocked : f.blocked = s.engine.blocked ++ [x]) (returned : f.returned = s.engine.returned)
    (admitted : f.admitted = s.engine.admitted) :
    Counted size active
      { s with engine := f, clients := s.clients ++ [⟨x.id, rest, false⟩] } where
  opened := opened
  clones := by
    rw [clones, h.clones, List.length_append, List.length_cons, List.length_singleton]
    omega
  blocked := by
    rw [blocked, List.map_append, List.map_append]
    exact h.blocked.append_right _
  numbers := by
    rw [returned]
    refine .trans (.of_eq ?_) h.numbers
    simp [Client.calls, List.flatMap_append]
  plain client hc := by
    rcases List.mem_append.mp hc with old | new
    · exact h.plain client old
    · rw [List.mem_singleton.mp new]
  sizes y hy := h.sizes y (by
    rw [blocked] at hy
    simp only [List.flatMap_append, List.flatMap_singleton, List.mem_append,
      List.flatten_cons, List.mem_cons] at hy ⊢
    tauto)
  taken sendable := by
    rw [returned, admitted]
    exact h.taken sendable

theorem Counted.handled (h : s.Counted size ((x :: rest) :: active))
    (handled : s.engine.Handled x f)
    (silent : size ≤ maxBatchBytes → f.resolved = s.engine.resolved) :
    (f.isBlocked x.id = true ∧ Counted size active
      { s with engine := f, clients := s.clients ++ [⟨x.id, rest, false⟩] }) ∨
    (f.isBlocked x.id = false ∧ Counted size (rest :: active) { s with engine := f }) := by
  have unblocked (same : f.blocked = s.engine.blocked) : f.isBlocked x.id = false :=
    Bool.eq_false_iff.mpr fun there =>
      h.fresh.2 (Engine.isBlocked_iff.mp (by rwa [Engine.isBlocked, ← same]))
  cases handled with
  | admitted _ _ same _ =>
    have blocked : f.blocked = s.engine.blocked := congrArg Desk.blocked same
    have returned : f.returned = s.engine.returned ++ [x.id] := congrArg Desk.returned same
    have admitted : f.admitted = s.engine.admitted ++ [x] := congrArg Desk.admitted same
    have taken (sendable : size ≤ maxBatchBytes) : f.returned ⊆ f.admitted.map Entry.id := by
      rw [returned, admitted, List.map_append]
      exact List.append_subset.mpr ⟨List.subset_append_of_subset_left _ (h.taken sendable),
        List.subset_append_right _ _⟩
    exact .inr ⟨unblocked blocked, h.return (congrArg Desk.closing same |>.trans h.opened)
      (congrArg Desk.clones same) blocked returned taken⟩
  | refused error _ same resolved =>
    have blocked : f.blocked = s.engine.blocked := congrArg Desk.blocked same
    have taken (sendable : size ≤ maxBatchBytes) : f.returned ⊆ f.admitted.map Entry.id :=
      nomatch List.append_right_eq_self.mp (resolved.symm.trans (silent sendable))
    exact .inr ⟨unblocked blocked, h.return (congrArg Desk.closing same |>.trans h.opened)
      (congrArg Desk.clones same) blocked (congrArg Desk.returned same) taken⟩
  | waiting _ same _ =>
    have blocked : f.blocked = s.engine.blocked ++ [x] := congrArg Desk.blocked same
    refine .inl ⟨Engine.isBlocked_iff.mpr ?_, ?_⟩
    · rw [blocked, List.map_append]
      exact List.mem_append_right _ (List.mem_singleton.mpr rfl)
    exact h.wait ((congrArg Desk.closing same).trans h.opened) (congrArg Desk.clones same) blocked
      (congrArg Desk.returned same) (congrArg Desk.admitted same)

/-- Only the desk of the engine and the clients that there are matter. -/
theorem Counted.congr (h : s.Counted size active) (desk : f.desk = s.engine.desk)
    {clients : List Client} (perm : s.clients.Perm clients) :
    Counted size active { s with engine := f, clients := clients } where
  opened := (congrArg Desk.closing desk).trans h.opened
  clones := (congrArg Desk.clones desk).trans (perm.length_eq ▸ h.clones)
  blocked := by
    rw [show f.blocked = s.engine.blocked from congrArg Desk.blocked desk]
    exact h.blocked.trans (perm.map _)
  numbers := by
    rw [show f.returned = s.engine.returned from congrArg Desk.returned desk]
    exact (((perm.flatMap_right _).symm.append_right _).append_left _).trans h.numbers
  plain client hc := h.plain client (perm.mem_iff.mpr hc)
  sizes y hy := h.sizes y (by
    rw [show s.engine.blocked = f.blocked from (congrArg Desk.blocked desk).symm]
    have same := (perm.flatMap_right Client.rest).append_right active.flatten
    exact (same.append_left _).mem_iff.mpr hy)
  taken sendable := by
    rw [show f.returned = s.engine.returned from congrArg Desk.returned desk,
      show f.admitted = s.engine.admitted from congrArg Desk.admitted desk]
    exact h.taken sendable

/-- A client that waits goes on with its call as if it were about to make it. -/
theorem Counted.resume (h : s.Counted size active)
    (nodup : (s.engine.blocked.map Entry.id).Nodup) (hx : x ∈ s.engine.blocked) :
    ∃ client ∈ s.clients, client.waiting = x.id ∧
      s.clients.Perm (client :: s.clients.filter (·.waiting != x.id)) ∧
      Counted size ((x :: client.rest) :: active)
        { s with
          engine := { s.engine with blocked := s.engine.blocked.filter (·.id != x.id) }
          clients := s.clients.filter (·.waiting != x.id) } := by
  obtain ⟨client, hc, waits⟩ := List.mem_map.mp (h.blocked.subset (List.mem_map_of_mem hx))
  have split := perm_cons_filter_key (h.blocked.nodup_iff.mp nodup) hc
  rw [waits] at split
  refine ⟨client, hc, waits, split, ?_⟩
  exact {
    opened := h.opened
    clones := by
      rw [show Engine.clones { s.engine with blocked := _ } = s.engine.clones from rfl, h.clones,
        split.length_eq, List.length_cons, List.length_cons]
      dsimp only
      omega
    blocked := by
      have others := h.blocked.filter (· != x.id)
      rwa [List.filter_map, List.filter_map] at others
    numbers := by
      refine .trans ?_ h.numbers
      refine .append_left _ ?_
      refine .trans ?_ ((split.flatMap_right _).symm.append_right _)
      rw [List.flatMap_cons, List.flatMap_cons, Client.calls, waits, List.append_assoc]
      exact List.perm_append_comm_assoc ..
    plain := fun other ho => h.plain other (List.mem_of_mem_filter ho)
    sizes := fun y hy => h.sizes y (by
      have parts := split.flatMap_right Client.rest
      simp only [List.mem_append, List.flatten_cons, List.mem_cons, List.flatMap_cons,
        parts.mem_iff] at hy ⊢
      rcases hy with there | there | (rfl | there) | there
      · exact .inl (List.mem_of_mem_filter there)
      · exact .inr (.inl (.inr there))
      · exact .inl hx
      · exact .inr (.inl (.inl there))
      · exact .inr (.inr there))
    taken := h.taken }

theorem Counted.follow_gone (h : s.Counted size active) {call : Nat}
    (gone : call ∉ s.engine.blocked.map Entry.id) : s.follow c call = s := by
  have nobody : s.clients.find? (·.waiting == call) = none :=
    List.find?_eq_none.mpr fun client hc waits =>
      gone (h.blocked.mem_iff.mpr (beq_iff_eq.mp waits ▸ List.mem_map_of_mem hc))
  unfold follow
  rw [if_neg (gone ∘ Engine.isBlocked_iff.mp), nobody]

/-! Steps -/

/-- A session that goes on: its clients publish messages, and its engine is driven. -/
structure Ongoing (v : Service σ τ) (c : Config) (size : Nat) (active : List (List Entry))
    (s : Session σ τ) : Prop where
  driven : Engine.Driven v c s.engine
  counted : s.Counted size active
  lasts : c.Lasts s.published

theorem Ongoing.admitted_le (h : s.Ongoing v c size active) :
    s.engine.admitted.length ≤ s.published := by
  have ordered := h.driven.reachable.ordered
  have admitted : (s.engine.admitted.map Entry.id).Subperm s.engine.returned :=
    List.subperm_of_subset ordered.admitted fun call there => by
      obtain ⟨x, hx, rfl⟩ := List.mem_map.mp there
      exact ordered.returned x hx
  have all := h.counted.numbers.length_eq
  have some := admitted.length_le
  rw [List.length_append, List.length_range] at all
  rw [List.length_map] at some
  omega

theorem Ongoing.lively (h : s.Ongoing v c size active) (steady : c.Steady most) :
    s.engine.Lively c most := by
  refine h.driven.lively steady (h.lasts.mono h.admitted_le) h.counted.opened ?_
  rw [h.counted.clones]
  exact Nat.succ_ne_zero _

/-- The load of the engine and of the clients that still have to publish. -/
def load (most : Nat) (s : Session σ τ) : Nat :=
  s.engine.load most + (effort most + 2) * (s.clients.flatMap Client.rest).length

/-- What a session becomes at the same reading, with the messages that there are. -/
structure Becomes (v : Service σ τ) (c : Config) (size : Nat) (active : List (List Entry))
    (s next : Session σ τ) : Prop where
  ongoing : next.Ongoing v c size active
  published : next.published = s.published
  now : next.engine.now = s.engine.now

theorem Ongoing.leave (h : s.Ongoing v c size ([] :: active)) :
    Becomes v c size active s { s with engine := s.engine.dropClone } ∧
      load most { s with engine := s.engine.dropClone } = s.load most := by
  have clones := h.counted.clones
  rw [List.length_cons] at clones
  have same : s.engine.dropClone = { s.engine with clones := s.engine.clones - 1 } := by
    rw [Engine.dropClone_eq, if_neg]
    · rfl
    · rintro ⟨none, -⟩
      omega
  have step : Engine.Step v c s.engine s.engine.dropClone :=
    .dropClone (by omega) fun one => by omega
  have driven := h.driven.act step (by rw [same])
  rw [same] at driven ⊢
  refine ⟨⟨⟨driven, { h.counted with clones := ?_ }, h.lasts⟩, rfl, rfl⟩, rfl⟩
  dsimp only
  omega

/-- A client publishes until a call waits or all its messages are published. -/
theorem Ongoing.proceed (h : s.Ongoing v c size (rest :: active)) (steady : c.Steady most)
    (blocks : c.ceilings.behavior = .block) :
    Becomes v c size active s (Session.proceed c false rest s) ∧
      (Session.proceed c false rest s).load most ≤
        s.load most + (effort most + 2) * rest.length := by
  induction rest generalizing s with
  | nil =>
    unfold Session.proceed
    rw [if_neg Bool.false_ne_true]
    obtain ⟨becomes, same⟩ := h.leave
    exact ⟨becomes, Nat.le_of_eq same⟩
  | cons x rest ih =>
    have lively := h.lively steady
    have fresh := h.counted.fresh
    have sendable (small : size ≤ maxBatchBytes) : x.size ≤ maxBatchBytes :=
      h.counted.sizes x (by simp) ▸ small
    have now := Engine.publish_now s.engine x
    have driven : Engine.Driven v c (s.engine.publish x) :=
      h.driven.act (.publish x (Nat.pos_of_ne_zero lively.held) fresh.1 fresh.2) now
    have more := Engine.load_publish lively x
    unfold Session.proceed
    dsimp only
    rcases h.counted.handled (Engine.publish_handled (lively.opened ▸ lively.shut) x)
        fun small => Engine.publish_resolved lively blocks (sendable small) with
      ⟨waits, counted⟩ | ⟨returned, counted⟩
    · rw [if_pos waits]
      refine ⟨⟨⟨driven, counted, h.lasts⟩, rfl, now⟩, ?_⟩
      unfold load
      rw [List.flatMap_append, List.length_append, List.flatMap_singleton, Nat.mul_add,
        List.length_cons, Nat.mul_succ]
      dsimp only
      omega
    · rw [if_neg (Bool.eq_false_iff.mp returned)]
      obtain ⟨⟨ongoing, published, still⟩, less⟩ := ih ⟨driven, counted, h.lasts⟩
      refine ⟨⟨ongoing, published, still.trans now⟩, Nat.le_trans less ?_⟩
      unfold load
      dsimp only
      rw [List.length_cons, Nat.mul_succ]
      omega

theorem Ongoing.inner (h : s.Ongoing v c size active) {t : Task} (ready : t ∈ s.engine.ready)
    (desk : (s.engine.run v c t).desk = s.engine.desk) :
    Becomes v c size active s { s with engine := s.engine.run v c t } := by
  have now := Engine.run_now (v := v) (c := c) s.engine t
  exact ⟨⟨h.driven.act (.run t ready) now, h.counted.congr desk (.refl _), h.lasts⟩, rfl, now⟩

/-- A call that is told to go on waits again, or returns and its client goes on. -/
theorem Ongoing.followed (h : s.Ongoing v c size []) (steady : c.Steady most)
    (blocks : c.ceilings.behavior = .block) (ready : .publishing x.id ∈ s.engine.ready)
    (hx : x ∈ s.engine.blocked) {next : Session σ τ}
    (turned : next = { s with engine := s.engine.run v c (.publishing x.id) }) :
    Becomes v c size [] s (next.follow c x.id) ∧
      (next.follow c x.id).load most ≤ next.load most := by
  have lively := h.lively steady
  have nodup : (s.engine.blocked.map Entry.id).Nodup := lively.sound.kept.apart
  have now := Engine.run_now (v := v) (c := c) s.engine (.publishing x.id)
  have driven : Engine.Driven v c (s.engine.run v c (.publishing x.id)) :=
    h.driven.act (.run _ ready) now
  obtain ⟨client, hc, waits, split, resumed⟩ := h.counted.resume nodup hx
  have plain := h.counted.plain client hc
  have handled := Engine.publishingTurn_handled
    (e := { s.engine with ready := s.engine.ready.erase (.publishing x.id) }) lively.sound
    lively.tight (lively.opened ▸ lively.shut) hx
  have silent := Engine.publishingTurn_resolved
    (e := { s.engine with ready := s.engine.ready.erase (.publishing x.id) }) { lively with } x.id
  rw [← Engine.run_publishing (v := v) (c := c)] at handled silent
  subst turned
  unfold follow
  dsimp only
  rcases resumed.handled (handled.congr rfl rfl rfl) fun _ => silent with
    ⟨still, counted⟩ | ⟨returned, counted⟩
  · rw [if_pos still]
    have same : client = ⟨x.id, client.rest, false⟩ := by rw [← waits, ← plain]
    have perm := (List.perm_append_singleton client _).trans split.symm
    rw [same] at perm
    exact ⟨⟨⟨driven, counted.congr rfl perm, h.lasts⟩, rfl, now⟩, Nat.le_refl _⟩
  · rw [if_neg (Bool.eq_false_iff.mp returned)]
    have found := find?_key (h.counted.blocked.nodup_iff.mp nodup) hc
    rw [waits] at found
    rw [found]
    dsimp only
    rw [plain]
    obtain ⟨⟨ongoing, published, still⟩, less⟩ :=
      Ongoing.proceed ⟨driven, counted, h.lasts⟩ steady blocks
    refine ⟨⟨ongoing, published, still.trans now⟩, Nat.le_trans less (Nat.le_of_eq ?_)⟩
    have length := (split.flatMap_right Client.rest).length_eq
    rw [List.flatMap_cons, List.length_append] at length
    unfold load
    dsimp only
    rw [length, Nat.mul_add]
    omega

/-- Every turn lowers the load of a session. -/
theorem Ongoing.step (h : s.Ongoing v c size []) (steady : c.Steady most)
    (blocks : c.ceilings.behavior = .block) (busy : s.engine.isSettled = false) :
    Becomes v c size [] s (s.step v c) ∧ (s.step v c).load most < s.load most := by
  have lively := h.lively steady
  unfold Session.step
  split
  · next settled => exact nomatch busy.symm.trans (List.isEmpty_iff.mpr settled)
  next t others there =>
  have ready : t ∈ s.engine.ready := there ▸ List.mem_cons_self ..
  have lower : load most { s with engine := s.engine.run v c t } < s.load most :=
    Nat.add_lt_add_right (Engine.load_run lively ready) _
  have inner := h.inner ready
  cases t with
  | batching => exact ⟨inner (Engine.desk_run_batching s.engine), lower⟩
  | sending id => exact ⟨inner (Engine.desk_run_sending s.engine id), lower⟩
  | shutdown call =>
    refine ⟨inner ?_, lower⟩
    rw [Engine.run_shutdown]
    have same := Engine.shutdownTurn_eq (c := c)
      { s.engine with ready := s.engine.ready.erase (.shutdown call) } call
    rw [(same.resolve_right fun asked => ?_).2]
    · rfl
    · have nobody : s.engine.shutdowns = [] := lively.nobody
      have asked : call ∈ s.engine.shutdowns.map Prod.fst := asked.2.1
      rw [nobody] at asked
      cases asked
  | publishing call =>
    by_cases waits : call ∈ s.engine.blocked.map Entry.id
    · obtain ⟨x, hx, rfl⟩ := List.mem_map.mp waits
      obtain ⟨becomes, less⟩ := h.followed steady blocks ready hx rfl
      exact ⟨becomes, Nat.lt_of_le_of_lt less lower⟩
    -- The call was woken twice and has returned before.
    have same : s.engine.run v c (.publishing call) =
        { s.engine with ready := s.engine.ready.erase (.publishing call) } := by
      rw [Engine.run_publishing]
      exact Engine.publishingTurn_gone waits
    have becomes := inner (same ▸ rfl)
    have gone : call ∉ (s.engine.run v c (.publishing call)).blocked.map Entry.id := same ▸ waits
    dsimp only
    rw [becomes.ongoing.counted.follow_gone gone]
    exact ⟨becomes, lower⟩

/-- All that is ready comes to rest. -/
theorem Ongoing.runReady (h : s.Ongoing v c size []) (steady : c.Steady most)
    (blocks : c.ceilings.behavior = .block) {fuel : Nat} (enough : s.load most ≤ fuel) :
    Becomes v c size [] s (s.runReady v c fuel) ∧
      (s.runReady v c fuel).engine.isSettled = true := by
  induction fuel generalizing s with
  | zero =>
    have ready : s.engine.ready.length = 0 := by
      unfold load Engine.load at enough
      omega
    exact ⟨⟨h, rfl, rfl⟩, List.isEmpty_iff.mpr (List.length_eq_zero_iff.mp ready)⟩
  | succ fuel ih =>
    unfold Session.runReady
    split
    · next settled => exact ⟨⟨h, rfl, rfl⟩, settled⟩
    · next busy =>
      obtain ⟨⟨ongoing, published, now⟩, less⟩ :=
        h.step steady blocks (Bool.eq_false_iff.mpr busy)
      obtain ⟨last, settled⟩ := ih ongoing (by omega)
      exact ⟨⟨last.ongoing, last.published.trans published, last.now.trans now⟩, settled⟩

/-! The beginning -/

theorem start_ongoing (service : σ) (size : Nat) (lasts : c.Lasts 0) :
    (ofEngine (Engine.start c service) : Session σ τ).Ongoing v c size [] where
  driven := .init service
  counted := {
    opened := rfl
    clones := rfl
    blocked := .refl _
    numbers := .refl _
    plain := nofun
    sizes := nofun
    taken := fun _ => List.nil_subset _ }
  lasts := lasts

theorem Ongoing.begin (h : s.Ongoing v c size []) (steady : c.Steady most)
    (blocks : c.ceilings.behavior = .block) {messages : List Message}
    (sizes : ∀ m ∈ messages, m.size = size) (lasts : c.Lasts (s.published + messages.length)) :
    (s.begin c messages false).Ongoing v c size [] ∧
      (s.begin c messages false).load most ≤
        s.load most + (effort most + 2) * messages.length ∧
      (s.begin c messages false).published = s.published + messages.length := by
  have step : Engine.Step v c s.engine s.engine.clone := .clone (by rw [h.counted.clones]; omega)
  have ids : (messages.mapIdx fun i m => (⟨s.published + i, m⟩ : Entry)).map Entry.id =
      (List.range messages.length).map (s.published + ·) :=
    List.ext_getElem (by simp) (by simp)
  have counted : Counted size [messages.mapIdx fun i m => ⟨s.published + i, m⟩]
      { s with engine := s.engine.clone, published := s.published + messages.length } := {
    opened := h.counted.opened
    clones := by
      change s.engine.clones + 1 = _
      rw [h.counted.clones]
      rfl
    blocked := h.counted.blocked
    numbers := by
      have numbers := h.counted.numbers
      rw [List.flatMap_nil, List.append_nil] at numbers
      rw [List.flatMap_singleton, ids, ← List.append_assoc, List.range_add]
      exact numbers.append_right _
    plain := h.counted.plain
    sizes := fun x hx => by
      rw [← List.append_assoc] at hx
      rcases List.mem_append.mp hx with old | new
      · refine h.counted.sizes x ?_
        rw [List.flatten_nil, List.append_nil]
        exact old
      · rw [List.flatten_singleton] at new
        obtain ⟨i, hi, rfl⟩ := List.mem_mapIdx.mp new
        exact sizes _ (List.getElem_mem hi)
    taken := h.counted.taken }
  have started : Ongoing v c size [messages.mapIdx fun i m => ⟨s.published + i, m⟩]
      { s with engine := s.engine.clone, published := s.published + messages.length } :=
    ⟨h.driven.act step rfl, counted, lasts⟩
  obtain ⟨⟨ongoing, published, -⟩, less⟩ := started.proceed steady blocks
  rw [List.length_mapIdx] at less
  exact ⟨ongoing, less, published⟩

end Session
end TopicPublisher
