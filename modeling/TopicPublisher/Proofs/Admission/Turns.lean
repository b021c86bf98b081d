import TopicPublisher.Proofs.Admission.Open

/-!
Whose turn it is. At open ceilings all requests that wait stand in one line, in the order of their
numbers: first those that wait for their bytes, then those that wait for their element. A request
leaves the second part of the line for the end of the first, and who is granted some bytes is
before everybody who has not been told.
-/

namespace TopicPublisher
namespace Semaphore

variable {s : Semaphore} {o : Option Semaphore} {id permits : Nat}

/-- The numbers of those who wait at a semaphore, if there is one, and were told. -/
def toldOf (o : Option Semaphore) : List Nat := o.elim [] (·.told.map Waiter.id)

/-- The numbers of those who are in the queue. -/
def queueOf (o : Option Semaphore) : List Nat := o.elim [] (·.queue.map Waiter.id)

/-- Everybody who waits: those who were told are before the queue. -/
def lineOf (o : Option Semaphore) : List Nat := toldOf o ++ queueOf o

theorem lineOf_map_take (o : Option Semaphore) (permits : Nat) :
    lineOf (o.map (·.take permits)) = lineOf o := by
  cases o <;> rfl

theorem queueOf_map_take (o : Option Semaphore) (permits : Nat) :
    queueOf (o.map (·.take permits)) = queueOf o := by
  cases o <;> rfl

theorem queueOf_join (s : Semaphore) (id permits : Nat) :
    queueOf (some (s.join id permits)) = queueOf (some s) ++ [id] :=
  List.map_append

theorem lineOf_join (s : Semaphore) (id permits : Nat) :
    lineOf (some (s.join id permits)) = lineOf (some s) ++ [id] := by
  rw [lineOf, queueOf_join, ← List.append_assoc]
  rfl

theorem toldOf_claim (s : Semaphore) (id : Nat) :
    toldOf (some (s.claim id)) = (toldOf (some s)).filter (· != id) := by
  change (s.told.filter (·.id != id)).map Waiter.id = (s.told.map Waiter.id).filter (· != id)
  rw [List.filter_map]
  rfl

/-- Where permits are free nobody is in the queue. -/
theorem queueOf_eq_nil (tight : ∀ s, o = some s → s.Tight)
    (free : ∀ s, o = some s → 0 < s.free) : queueOf o = [] := by
  cases o with
  | none => rfl
  | some s => exact congrArg (List.map Waiter.id) ((tight s rfl).queue_eq_nil (free s rfl))

theorem distribute_ids (free : Nat) (ws : List Waiter) :
    (distribute free ws).2.2.map Waiter.id ++ (distribute free ws).2.1.map Waiter.id =
      ws.map Waiter.id := by
  have h := congrArg (List.map Prod.fst) (distribute_calls free ws)
  simpa only [List.map_append, List.map_map, Function.comp_def] using h

/-- Waiters that lack something cannot be more than the permits that serve them. -/
theorem distribute_served_length (free : Nat) (ws : List Waiter)
    (lack : ∀ w ∈ ws, w.held < w.needed) : (distribute free ws).2.2.length ≤ free := by
  fun_induction distribute free ws with
  | case1 free => exact Nat.zero_le _
  | case2 free w rest enough left waiting served eq ih =>
    have first := lack w (List.mem_cons_self ..)
    have others := ih fun x hx => lack x (List.mem_cons_of_mem _ hx)
    rw [eq] at others
    dsimp only at others
    rw [List.length_cons]
    omega
  | case3 free w rest short => exact Nat.zero_le _

/-- Semaphores where some left or were told, and nobody joined. -/
structure Recedes (o o' : Option Semaphore) : Prop where
  line : (lineOf o').Sublist (lineOf o)
  queue : queueOf o' ⊆ queueOf o

theorem Recedes.refl (o : Option Semaphore) : Recedes o o := ⟨.refl _, List.Subset.refl _⟩

theorem release_recedes (s : Semaphore) (permits : Nat) :
    Recedes (some s) (some (s.release permits).1) := by
  have ids := distribute_ids permits s.queue
  constructor
  · have same : lineOf (some (s.release permits).1) = lineOf (some s) := by
      change (s.told ++ (distribute permits s.queue).2.2).map Waiter.id ++
        (distribute permits s.queue).2.1.map Waiter.id = _
      rw [List.map_append, List.append_assoc, ids]
      rfl
    rw [same]
  · change (distribute permits s.queue).2.1.map Waiter.id ⊆ s.queue.map Waiter.id
    rw [← ids]
    exact List.subset_append_right _ _

theorem map_release_recedes (o : Option Semaphore) (permits : Nat) :
    Recedes o (o.map fun s => (s.release permits).1) := by
  cases o with
  | none => exact .refl none
  | some s => exact release_recedes s permits

theorem withdraw_recedes (s : Semaphore) (id : Nat) :
    Recedes (some s) (some (s.withdraw id).1) := by
  have given := release_recedes { s with
    queue := s.queue.filter (·.id != id), told := s.told.filter (·.id != id) } (s.heldBy id)
  have fewer (ws : List Waiter) :
      ((ws.filter (·.id != id)).map Waiter.id).Sublist (ws.map Waiter.id) :=
    List.filter_sublist.map _
  exact ⟨given.line.trans ((fewer s.told).append (fewer s.queue)),
    List.Subset.trans given.queue (fewer s.queue).subset⟩

end Semaphore

namespace Admission

open Semaphore

variable {c : Ceilings} {a b : Admission} {s : Semaphore} {decision : Decision} {id size : Nat}
  {passed passed' : Nat → Prop}

/-- The line of those who wait, with those whose `turn` it is between its two parts: they have
their element and come to their bytes. Whoever has `passed` is before everybody who was not told
that there are bytes. -/
structure Orderly (a : Admission) (turn : List Nat) (passed : Nat → Prop) : Prop where
  ranked : (lineOf a.bytes ++ (turn ++ lineOf a.elements)).Pairwise (· < ·)
  single : (toldOf a.elements).length ≤ 1
  ahead : ∀ j, passed j → ∀ i ∈ queueOf a.bytes ++ (turn ++ lineOf a.elements), j < i

theorem lineOf_ofCeilings (limit : Option Nat) :
    lineOf (limit.map fun limit => { free := limit }) = [] := by
  cases limit <;> rfl

theorem ofCeilings_told (c : Ceilings) : (ofCeilings c).told = [] := by
  have nobody (limit : Option Nat) : toldOf (limit.map fun limit => { free := limit }) = [] :=
    (List.append_eq_nil_iff.mp (lineOf_ofCeilings limit)).1
  change toldOf (c.elements.map _) ++ toldOf (c.bytes.map _) = []
  rw [nobody, nobody]
  rfl

theorem ofCeilings_orderly (c : Ceilings) : (ofCeilings c).Orderly [] fun _ => False := by
  refine ⟨?_, ?_, nofun⟩
  · change (lineOf (c.bytes.map _) ++ ([] ++ lineOf (c.elements.map _))).Pairwise (· < ·)
    rw [lineOf_ofCeilings, lineOf_ofCeilings]
    exact .nil
  · have nobody := (List.append_eq_nil_iff.mp (lineOf_ofCeilings c.elements)).1
    change (toldOf (c.elements.map _)).length ≤ 1
    rw [nobody]
    exact Nat.zero_le _

/-- Only requests that wait stand in the line. -/
theorem Balanced.line_waiting (h : a.Balanced c [] 0) :
    ∀ i ∈ lineOf a.bytes ++ lineOf a.elements, i ∈ a.waiting.map Request.id := by
  have waits (stage : Stage) {i : Nat} (hi : i ∈ lineOf (a.semaphore? stage)) :
      i ∈ a.waiting.map Request.id := by
    cases hs : a.semaphore? stage with
    | none =>
      rw [hs] at hi
      cases hi
    | some s =>
      rw [hs] at hi
      have there : i ∈ (s.queue ++ s.told).map Waiter.id := by
        rw [List.map_append]
        exact List.mem_append.mpr (List.mem_append.mp hi).symm
      obtain ⟨w, hw, rfl⟩ := List.mem_map.mp there
      obtain ⟨r, hr, -, same, -⟩ := h.exists_request hs hw
      exact same ▸ List.mem_map_of_mem hr
  intro i hi
  rcases List.mem_append.mp hi with hi | hi
  · exact waits .bytes hi
  · exact waits .element hi

/-- A request that comes to its bytes is granted or joins the end of their queue. -/
theorem Orderly.takes (h : a.Orderly [id] passed) (tight : a.Tight)
    (takes : a.TakesBytes id size decision b)
    (gains : ∀ j, passed' j → passed j ∨ decision = .granted ∧ 0 < size ∧ j = id) :
    b.Orderly [] passed' := by
  cases takes with
  | granted room =>
    have line : lineOf (a.bytesTaken size).bytes = lineOf a.bytes := lineOf_map_take a.bytes size
    have queue : queueOf (a.bytesTaken size).bytes = queueOf a.bytes :=
      queueOf_map_take a.bytes size
    refine ⟨?_, h.single, fun j hj i hi => ?_⟩
    · change (lineOf (a.bytesTaken size).bytes ++ ([] ++ lineOf a.elements)).Pairwise (· < ·)
      rw [line]
      exact h.ranked.sublist (List.Sublist.append_left (List.sublist_append_right _ _) _)
    · change i ∈ queueOf (a.bytesTaken size).bytes ++ ([] ++ lineOf a.elements) at hi
      rw [queue, List.nil_append, List.mem_append] at hi
      rcases gains j hj with before | ⟨-, positive, rfl⟩
      · refine h.ahead j before i (List.mem_append.mpr (hi.imp_right ?_))
        exact List.mem_append_right _
      · -- There were bytes left, so nobody is in the queue for them.
        have nobody : queueOf a.bytes = [] :=
          queueOf_eq_nil tight.2 fun s hs => Nat.lt_of_lt_of_le positive (room s hs)
        rw [nobody] at hi
        have behind := (List.pairwise_append.mp h.ranked).2.1
        exact (List.pairwise_cons.mp behind).1 i (hi.resolve_left List.not_mem_nil)
  | @waiting s hs short =>
    have ranked := h.ranked
    have ahead := h.ahead
    rw [hs] at ranked ahead
    refine ⟨?_, h.single, fun j hj i hi => ?_⟩
    · change (lineOf (some (s.join id size)) ++ ([] ++ lineOf a.elements)).Pairwise (· < ·)
      rwa [lineOf_join, List.nil_append, List.append_assoc]
    · change i ∈ queueOf (some (s.join id size)) ++ ([] ++ lineOf a.elements) at hi
      rw [queueOf_join, List.nil_append, List.append_assoc] at hi
      rcases gains j hj with before | ⟨granted, -⟩
      · exact ahead j before i hi
      · cases granted

/-- A new request, when everybody who was told has looked. -/
theorem Orderly.enters (h : a.Orderly [] passed) (tight : a.Tight) (settled : a.told = [])
    (last : ∀ i ∈ lineOf a.bytes ++ lineOf a.elements, i < id) (later : ∀ j, passed j → j < id)
    (enters : a.Enters id size decision b)
    (gains : ∀ j, passed' j → passed j ∨ decision = .granted ∧ 0 < size ∧ j = id) :
    b.Orderly [] passed' := by
  have ranked : (lineOf a.bytes ++ (lineOf a.elements ++ [id])).Pairwise (· < ·) := by
    rw [← List.append_assoc, List.pairwise_append]
    refine ⟨h.ranked, List.pairwise_singleton _ _, fun i hi j hj => ?_⟩
    exact List.mem_singleton.mp hj ▸ last i hi
  have ahead : ∀ j, passed j → ∀ i ∈ queueOf a.bytes ++ (lineOf a.elements ++ [id]), j < i := by
    intro j hj i hi
    rw [← List.append_assoc] at hi
    rcases List.mem_append.mp hi with hi | hi
    · exact h.ahead j hj i hi
    · exact List.mem_singleton.mp hi ▸ later j hj
  cases enters with
  | refused error =>
    refine ⟨h.ranked, h.single, fun j hj => ?_⟩
    rcases gains j hj with before | ⟨granted, -⟩
    · exact h.ahead j before
    · cases granted
  | @waiting s hs full =>
    have single := h.single
    rw [hs] at ranked ahead single
    refine ⟨?_, single, fun j hj => ?_⟩
    · change (lineOf a.bytes ++ ([] ++ lineOf (some (s.join id 1)))).Pairwise (· < ·)
      rwa [lineOf_join]
    · change ∀ i ∈ queueOf a.bytes ++ ([] ++ lineOf (some (s.join id 1))), j < i
      rw [lineOf_join]
      rcases gains j hj with before | ⟨granted, -⟩
      · exact ahead j before
      · cases granted
  | passing free takes =>
    -- There was an element left, so nobody waits for one.
    have told : toldOf a.elements = [] := (List.append_eq_nil_iff.mp settled).1
    have nobody : lineOf a.elements = [] := by
      rw [lineOf, told, queueOf_eq_nil tight.1 free]
      rfl
    rw [nobody, List.nil_append] at ranked ahead
    have line : lineOf a.elementTaken.elements = [] :=
      (lineOf_map_take a.elements 1).trans nobody
    have entered : a.elementTaken.Orderly [id] passed := by
      refine ⟨?_, ?_, ?_⟩
      · rwa [line]
      · rw [(List.append_eq_nil_iff.mp line).1]
        exact Nat.zero_le _
      · rwa [line]
    exact entered.takes (tight.changed (elementTaken_changed free)) takes gains

/-- A request that was told goes on: it is the first of those who wait for their element, or is
before the whole queue for bytes. -/
theorem Orderly.resumes (h : a.Orderly [] passed) (tight : a.Tight)
    (resumes : a.Resumes id decision b)
    (gains : ∀ j, passed' j → passed j ∨
      decision = .granted ∧ j = id ∧ ∀ r ∈ a.waiting, r.id = id → 0 < r.size) :
    b.Orderly [] passed' := by
  cases resumes with
  | waiting =>
    refine ⟨h.ranked, h.single, fun j hj => ?_⟩
    rcases gains j hj with before | ⟨granted, -⟩
    · exact h.ahead j before
    · cases granted
  | @granted r s hr hid stage hs told =>
    have ranked := h.ranked
    have ahead := h.ahead
    rw [hs] at ranked ahead
    have fewer : (toldOf (some (s.claim id))).Sublist (toldOf (some s)) := by
      rw [toldOf_claim]
      exact List.filter_sublist
    refine ⟨?_, h.single, fun j hj i hi => ?_⟩
    · exact ranked.sublist ((fewer.append (.refl _)).append (.refl _))
    · rcases gains j hj with before | ⟨-, rfl, -⟩
      · exact ahead j before i hi
      · rw [lineOf, List.append_assoc] at ranked
        exact (List.pairwise_append.mp ranked).2.2 j told i hi
  | @passing r s _ _ hr hid stage hs told takes =>
    -- Only one was told of an element, and is the first of its line.
    have ranked := h.ranked
    have ahead := h.ahead
    have single := h.single
    rw [hs] at ranked ahead single
    have alone : toldOf (some s) = [id] := by
      obtain ⟨only, eq⟩ :=
        List.length_eq_one_iff.mp (Nat.le_antisymm single (List.length_pos_of_mem told))
      have mine : id ∈ toldOf (some s) := told
      rw [eq] at mine ⊢
      rw [List.mem_singleton.mp mine]
    have left : toldOf (some (s.claim id)) = [] := by
      rw [toldOf_claim, alone, List.filter_singleton, bne_self_eq_false]
      rfl
    have line : lineOf (some s) = [id] ++ lineOf (some (s.claim id)) := by
      rw [lineOf, lineOf, alone, left]
      rfl
    rw [line] at ranked ahead
    have looked : Orderly { a.settle id with elements := some (s.claim id) } [id] passed :=
      ⟨ranked, left ▸ Nat.zero_le 1, ahead⟩
    refine looked.takes ⟨fun t ht => ?_, tight.2⟩ takes fun j hj => ?_
    · obtain rfl := Option.some.inj ht
      exact (tight.1 s hs).change (.claim id)
    · exact (gains j hj).imp_right fun ⟨granted, same, large⟩ => ⟨granted, large r hr hid, same⟩

/-! Giving up and releasing -/

/-- Each request in the queue for elements needs one and has none. -/
theorem Balanced.element_waiters (h : a.Balanced c [] 0) (tight : a.Tight)
    (hs : a.elements = some s) : ∀ w ∈ s.queue, w.held = 0 ∧ w.needed = 1 := by
  intro w hw
  have one : w.needed = 1 := by
    have held : a.semaphore? .element = some s := hs
    obtain ⟨r, -, -, -, needs⟩ := h.exists_request held (List.mem_append_left s.told hw)
    exact needs.symm
  refine ⟨?_, one⟩
  have semaphore := tight.1 s hs
  cases hq : s.queue with
  | nil =>
    rw [hq] at hw
    cases hw
  | cons x rest =>
    rw [hq] at hw
    rcases List.mem_cons.mp hw with rfl | hw
    · have first := semaphore.first w (by rw [hq]; rfl)
      omega
    · exact semaphore.others w (by rw [hq]; exact hw)

theorem Orderly.recedes (h : a.Orderly [] passed) (bytes : Recedes a.bytes b.bytes)
    (elements : Recedes a.elements b.elements) (single : (toldOf b.elements).length ≤ 1) :
    b.Orderly [] passed := by
  refine ⟨h.ranked.sublist (bytes.line.append elements.line), single, fun j hj i hi => ?_⟩
  refine h.ahead j hj i ?_
  rcases List.mem_append.mp hi with hi | hi
  · exact List.mem_append_left _ (bytes.queue hi)
  · exact List.mem_append_right _ (elements.line.subset hi)

/-- One element that is given back is handed to one request. -/
theorem Balanced.single_release (h : a.Balanced c [] 0) (tight : a.Tight)
    (settled : a.told = []) :
    (toldOf (a.elements.map fun s => (s.release 1).1)).length ≤ 1 := by
  cases hs : a.elements with
  | none => exact Nat.zero_le _
  | some s =>
    have held : a.semaphore? .element = some s := hs
    have told : s.told = [] := told_eq_nil settled held
    have lack : ∀ w ∈ s.queue, w.held < w.needed := fun w hw => by
      obtain ⟨held, needed⟩ := h.element_waiters tight hs w hw
      omega
    change ((s.told ++ (distribute 1 s.queue).2.2).map Waiter.id).length ≤ 1
    rw [told, List.nil_append, List.length_map]
    exact distribute_served_length 1 s.queue lack

theorem Orderly.release (h : a.Orderly [] passed) (balanced : a.Balanced c [] 0)
    (tight : a.Tight) (settled : a.told = []) (id : Nat) :
    (a.release id).1.Orderly [] passed := by
  unfold Admission.release
  split
  · exact h
  · dsimp only
    rw [returnBytes_fst, returnElement_fst]
    exact h.recedes (map_release_recedes a.bytes _) (map_release_recedes a.elements 1)
      (balanced.single_release tight settled)

/-- Who gives up waiting for an element has none to hand on. -/
theorem Balanced.single_withdraw (h : a.Balanced c [] 0) (tight : a.Tight)
    (settled : a.told = []) (hs : a.elements = some s) (id : Nat) :
    (toldOf (some (s.withdraw id).1)).length ≤ 1 := by
  have held : a.semaphore? .element = some s := hs
  have told : s.told = [] := told_eq_nil settled held
  have waiters := h.element_waiters tight hs
  have nothing : s.heldBy id = 0 := by
    rw [heldBy, told, List.append_nil]
    exact List.sum_eq_zero_iff_forall_eq_nat.mpr (List.forall_mem_map.mpr fun w hw =>
      (waiters w (List.mem_of_mem_filter hw)).1)
  have lack : ∀ w ∈ s.queue.filter (·.id != id), w.held < w.needed := fun w hw => by
    obtain ⟨held, needed⟩ := waiters w (List.mem_of_mem_filter hw)
    omega
  change ((s.told.filter (·.id != id) ++
    (distribute (s.heldBy id) (s.queue.filter (·.id != id))).2.2).map Waiter.id).length ≤ 1
  rw [told, nothing, List.filter_nil, List.nil_append, List.length_map]
  exact Nat.le_trans (distribute_served_length 0 _ lack) (Nat.zero_le _)

theorem Orderly.cancel (h : a.Orderly [] passed) (balanced : a.Balanced c [] 0)
    (tight : a.Tight) (settled : a.told = []) (id : Nat) :
    (a.cancel id).1.Orderly [] passed := by
  unfold Admission.cancel
  split
  · exact h
  dsimp only
  split
  · split
    · exact h.recedes (.refl _) (.refl _) h.single
    · next s hs =>
      have held : a.elements = some s := hs
      exact h.recedes (.refl _) (held ▸ withdraw_recedes s id)
        (balanced.single_withdraw tight settled held id)
  · split
    · exact h.recedes (.refl _) (.refl _) h.single
    · next s hs =>
      have held : a.bytes = some s := hs
      rw [returnElement_fst]
      exact h.recedes (held ▸ withdraw_recedes s id) (map_release_recedes a.elements 1)
        (balanced.single_release tight settled)

end Admission
end TopicPublisher
