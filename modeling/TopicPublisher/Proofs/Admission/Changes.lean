import TopicPublisher.Proofs.Admission.Waiting

/-!
The calls of admission as operations on the two semaphores. Apart from a closing, a call only
takes permits, joins a queue, gives permits back, leaves, or claims what it was told of; so what
these operations keep is kept by every call. Whoever is told by an operation is named by the
call.
-/

namespace TopicPublisher
namespace Semaphore

/-- The operations on a semaphore that do not close it, each with the waiters that are told. -/
inductive Change (s : Semaphore) : Semaphore → List Nat → Prop where
  | take (permits : Nat) : permits ≤ s.free → Change s { s with free := s.free - permits } []
  | join (id permits : Nat) : s.closed = false → s.free < permits →
      Change s { s with free := 0, queue := s.queue ++ [⟨id, permits, s.free⟩] } []
  | release (permits : Nat) : Change s (s.release permits).1 (s.release permits).2
  | withdraw (id : Nat) : Change s (s.withdraw id).1 (s.withdraw id).2
  | claim (id : Nat) : Change s { s with told := s.told.filter (·.id != id) } []

/-- Permits are not left lying about: while anybody is in the queue nothing is free, what is set
aside is for the first one only, and it does not suffice for that one. -/
structure Tight (s : Semaphore) : Prop where
  used : s.queue ≠ [] → s.free = 0
  first : ∀ w ∈ s.queue.head?, w.held < w.needed
  others : ∀ w ∈ s.queue.tail, w.held = 0
  shut : s.closed = true → s.queue = []

variable {s t : Semaphore} {told : List Nat}

theorem distribute_left (free : Nat) (ws : List Waiter) :
    (distribute free ws).2.1 ≠ [] → (distribute free ws).1 = 0 := by
  fun_induction distribute free ws with
  | case1 free => exact fun h => absurd rfl h
  | case2 free w rest enough left waiting served eq ih => simpa only [eq] using ih
  | case3 free w rest short => exact fun _ => rfl

theorem distribute_first (free : Nat) (ws : List Waiter) :
    ∀ w ∈ (distribute free ws).2.1.head?, w.held < w.needed := by
  fun_induction distribute free ws with
  | case1 free =>
    intro w hw
    cases hw
  | case2 free w rest enough left waiting served eq ih => simpa only [eq] using ih
  | case3 free w rest short =>
    intro x hx
    obtain rfl := Option.some.inj hx
    dsimp only
    omega

theorem distribute_others (free : Nat) (ws : List Waiter) (h : ∀ w ∈ ws.tail, w.held = 0) :
    ∀ w ∈ (distribute free ws).2.1.tail, w.held = 0 := by
  fun_induction distribute free ws with
  | case1 free =>
    intro w hw
    cases hw
  | case2 free w rest enough left waiting served eq ih =>
    have hrest := ih fun x hx => h x (List.mem_of_mem_tail hx)
    rwa [eq] at hrest
  | case3 free w rest short => exact h

/-- Giving permits back hands them on as far as they go, so only the rest has to be in order. -/
theorem release_tight (permits : Nat) (used : s.queue ≠ [] → s.free = 0)
    (others : ∀ w ∈ s.queue.tail, w.held = 0) (shut : s.closed = true → s.queue = []) :
    (s.release permits).1.Tight := by
  rw [release_fst]
  refine ⟨fun waits => ?_, distribute_first _ _, distribute_others _ _ others, fun closed => ?_⟩
  · have some : s.queue ≠ [] := by
      intro none
      rw [none] at waits
      exact waits rfl
    dsimp only
    rw [used some, distribute_left _ _ waits]
  · dsimp only
    rw [shut closed]
    rfl

theorem Tight.change (h : s.Tight) (change : s.Change t told) : t.Tight := by
  cases change with
  | take permits enough =>
    refine ⟨fun waits => ?_, h.first, h.others, h.shut⟩
    dsimp only
    rw [h.used waits, Nat.zero_sub]
  | join id permits opened short =>
    refine ⟨fun _ => rfl, ?_, ?_, fun closed => ?_⟩
    · cases hq : s.queue with
      | nil =>
        intro w hw
        obtain rfl := Option.some.inj hw
        exact short
      | cons x rest =>
        have first := h.first
        rw [hq] at first
        exact first
    · cases hq : s.queue with
      | nil => exact nofun
      | cons x rest =>
        intro w hw
        rcases List.mem_append.mp hw with hw | hw
        · exact h.others w (by rw [hq]; exact hw)
        · obtain rfl := List.mem_singleton.mp hw
          exact h.used (by rw [hq]; exact List.cons_ne_nil _ _)
    · exact absurd (opened.symm.trans closed) nofun
  | release permits => exact release_tight permits h.used h.others h.shut
  | withdraw id =>
    have left : s.queue.filter (·.id != id) ≠ [] → s.queue ≠ [] := by
      intro some none
      rw [none] at some
      exact some rfl
    refine release_tight _ (fun some => h.used (left some)) ?_ fun closed => ?_
    · exact fun w hw => h.others w (List.filter_sublist.tail.subset hw)
    · dsimp only
      rw [h.shut closed]
      rfl
  | claim id => exact ⟨h.used, h.first, h.others, h.shut⟩

theorem close_tight (s : Semaphore) : s.close.1.Tight :=
  ⟨fun some => absurd rfl some, nofun, nofun, fun _ => rfl⟩

theorem Change.closed (change : s.Change t told) : t.closed = s.closed := by
  cases change <;> rfl

theorem release_told (s : Semaphore) (permits : Nat) :
    (s.release permits).1.told.map Waiter.id = s.told.map Waiter.id ++ (s.release permits).2 :=
  List.map_append

/-- Everybody who is told was told before, or is named by the operation. -/
theorem Change.told_subset (change : s.Change t told) :
    t.told.map Waiter.id ⊆ s.told.map Waiter.id ++ told := by
  have fewer (id : Nat) :
      (s.told.filter (·.id != id)).map Waiter.id ⊆ s.told.map Waiter.id :=
    (List.filter_sublist.map _).subset
  cases change with
  | take | join => exact List.subset_append_left _ _
  | release permits => rw [release_told]; exact List.Subset.refl _
  | withdraw id =>
    rw [Semaphore.withdraw, release_told]
    exact List.append_subset.mpr ⟨List.Subset.trans (fewer id) (List.subset_append_left _ _),
      List.subset_append_right _ _⟩
  | claim id => exact List.Subset.trans (fewer id) (List.subset_append_left _ _)

/-- A semaphore, if there is one, after some operations that tell nobody but `told`. -/
inductive Changes (told : List Nat) (o : Option Semaphore) : Option Semaphore → Prop where
  | refl : Changes told o o
  | tail {s t : Semaphore} {more : List Nat} :
      Changes told o (some s) → s.Change t more → more ⊆ told → Changes told o (some t)

namespace Changes

variable {o o' o'' : Option Semaphore}

theorem single (change : s.Change t told) : Changes told (some s) (some t) :=
  .tail .refl change (List.Subset.refl _)

theorem mono {more : List Nat} (h : Changes told o o') (sub : told ⊆ more) :
    Changes more o o' := by
  induction h with
  | refl => exact .refl
  | tail _ change among ih => exact ih.tail change (List.Subset.trans among sub)

theorem trans (h : Changes told o o') (h' : Changes told o' o'') : Changes told o o'' := by
  induction h' with
  | refl => exact h
  | tail _ change among ih => exact ih.tail change among

/-- What every operation keeps is true of the semaphore afterwards. -/
theorem keeps {motive : Semaphore → Prop}
    (keeps : ∀ {s t : Semaphore} {more : List Nat}, motive s → s.Change t more → motive t)
    (h : Changes told o o') (init : ∀ s, o = some s → motive s) :
    ∀ t, o' = some t → motive t := by
  induction h with
  | refl => exact init
  | tail _ change _ ih =>
    intro u hu
    obtain rfl := Option.some.inj hu
    exact keeps (ih _ rfl) change

theorem told_subset (h : Changes told o o') :
    (o'.elim [] (·.told.map Waiter.id)) ⊆ (o.elim [] (·.told.map Waiter.id)) ++ told := by
  induction h with
  | refl => exact List.subset_append_left _ _
  | tail _ change among ih =>
    intro id hid
    rcases List.mem_append.mp (change.told_subset hid) with hid | hid
    · exact ih hid
    · exact List.mem_append_right _ (among hid)

end Changes

variable {id permits : Nat}

theorem tryAcquire_change (h : s.tryAcquire permits = .ok t) :
    s.Change t [] := by
  unfold tryAcquire at h
  split at h
  · cases h
  split at h
  · cases h
  · next enough =>
    cases h
    exact .take permits (Nat.le_of_not_lt enough)

theorem acquire_changes {answer : Acquisition}
    (h : s.acquire id permits = (answer, t)) : Changes [] (some s) (some t) := by
  unfold acquire at h
  split at h
  · cases h
    exact .refl
  next opened =>
  split at h
  · next enough =>
    cases h
    exact .single (.take permits enough)
  · next short =>
    cases h
    exact .single (.join id permits (by simpa using opened) (Nat.lt_of_not_le short))

/-- A waiter that looks claims what it was told of, or loses it on a closed semaphore, where
there is nobody to hand it on to. -/
theorem look_changes {answer : Acquisition} (tight : s.Tight)
    (h : s.look id = (answer, t)) : Changes [] (some s) (some t) := by
  unfold look at h
  split at h
  · next closed =>
    cases h
    have nobody : (s.withdraw id).2 = [] := by
      unfold withdraw
      rw [tight.shut closed]
      rfl
    have change : s.Change (s.withdraw id).1 _ := .withdraw id
    rw [nobody] at change
    exact .single change
  split at h
  · cases h
    exact .single (.claim id)
  · cases h
    exact .refl

end Semaphore

namespace Admission

/-- Admission after a call that closed nothing and named all that it told. -/
structure Changed (told : List Nat) (a b : Admission) : Prop where
  elements : Semaphore.Changes told a.elements b.elements
  bytes : Semaphore.Changes told a.bytes b.bytes

/-- What is true of both semaphores, where there are such. -/
def Both (motive : Semaphore → Prop) (a : Admission) : Prop :=
  (∀ s, a.elements = some s → motive s) ∧ ∀ s, a.bytes = some s → motive s

abbrev Tight : Admission → Prop := Both Semaphore.Tight

/-- All requests that were told to go on and did not yet look. -/
def told (a : Admission) : List Nat :=
  (a.elements.elim [] (·.told.map Waiter.id)) ++ a.bytes.elim [] (·.told.map Waiter.id)

variable {a b d : Admission} {id size permits : Nat} {told more : List Nat}

namespace Changed

theorem refl (told : List Nat) (a : Admission) : Changed told a a := ⟨.refl, .refl⟩

theorem trans (h : Changed told a b) (h' : Changed more b d) : Changed (told ++ more) a d :=
  ⟨(h.elements.mono (List.subset_append_left _ _)).trans
      (h'.elements.mono (List.subset_append_right _ _)),
    (h.bytes.mono (List.subset_append_left _ _)).trans
      (h'.bytes.mono (List.subset_append_right _ _))⟩

/-- Only the semaphores matter. -/
theorem congr {a' b' : Admission} (h : Changed told a b) (elements : a.elements = a'.elements)
    (bytes : a.bytes = a'.bytes) (elements' : b.elements = b'.elements)
    (bytes' : b.bytes = b'.bytes) : Changed told a' b' :=
  ⟨elements ▸ elements' ▸ h.elements, bytes ▸ bytes' ▸ h.bytes⟩

theorem both {motive : Semaphore → Prop}
    (keeps : ∀ {s t : Semaphore} {more : List Nat}, motive s → s.Change t more → motive t)
    (changed : Changed told a b) (h : a.Both motive) : b.Both motive :=
  ⟨changed.elements.keeps keeps h.1, changed.bytes.keeps keeps h.2⟩

theorem told_subset (h : Changed told a b) : b.told ⊆ a.told ++ told := by
  intro id hid
  simp only [Admission.told, List.mem_append] at hid ⊢
  rcases hid with hid | hid
  · have hid := h.elements.told_subset hid
    rw [List.mem_append] at hid
    exact hid.imp_left .inl
  · have hid := h.bytes.told_subset hid
    rw [List.mem_append] at hid
    exact hid.imp_left .inr

end Changed

theorem Tight.changed (h : a.Tight) (changed : Changed told a b) : b.Tight :=
  changed.both Semaphore.Tight.change h

/-! One lemma for each call -/

theorem returnElement_changed (a : Admission) :
    Changed a.returnElement.2 a a.returnElement.1 := by
  unfold returnElement
  split
  · exact .refl _ a
  · next s hs =>
    refine ⟨?_, .refl⟩
    rw [hs]
    exact .single (.release 1)

theorem returnBytes_changed (a : Admission) (permits : Nat) :
    Changed (a.returnBytes permits).2 a (a.returnBytes permits).1 := by
  unfold returnBytes
  split
  · exact .refl _ a
  · next s hs =>
    refine ⟨.refl, ?_⟩
    rw [hs]
    exact .single (.release permits)

theorem tryElement_changed (h : a.tryElement = .ok b) : Changed [] a b := by
  unfold tryElement at h
  split at h
  · cases h
    exact .refl _ a
  next s hs =>
  cases ht : s.tryAcquire 1 with
  | error shortage =>
    rw [ht] at h
    cases h
  | ok t =>
    rw [ht] at h
    cases h
    refine ⟨?_, .refl⟩
    rw [hs]
    exact .single (Semaphore.tryAcquire_change ht)

theorem tryBytes_changed (a : Admission) (id size permits : Nat) :
    Changed (a.tryBytes id size permits).2.2 a (a.tryBytes id size permits).2.1 := by
  unfold tryBytes
  split
  · exact ⟨.refl, .refl⟩
  next s hs =>
  split
  · next t ht =>
    refine ⟨.refl, ?_⟩
    rw [hs]
    exact .single (Semaphore.tryAcquire_change ht)
  · exact returnElement_changed a

theorem tryReserve_changed (a : Admission) (id size : Nat) :
    Changed (a.tryReserve id size).2.2 a (a.tryReserve id size).2.1 := by
  unfold tryReserve
  split
  · exact .refl _ a
  split
  · exact .refl _ a
  · next b hb => exact (tryElement_changed hb).trans (tryBytes_changed b id size _)

theorem takeBytes_changed (a : Admission) (id size permits : Nat) :
    Changed (a.takeBytes id size permits).2.2 a (a.takeBytes id size permits).2.1 := by
  unfold takeBytes
  split
  · exact ⟨.refl, .refl⟩
  next s hs =>
  have changes {answer : Acquisition} {t : Semaphore} (h : s.acquire id permits = (answer, t)) :
      Semaphore.Changes [] a.bytes (some t) := hs ▸ Semaphore.acquire_changes h
  split
  · next t ht => exact ⟨.refl, changes ht⟩
  · next t ht => exact ⟨.refl, changes ht⟩
  · next t ht =>
    have taken : Changed [] a { a with bytes := some t } := ⟨.refl, changes ht⟩
    exact taken.trans (returnElement_changed _)

theorem askElement_changed (a : Admission) (id size : Nat) :
    Changed [] a (a.askElement id size).2 := by
  unfold askElement
  split
  · exact .refl _ a
  next s hs =>
  have changes {answer : Acquisition} {t : Semaphore} (h : s.acquire id 1 = (answer, t)) :
      Semaphore.Changes [] a.elements (some t) := hs ▸ Semaphore.acquire_changes h
  split
  · next t ht => exact ⟨changes ht, .refl⟩
  · next answer t _ ht => exact ⟨changes ht, .refl⟩

theorem afterElement_changed {answer : Acquisition} (h : Changed [] a b) :
    Changed (afterElement id size permits (answer, b)).2.2 a
      (afterElement id size permits (answer, b)).2.1 := by
  cases answer with
  | taken => exact h.trans (takeBytes_changed b id size permits)
  | queued => exact h
  | refused => exact h

theorem reserve_changed (a : Admission) (id size : Nat) :
    Changed (a.reserve id size).2.2 a (a.reserve id size).2.1 := by
  unfold reserve
  split
  · exact .refl _ a
  split
  · exact tryReserve_changed a id size
  · exact afterElement_changed (askElement_changed a id size)

theorem lookElement_changed (tight : a.Tight) (id : Nat) : Changed [] a (a.lookElement id).2 := by
  unfold lookElement
  split
  · exact .refl _ a
  next s hs =>
  split
  · exact .refl _ a
  · next answer t _ ht =>
    refine ⟨?_, .refl⟩
    rw [hs]
    exact Semaphore.look_changes (tight.1 s hs) ht

theorem lookBytes_changed (tight : a.Tight) (id size : Nat) :
    Changed (a.lookBytes id size).2.2 a (a.lookBytes id size).2.1 := by
  unfold lookBytes
  split
  · exact .refl _ a
  next s hs =>
  have changes {answer : Acquisition} {t : Semaphore} (h : s.look id = (answer, t)) :
      Semaphore.Changes [] a.bytes (some t) := hs ▸ Semaphore.look_changes (tight.2 s hs) h
  split
  · next t ht => exact ⟨.refl, changes ht⟩
  · exact .refl _ a
  · next t ht =>
    have looked : Changed [] a { a.settle id with bytes := some t } := ⟨.refl, changes ht⟩
    exact looked.trans (returnElement_changed _)

theorem resume_changed (tight : a.Tight) (id : Nat) :
    Changed (a.resume id).2.2 a (a.resume id).2.1 := by
  unfold resume
  split
  · exact .refl _ a
  split
  · exact afterElement_changed (lookElement_changed tight id)
  · exact lookBytes_changed tight id _

theorem cancel_changed (a : Admission) (id : Nat) :
    Changed (a.cancel id).2 a (a.cancel id).1 := by
  unfold cancel
  split
  · exact .refl _ a
  dsimp only
  split
  · split
    · exact ⟨.refl, .refl⟩
    · next s hs =>
      have same : a.elements = some s := hs
      refine ⟨?_, .refl⟩
      rw [same]
      exact .single (.withdraw id)
  · split
    · exact ⟨.refl, .refl⟩
    · next s hs =>
      have same : a.bytes = some s := hs
      have left : Changed (s.withdraw id).2 a
          { a.settle id with bytes := some (s.withdraw id).1 } :=
        ⟨.refl, same ▸ .single (.withdraw id)⟩
      exact left.trans (returnElement_changed _)

theorem release_changed (a : Admission) (id : Nat) :
    Changed (a.release id).2 a (a.release id).1 := by
  unfold release
  split
  · exact .refl _ a
  · next r live _ =>
    dsimp only
    have first := returnElement_changed { a with ledger := a.ledger.release r.size, live := live }
    have second := returnBytes_changed
      (returnElement { a with ledger := a.ledger.release r.size, live := live }).1 r.size
    exact (first.trans second).congr rfl rfl rfl rfl

end Admission
end TopicPublisher
