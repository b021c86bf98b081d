import TopicPublisher.Admission.Semaphore
import TopicPublisher.Proofs.Keyed

/-!
The permits of a semaphore. Whatever is done with it, each permit is free, set aside for a
waiter, or in the hands of somebody who took it.
-/

namespace TopicPublisher
namespace Semaphore

/-- The numbers of those who wait, each with the permits that it needs. -/
def waiters (s : Semaphore) : List (Nat × Nat) :=
  (s.queue ++ s.told).map fun w => (w.id, w.needed)

/-- The semaphore backs a ceiling of `limit` permits while `calls` wait and `out` permits are in
the hands of others. Waiters have at most what they need, and exactly that once they were told;
after a closing nobody is in the queue. -/
structure Backs (s : Semaphore) (limit : Nat) (calls : List (Nat × Nat)) (out : Nat) : Prop where
  conserved : s.free + s.setAside + out = limit
  waiters : s.waiters.Perm calls
  distinct : (calls.map Prod.fst).Nodup
  within : ∀ w ∈ s.queue, w.held ≤ w.needed
  served : s.closed = false → ∀ w ∈ s.told, w.held = w.needed
  shut : s.closed = true → s.queue = []

theorem distribute_total (free : Nat) (ws : List Waiter) (h : ∀ w ∈ ws, w.held ≤ w.needed) :
    (distribute free ws).1 + total (·.held) (distribute free ws).2.1 +
      total (·.held) (distribute free ws).2.2 = free + total (·.held) ws := by
  fun_induction distribute free ws with
  | case1 free => simp
  | case2 free w rest enough left waiting served eq ih =>
    have hw := h w (by simp)
    have hrest := ih fun x hx => h x (by simp [hx])
    rw [eq] at hrest
    simp only [total_cons] at *
    omega
  | case3 free w rest short => simp; omega

/-- Those who were served come before those who wait on, and nobody is lost. -/
theorem distribute_calls (free : Nat) (ws : List Waiter) :
    ((distribute free ws).2.2 ++ (distribute free ws).2.1).map (fun w => (w.id, w.needed)) =
      ws.map fun w => (w.id, w.needed) := by
  fun_induction distribute free ws with
  | case1 free => rfl
  | case2 free w rest enough left waiting served eq ih =>
    rw [eq] at ih
    simpa using ih
  | case3 free w rest short => simp

theorem distribute_within (free : Nat) (ws : List Waiter) (h : ∀ w ∈ ws, w.held ≤ w.needed) :
    ∀ w ∈ (distribute free ws).2.1, w.held ≤ w.needed := by
  fun_induction distribute free ws with
  | case1 free => simp
  | case2 free w rest enough left waiting served eq ih =>
    rw [eq] at ih
    exact ih fun x hx => h x (by simp [hx])
  | case3 free w rest short =>
    intro x hx
    rcases List.mem_cons.mp hx with rfl | hx
    · simp only; omega
    · exact h x (by simp [hx])

theorem distribute_served (free : Nat) (ws : List Waiter) :
    ∀ w ∈ (distribute free ws).2.2, w.held = w.needed := by
  fun_induction distribute free ws with
  | case1 free => simp
  | case2 free w rest enough left waiting served eq ih =>
    rw [eq] at ih
    intro x hx
    rcases List.mem_cons.mp hx with rfl | hx
    · rfl
    · exact ih x hx
  | case3 free w rest short => simp

variable {s t : Semaphore} {limit out id permits : Nat} {calls : List (Nat × Nat)}

theorem Backs.perm {more : List (Nat × Nat)} (h : s.Backs limit calls out)
    (hp : calls.Perm more) : s.Backs limit more out where
  conserved := h.conserved
  waiters := h.waiters.trans hp
  distinct := (hp.map Prod.fst).nodup h.distinct
  within := h.within
  served := h.served
  shut := h.shut

theorem release_fst (s : Semaphore) (permits : Nat) :
    (s.release permits).1 = { s with
      free := s.free + (distribute permits s.queue).1
      queue := (distribute permits s.queue).2.1
      told := s.told ++ (distribute permits s.queue).2.2 } := rfl

theorem Backs.release (h : s.Backs limit calls (out + permits)) :
    (s.release permits).1.Backs limit calls out := by
  rw [release_fst]
  constructor
  case conserved =>
    have ht := distribute_total permits s.queue h.within
    have hc := h.conserved
    simp only [setAside, total, List.map_append, List.sum_append_nat] at *
    omega
  case waiters =>
    refine List.Perm.trans ?_ h.waiters
    have hd := distribute_calls permits s.queue
    simp only [Semaphore.waiters, List.map_append] at hd ⊢
    rw [← hd, List.append_assoc]
    exact (List.perm_append_comm.append_left _).trans (List.perm_append_comm_assoc ..)
  case distinct => exact h.distinct
  case within => exact distribute_within permits s.queue h.within
  case served =>
    intro opened w hw
    rcases List.mem_append.mp hw with hw | hw
    · exact h.served opened w hw
    · exact distribute_served permits s.queue w hw
  case shut =>
    intro closed
    have hq := h.shut closed
    simp [hq, distribute]

/-- A call that gets its permits at once has them in hand. -/
theorem Backs.acquire_taken (h : s.Backs limit calls out)
    (ha : s.acquire id permits = (.taken, t)) : t.Backs limit calls (out + permits) := by
  unfold acquire at ha
  split at ha
  · cases ha
  · split at ha
    · cases ha
      refine ⟨?_, h.waiters, h.distinct, h.within, h.served, h.shut⟩
      have hc := h.conserved
      simp only [setAside] at *
      omega
    · cases ha

/-- A call that has to wait joins those who wait; what was free is set aside for it. -/
theorem Backs.acquire_queued (h : s.Backs limit calls out)
    (ha : s.acquire id permits = (.queued, t)) (fresh : id ∉ calls.map Prod.fst) :
    t.Backs limit (calls ++ [(id, permits)]) out := by
  unfold acquire at ha
  split at ha
  · cases ha
  · next opened =>
    split at ha
    · cases ha
    · next short =>
      cases ha
      constructor
      case conserved =>
        have hc := h.conserved
        simp only [setAside, total, List.map_append, List.map_cons, List.map_nil,
          List.sum_append_nat, List.sum_cons, List.sum_nil] at *
        omega
      case waiters =>
        refine List.Perm.trans ?_ (h.waiters.append_right _)
        simp only [Semaphore.waiters, List.map_append, List.map_cons, List.map_nil,
          List.append_assoc]
        exact List.perm_append_comm.append_left _
      case distinct =>
        rw [List.map_append, List.nodup_append]
        exact ⟨h.distinct, by simp, by
          intro a ha b hb hab
          rw [List.map_cons, List.map_nil, List.mem_singleton] at hb
          subst hb hab
          exact fresh ha⟩
      case within =>
        intro w hw
        rcases List.mem_append.mp hw with hw | hw
        · exact h.within w hw
        · cases List.mem_singleton.mp hw
          simp only
          omega
      case served => exact h.served
      case shut => exact fun closed => absurd closed opened

theorem acquire_refused (ha : s.acquire id permits = (.refused, t)) : t = s := by
  unfold acquire at ha
  split at ha
  · cases ha; rfl
  · split at ha <;> cases ha

theorem Backs.tryAcquire (h : s.Backs limit calls out)
    (ha : s.tryAcquire permits = .ok t) : t.Backs limit calls (out + permits) := by
  unfold Semaphore.tryAcquire at ha
  split at ha
  · cases ha
  · split at ha
    · cases ha
    · cases ha
      refine ⟨?_, h.waiters, h.distinct, h.within, h.served, h.shut⟩
      have hc := h.conserved
      simp only [setAside] at *
      omega

theorem filter_waiters (s : Semaphore) (id : Nat) :
    s.waiters.filter (·.1 != id) =
      ((s.queue.filter (·.id != id)) ++ s.told.filter (·.id != id)).map
        fun w => (w.id, w.needed) := by
  simp only [waiters, List.filter_map, List.filter_append, Function.comp_def]

/-- A waiter that leaves takes nothing with it: what was set aside for it goes to the others. -/
theorem Backs.withdraw (h : s.Backs limit calls out) (id : Nat) :
    (s.withdraw id).1.Backs limit (calls.filter (·.1 != id)) out := by
  apply Backs.release
  constructor
  case conserved =>
    have hc := h.conserved
    have hf := ((List.filter_append_perm (·.id == id) (s.queue ++ s.told)).map (·.held)).sum_nat
    simp only [setAside, heldBy, total, List.filter_append, List.map_append, List.sum_append_nat,
      bne] at *
    omega
  case waiters =>
    have hp := h.waiters.filter (·.1 != id)
    rw [filter_waiters] at hp
    exact hp
  case distinct => exact h.distinct.sublist (List.filter_sublist.map _)
  case within => exact fun w hw => h.within w (List.mem_of_mem_filter hw)
  case served => exact fun opened w hw => h.served opened w (List.mem_of_mem_filter hw)
  case shut =>
    intro closed
    simp [h.shut closed]

theorem Backs.nodup (h : s.Backs limit calls out) :
    (s.queue.map Waiter.id ++ s.told.map Waiter.id).Nodup := by
  have hp := (h.waiters.map Prod.fst).nodup_iff.mpr h.distinct
  simpa [Semaphore.waiters, Function.comp_def] using hp

/-- A call that was told on an open semaphore finds the permits that it needs, and from then on
has them in hand. -/
theorem Backs.look_taken (h : s.Backs limit calls out) (hl : s.look id = (.taken, t))
    {needed : Nat} (hc : (id, needed) ∈ calls) :
    t.Backs limit (calls.filter (·.1 != id)) (out + needed) := by
  unfold look at hl
  split at hl
  · cases hl
  next opened =>
  split at hl
  next told =>
    cases hl
    obtain ⟨w, hw, hid⟩ := List.any_eq_true.mp told
    replace hid : w.id = id := by simpa using hid
    subst hid
    have nodup := List.nodup_append.mp h.nodup
    have mine : (w.id, w.needed) ∈ calls :=
      h.waiters.subset (List.mem_map_of_mem (List.mem_append_right _ hw))
    have needs : w.needed = needed :=
      congrArg Prod.snd (List.inj_on_of_nodup_map h.distinct mine hc rfl)
    have elsewhere : s.queue.filter (·.id != w.id) = s.queue := by
      rw [List.filter_eq_self]
      intro x hx
      have hne := nodup.2.2 x.id (List.mem_map_of_mem hx) w.id (List.mem_map_of_mem hw)
      simpa using hne
    constructor
    case conserved =>
      have hh := h.conserved
      have hs := h.served (by simpa using opened) w hw
      have hp := ((perm_cons_filter_key nodup.2.1 hw).map (·.held)).sum_nat
      simp only [setAside, total, List.map_append, List.map_cons, List.sum_append_nat,
        List.sum_cons] at *
      omega
    case waiters =>
      have hp := h.waiters.filter (·.1 != w.id)
      rw [filter_waiters, elsewhere] at hp
      exact hp
    case distinct => exact h.distinct.sublist (List.filter_sublist.map _)
    case within => exact h.within
    case served => exact fun opened x hx => h.served opened x (List.mem_of_mem_filter hx)
    case shut => exact h.shut
  next => cases hl

theorem Backs.look_refused (h : s.Backs limit calls out) (hl : s.look id = (.refused, t)) :
    t.Backs limit (calls.filter (·.1 != id)) out := by
  unfold look at hl
  split at hl
  · cases hl
    exact h.withdraw id
  · split at hl <;> cases hl

theorem Backs.close (h : s.Backs limit calls out) : s.close.1.Backs limit calls out where
  conserved := by
    have hc := h.conserved
    simp only [Semaphore.close, setAside, total, List.map_append, List.map_nil,
      List.sum_append_nat, List.sum_nil] at *
    omega
  waiters := by
    refine List.Perm.trans (List.Perm.map _ ?_) h.waiters
    simpa [Semaphore.close] using List.perm_append_comm
  distinct := h.distinct
  within := by simp [Semaphore.close]
  served := by simp [Semaphore.close]
  shut := fun _ => rfl

/-- Nobody waits, so nothing is set aside. -/
theorem Backs.idle (h : s.Backs limit [] out) : s.free + out = limit := by
  have hw : s.queue ++ s.told = [] := List.map_eq_nil_iff.mp h.waiters.eq_nil
  have hc := h.conserved
  simp only [setAside, hw, total_nil] at hc
  omega

end Semaphore
end TopicPublisher
