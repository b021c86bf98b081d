import TopicPublisher.Admission.Control
import TopicPublisher.Proofs.Admission.Semaphore

/-!
Ceilings and the semaphores that back them, the requests that wait at a stage, and the ledger of
some live reservations.
-/

namespace TopicPublisher

/-- The permits that a request of some size needs at a stage. -/
def Stage.permits : Stage → Nat → Nat
  | .element, _ => 1
  | .bytes, size => size

/-- The requests that wait at a stage, each with the permits that it needs there. -/
def Request.callsAt (stage : Stage) (rs : List Request) : List (Nat × Nat) :=
  (rs.filter (·.stage == stage)).map fun r => (r.id, stage.permits r.size)

/-- A ceiling is backed by a semaphore; without a ceiling there is no semaphore and nobody
waits. -/
inductive Backed : Option Semaphore → Option Nat → List (Nat × Nat) → Nat → Prop where
  | unbounded {out : Nat} : Backed none none [] out
  | ceiling {s : Semaphore} {limit out : Nat} {calls : List (Nat × Nat)} :
      s.Backs limit calls out → Backed (some s) (some limit) calls out

namespace Request

variable {stage : Stage} {rs : List Request} {r : Request}

@[simp] theorem callsAt_nil : callsAt stage [] = [] := rfl

theorem callsAt_append (xs ys : List Request) :
    callsAt stage (xs ++ ys) = callsAt stage xs ++ callsAt stage ys := by
  simp [callsAt]

theorem callsAt_single_self (id size : Nat) :
    callsAt stage [⟨id, size, stage⟩] = [(id, stage.permits size)] := by
  simp [callsAt]

theorem callsAt_single_of_ne {other : Stage} (h : other ≠ stage) (id size : Nat) :
    callsAt stage [⟨id, size, other⟩] = [] := by
  simp [callsAt, h]

theorem callsAt_filter_ne (id : Nat) :
    callsAt stage (rs.filter (·.id != id)) = (callsAt stage rs).filter (·.1 != id) := by
  simp [callsAt, List.filter_map, List.filter_filter, Function.comp_def, Bool.and_comm]

theorem length_callsAt : (callsAt stage rs).length = rs.countP (·.stage == stage) := by
  rw [callsAt, List.length_map, List.countP_eq_length_filter]

theorem mem_ids_of_mem_callsAt {id : Nat} (h : id ∈ (callsAt stage rs).map Prod.fst) :
    id ∈ rs.map Request.id := by
  simp only [callsAt, List.map_map, List.mem_map, List.mem_filter] at h
  obtain ⟨r, ⟨hr, -⟩, rfl⟩ := h
  exact List.mem_map_of_mem hr

theorem mem_callsAt (hr : r ∈ rs) : (r.id, r.stage.permits r.size) ∈ callsAt r.stage rs :=
  List.mem_map.mpr ⟨r, List.mem_filter.mpr ⟨hr, by simp⟩, rfl⟩

/-- The calls at a stage are those of one request and those of all the others. -/
theorem callsAt_perm (stage : Stage) (nodup : (rs.map Request.id).Nodup) (hr : r ∈ rs) :
    (callsAt stage rs).Perm (callsAt stage [r] ++ callsAt stage (rs.filter (·.id != r.id))) := by
  rw [← callsAt_append]
  exact ((perm_cons_filter_key nodup hr).filter _).map _

end Request

namespace Backed

variable {s t : Semaphore} {limit : Option Nat} {out : Nat} {calls more : List (Nat × Nat)}

theorem update (h : Backed (some s) limit calls out) {after : Nat}
    (step : ∀ limit, s.Backs limit calls out → t.Backs limit more after) :
    Backed (some t) limit more after := by
  cases h with
  | ceiling backs => exact .ceiling (step _ backs)

theorem absent (h : Backed none limit calls out) (after : Nat) :
    Backed none limit calls after := by
  cases h
  exact .unbounded

theorem calls_eq_nil (h : Backed none limit calls out) : calls = [] := by
  cases h
  rfl

theorem exists_semaphore {o : Option Semaphore} {permits : Nat}
    (h : Backed o (some permits) calls out) : ∃ s, o = some s ∧ s.Backs permits calls out := by
  cases h with
  | ceiling backs => exact ⟨_, rfl, backs⟩

theorem perm {o : Option Semaphore} (h : Backed o limit calls out) (hp : calls.Perm more) :
    Backed o limit more out := by
  cases h with
  | unbounded =>
    cases hp.symm.eq_nil
    exact .unbounded
  | ceiling backs => exact .ceiling (backs.perm hp)

theorem giveBack {o : Option Semaphore} {permits : Nat}
    (h : Backed o limit calls (out + permits)) :
    Backed (o.map fun s => (s.release permits).1) limit calls out := by
  cases h with
  | unbounded => exact .unbounded
  | ceiling backs => exact .ceiling backs.release

theorem close {o : Option Semaphore} (h : Backed o limit calls out) :
    Backed (o.map fun s => s.close.1) limit calls out := by
  cases h with
  | unbounded => exact .unbounded
  | ceiling backs => exact .ceiling backs.close

end Backed

/-- What the ledger shows while some reservations are live. -/
def Ledger.ofLive (live : List Reservation) : Ledger where
  elements := UInt64.ofNat live.length
  bytes := UInt64.ofNat (total Reservation.size live)

theorem Ledger.acquire_ofLive (live : List Reservation) (r : Reservation) :
    (ofLive live).acquire r.size = ofLive (live ++ [r]) := by
  simp [ofLive, acquire, total, UInt64.ofNat_add]

theorem Ledger.ofLive_perm {xs ys : List Reservation} (h : xs.Perm ys) :
    ofLive xs = ofLive ys := by
  rw [ofLive, ofLive, h.length_eq, total, (h.map _).sum_nat, total]

theorem Ledger.release_ofLive {live rest : List Reservation} {r : Reservation}
    (h : live.Perm (r :: rest)) : (ofLive live).release r.size = ofLive rest := by
  have hp : live.Perm (rest ++ [r]) := h.trans (List.perm_append_singleton r rest).symm
  rw [ofLive_perm hp, ← acquire_ofLive, release_acquire]

end TopicPublisher
