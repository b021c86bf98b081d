import TopicPublisher.Proofs.Admission.Waiting
import Mathlib.Logic.Relation

/-!
Admission under every interleaving. The calls of admission are cut into the steps that they take
one at a time, and the steps of different calls may come in any order. Main statement: at every
moment the ledger shows the live reservations, and the permits of each ceiling are all accounted
for.
-/

namespace TopicPublisher
namespace Admission

/-- Admission, and the requests that are between their element and their bytes. -/
structure Moment where
  admission : Admission
  between : List Reservation := []

namespace Moment

/-- A request was given its element, or was not. -/
def proceed (m : Moment) (id size : Nat) : Acquisition × Admission → Moment
  | (.taken, a) => ⟨a, ⟨id, size⟩ :: m.between⟩
  | (_, a) => ⟨a, m.between⟩

/-- The steps of calls. A reservation asks for its element, or tries to take it at once; it then
takes its bytes, or tries to; waiting requests look for what they were given, or are given up;
reservations are released, and the two ceilings are closed one after the other. -/
inductive Step (m : Moment) : Moment → Prop where
  | ask (id size permits : Nat) : m.admission.Unused m.between id →
      m.admission.ceilings.bytePermits size = .ok permits →
      Step m (m.proceed id size (m.admission.askElement id size))
  | tryElement (id size permits : Nat) (a : Admission) : m.admission.Unused m.between id →
      m.admission.ceilings.bytePermits size = .ok permits → m.admission.tryElement = .ok a →
      Step m ⟨a, ⟨id, size⟩ :: m.between⟩
  | takeBytes (r : Reservation) (permits : Nat) : r ∈ m.between →
      m.admission.Fits r.size permits →
      Step m ⟨(m.admission.takeBytes r.id r.size permits).2.1, m.between.erase r⟩
  | tryBytes (r : Reservation) (permits : Nat) : r ∈ m.between →
      m.admission.Fits r.size permits →
      Step m ⟨(m.admission.tryBytes r.id r.size permits).2.1, m.between.erase r⟩
  | lookElement (r : Request) : r ∈ m.admission.waiting → r.stage = .element →
      Step m (m.proceed r.id r.size (m.admission.lookElement r.id))
  | lookBytes (r : Request) : r ∈ m.admission.waiting → r.stage = .bytes →
      Step m ⟨(m.admission.lookBytes r.id r.size).2.1, m.between⟩
  | cancel (id : Nat) : Step m ⟨(m.admission.cancel id).1, m.between⟩
  | release (id : Nat) : Step m ⟨(m.admission.release id).1, m.between⟩
  | closeElements : Step m ⟨m.admission.closeElements.1, m.between⟩
  | closeBytes : Step m ⟨m.admission.closeBytes.1, m.between⟩

abbrev Steps : Moment → Moment → Prop := Relation.ReflTransGen Step

abbrev Balanced (c : Ceilings) (m : Moment) : Prop := m.admission.Balanced c m.between 0

variable {c : Ceilings} {m n : Moment}

theorem Balanced.step (h : m.Balanced c) (step : Step m n) : n.Balanced c := by
  cases step with
  | ask id size permits unused _ =>
    cases ha : m.admission.askElement id size with
    | mk answer a =>
      cases answer with
      | taken => exact h.askElement_taken unused ha
      | queued => exact h.askElement_queued unused ha
      | refused =>
        obtain rfl := askElement_refused ha
        exact h
  | tryElement id size permits a unused _ ha => exact Admission.Balanced.tryElement h unused ha
  | takeBytes r permits hr fits =>
    exact (h.perm (List.perm_cons_erase hr)).takeBytes fits
  | tryBytes r permits hr fits =>
    exact (h.perm (List.perm_cons_erase hr)).tryBytes fits
  | lookElement r hr stage =>
    cases hl : m.admission.lookElement r.id with
    | mk answer a =>
      cases answer with
      | taken => exact h.lookElement_taken hr stage hl
      | queued =>
        obtain rfl := lookElement_queued hl
        exact h
      | refused => exact h.lookElement_refused hr stage hl
  | lookBytes r hr stage => exact Admission.Balanced.lookBytes h hr stage
  | cancel id => exact Admission.Balanced.cancel h id
  | release id => exact Admission.Balanced.release h id
  | closeElements => exact Admission.Balanced.closeElements h
  | closeBytes => exact Admission.Balanced.closeBytes h

theorem Balanced.steps (h : m.Balanced c) (steps : Steps m n) : n.Balanced c := by
  induction steps with
  | refl => exact h
  | tail _ step ih => exact ih.step step

end Moment

variable {c : Ceilings} {a b : Admission} {between : List Reservation} {id size permits : Nat}

theorem Balanced.isSome_bytes (h : a.Balanced c between 0) : a.bytes.isSome = c.bytes.isSome := by
  have hb := h.bytes
  cases ha : a.bytes <;> rw [ha] at hb <;> cases hc : c.bytes <;> rw [hc] at hb <;>
    first | rfl | cases hb

theorem Balanced.fits (h : a.Balanced c between 0) (hp : c.bytePermits size = .ok permits) :
    a.Fits size permits := by
  intro hs
  rw [h.isSome_bytes] at hs
  unfold Ceilings.bytePermits at hp
  cases hc : c.bytes with
  | none => rw [hc] at hs; cases hs
  | some limit =>
    simp only [hc] at hp
    split at hp
    · cases hp
    · exact (Except.ok.inj hp).symm

/-! Whole calls -/

open Moment

theorem afterElement_steps {answer : Acquisition} {start : Moment}
    (asked : Steps start (start.proceed id size (answer, b)))
    (hb : answer = .taken → b.Fits size permits) :
    Steps start ⟨(afterElement id size permits (answer, b)).2.1, start.between⟩ := by
  cases answer with
  | taken =>
    refine asked.tail ?_
    simpa [afterElement, proceed] using Step.takeBytes
      (m := start.proceed id size (.taken, b)) ⟨id, size⟩ permits (by simp [proceed]) (hb rfl)
  | queued => exact asked
  | refused => exact asked

theorem tryReserve_steps (h : a.Balanced c between 0) (unused : a.Unused between id) :
    Steps ⟨a, between⟩ ⟨(a.tryReserve id size).2.1, between⟩ := by
  unfold tryReserve
  cases hp : a.ceilings.bytePermits size with
  | error e => exact .refl
  | ok permits =>
    dsimp only
    cases ht : a.tryElement with
    | error e => exact .refl
    | ok b =>
      have entered : Step ⟨a, between⟩ ⟨b, ⟨id, size⟩ :: between⟩ :=
        .tryElement id size permits b unused hp ht
      have fits := (Moment.Balanced.step (m := ⟨a, between⟩) h entered).fits (h.ceilings ▸ hp)
      refine .tail (.single entered) ?_
      simpa using Step.tryBytes (m := ⟨b, ⟨id, size⟩ :: between⟩) ⟨id, size⟩ permits (by simp) fits

theorem reserve_steps (h : a.Balanced c between 0) (unused : a.Unused between id) :
    Steps ⟨a, between⟩ ⟨(a.reserve id size).2.1, between⟩ := by
  unfold reserve
  cases hp : a.ceilings.bytePermits size with
  | error e => exact .refl
  | ok permits =>
    dsimp only
    cases a.ceilings.behavior with
    | failFast => exact tryReserve_steps h unused
    | block =>
      have asked : Step ⟨a, between⟩ (proceed ⟨a, between⟩ id size (a.askElement id size)) :=
        .ask id size permits unused hp
      have balanced := Moment.Balanced.step (m := ⟨a, between⟩) h asked
      cases ha : a.askElement id size with
      | mk answer b =>
        rw [ha] at asked balanced
        refine afterElement_steps (.single asked) ?_
        rintro rfl
        exact balanced.fits (h.ceilings ▸ hp)

theorem resume_steps (h : a.Balanced c between 0) (id : Nat) :
    Steps ⟨a, between⟩ ⟨(a.resume id).2.1, between⟩ := by
  unfold resume
  cases hr : a.request? id with
  | none => exact .refl
  | some r =>
    obtain ⟨hm, rfl⟩ := mem_of_request? hr
    dsimp only
    cases stage : r.stage with
    | element =>
      have looked : Step ⟨a, between⟩ (proceed ⟨a, between⟩ r.id r.size (a.lookElement r.id)) :=
        .lookElement r hm stage
      have balanced := Moment.Balanced.step (m := ⟨a, between⟩) h looked
      cases hl : a.lookElement r.id with
      | mk answer b =>
        rw [hl] at looked balanced
        refine afterElement_steps (.single looked) ?_
        rintro rfl hs
        have same : b.bytes.isSome = a.bytes.isSome :=
          (Balanced.isSome_bytes balanced).trans h.isSome_bytes.symm
        simp [permitsFor, same ▸ hs]
    | bytes => exact .single (.lookBytes r hm stage)

theorem Balanced.after_tryReserve (h : a.Balanced c between 0) (unused : a.Unused between id)
    (size : Nat) : (a.tryReserve id size).2.1.Balanced c between 0 :=
  Moment.Balanced.steps (m := ⟨a, between⟩) h (tryReserve_steps h unused)

theorem Balanced.after_reserve (h : a.Balanced c between 0) (unused : a.Unused between id)
    (size : Nat) : (a.reserve id size).2.1.Balanced c between 0 :=
  Moment.Balanced.steps (m := ⟨a, between⟩) h (reserve_steps h unused)

theorem Balanced.after_resume (h : a.Balanced c between 0) (id : Nat) :
    (a.resume id).2.1.Balanced c between 0 :=
  Moment.Balanced.steps (m := ⟨a, between⟩) h (resume_steps h id)

theorem close_steps (a : Admission) (between : List Reservation) :
    Steps ⟨a, between⟩ ⟨a.close.1, between⟩ :=
  .tail (.single .closeElements) .closeBytes

/-! What the books say -/

namespace Moment

/-- How many requests hold an element and not yet their bytes. -/
def holders (m : Moment) : Nat :=
  m.between.length + m.admission.waiting.countP (·.stage == .bytes)

def live (m : Moment) : List Reservation := m.admission.live.toList

/-- No reservation is live, and no request is on its way to one. -/
structure Idle (m : Moment) : Prop where
  live : m.live = []
  waiting : m.admission.waiting = []
  between : m.between = []

end Moment

/-- At every moment of every run, under valid ceilings, the ledger shows the number and the
total size of the live reservations. No ceiling is exceeded, and each of its permits is free, set
aside for a request that waits, held by a request between its element and its bytes, or taken by
a live reservation. Once nothing is going on, all of them are free. -/
theorem permits_accounted {c : Ceilings} (valid : c.validate = .ok ()) {m : Moment}
    (run : Steps ⟨ofCeilings c, []⟩ m) :
    m.admission.ledger.elements = UInt64.ofNat m.live.length ∧
      m.admission.ledger.bytes = UInt64.ofNat (total Reservation.size m.live) ∧
      (∀ limit, c.elements = some limit →
        m.admission.ledger.elements.toNat = m.live.length ∧ m.live.length ≤ limit ∧
          ∃ s, m.admission.elements = some s ∧
            s.free + s.setAside + m.holders + m.live.length = limit ∧
            (m.Idle → s.free = limit)) ∧
      (∀ limit, c.bytes = some limit →
        m.admission.ledger.bytes.toNat = total Reservation.size m.live ∧
          total Reservation.size m.live ≤ limit ∧
          ∃ s, m.admission.bytes = some s ∧
            s.free + s.setAside + total Reservation.size m.live = limit ∧
            (m.Idle → s.free = limit)) := by
  have h : m.admission.Balanced c m.between 0 :=
    Moment.Balanced.steps (m := ⟨ofCeilings c, []⟩) (ofCeilings_balanced c) run
  have ledger : m.admission.ledger = .ofLive m.live := h.ledger
  have fits64 : ∀ n limit : Nat, limit ≤ maxPermits → n ≤ limit → (UInt64.ofNat n).toNat = n := by
    intro n limit hl hn
    rw [UInt64.toNat_ofNat', Nat.mod_eq_of_lt]
    exact Nat.lt_of_le_of_lt (Nat.le_trans hn hl) (by decide : maxPermits < 2 ^ 64)
  obtain ⟨validElements, validBytes⟩ := (Ceilings.validate_eq_ok_iff c).mp valid
  refine ⟨by rw [ledger]; rfl, by rw [ledger]; rfl, ?_, ?_⟩
  · intro limit hc
    obtain ⟨s, hs, backs⟩ := Backed.exists_semaphore (hc ▸ h.elements)
    have sum : s.free + s.setAside + m.holders + m.live.length = limit := by
      rw [← backs.conserved, Request.length_callsAt, Moment.holders, Moment.live]
      omega
    have bound : m.live.length ≤ limit := by omega
    refine ⟨?_, bound, s, hs, sum, ?_⟩
    · rw [ledger]
      exact fits64 _ limit (validElements limit hc).2 bound
    · intro idle
      rw [idle.waiting, idle.between, show m.admission.live.toList = [] from idle.live] at backs
      exact backs.idle
  · intro limit hc
    obtain ⟨s, hs, backs⟩ := Backed.exists_semaphore (hc ▸ h.bytes)
    have sum : s.free + s.setAside + total Reservation.size m.live = limit := backs.conserved
    have bound : total Reservation.size m.live ≤ limit := by omega
    refine ⟨?_, bound, s, hs, sum, ?_⟩
    · rw [ledger]
      exact fits64 _ limit (validBytes limit hc).2 bound
    · intro idle
      rw [idle.waiting, show m.admission.live.toList = [] from idle.live] at backs
      exact backs.idle

/-- Two elements and eight bytes: one reservation of five bytes is live, and a request for six
holds its element and has three bytes set aside. -/
theorem permits_accounted_waiting_for_bytes :
    ∃ m, Steps ⟨ofCeilings ⟨some 2, some 8, .block⟩, []⟩ m ∧ m.live = [⟨0, 5⟩] ∧
      m.holders = 1 ∧ m.admission.ledger.bytes.toNat = total Reservation.size m.live ∧
        ∃ s, m.admission.bytes = some s ∧ s.setAside = 3 ∧
          s.free + s.setAside + total Reservation.size m.live = 8 := by
  have asked : Steps ⟨ofCeilings ⟨some 2, some 8, .block⟩, []⟩ _ :=
    .single (.ask 0 5 5 (by decide) rfl)
  have granted := asked.tail (.takeBytes ⟨0, 5⟩ 5 (by decide) fun _ => rfl)
  have askedAgain := granted.tail (.ask 1 6 6 (by decide) rfl)
  have waits := askedAgain.tail (.takeBytes ⟨1, 6⟩ 6 (by decide) fun _ => rfl)
  obtain ⟨exact, -, s, hs, sum, -⟩ := (permits_accounted (by decide) waits).2.2.2 8 rfl
  refine ⟨_, waits, rfl, rfl, exact, s, hs, ?_, sum⟩
  cases hs
  rfl

end Admission
end TopicPublisher
