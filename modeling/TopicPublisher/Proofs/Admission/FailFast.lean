import TopicPublisher.Proofs.Admission.Runs

/-!
Admission that fails fast, against a plain rule. The rule knows the live reservations and nothing
of semaphores, sizes in permits or a ledger. Main statement: every run on open ceilings takes the
decisions of the rule, and a refused request leaves no trace.
-/

namespace TopicPublisher

/-- The plain rule. Under a ceiling on bytes the size has to fit in 32 bits and below the ceiling;
then there has to be an element that no live reservation has, and then room for the bytes beside
those of the live reservations. -/
def Ceilings.refusal? (c : Ceilings) (live : List Reservation) (size : Nat) :
    Option PublishError :=
  if c.bytes.any fun limit => limit < size ∨ Nat.pow 2 32 ≤ size then
    some (.admissionRejected .requestBytes)
  else if c.elements.any fun limit => limit ≤ live.length then
    some (.admissionRejected .elementCount)
  else if c.bytes.any fun limit => limit < total Reservation.size live + size then
    some (.admissionRejected .requestBytes)
  else none

/-- Callers by the plain rule: how many came, the live reservations, and who was granted and
refused. -/
structure PlainAdmission where
  callers : Nat := 0
  live : List Reservation := []
  granted : List Nat := []
  refused : List (Nat × PublishError) := []

namespace PlainAdmission

def ask (c : Ceilings) (p : PlainAdmission) (size : Nat) : PlainAdmission :=
  match c.refusal? p.live size with
  | some error =>
    { p with callers := p.callers + 1, refused := p.refused ++ [(p.callers, error)] }
  | none =>
    { p with
      callers := p.callers + 1
      live := p.live ++ [⟨p.callers, size⟩]
      granted := p.granted ++ [p.callers] }

/-- Nobody waits, so there is nobody to give up. -/
def perform (c : Ceilings) (p : PlainAdmission) : AdmissionCommand → PlainAdmission
  | .attempt size => p.ask c size
  | .reserve size => p.ask c size
  | .release caller => { p with live := p.live.eraseP (·.id == caller) }
  | .cancel _ => p
  | .close => p

end PlainAdmission

/-! Permits that are not with anybody -/

namespace Backed

variable {o : Option Semaphore} {limit : Option Nat} {out permits : Nat}

theorem free_of_room (h : Backed o limit [] out)
    (room : (limit.any fun limit => limit < out + permits) = false) :
    ∀ s, o = some s → permits ≤ s.free := by
  intro s hs
  cases h with
  | unbounded => cases hs
  | ceiling backs =>
    obtain rfl := Option.some.inj hs
    have sum := backs.idle
    rw [Option.any_some, decide_eq_false_iff_not] at room
    omega

theorem short_of_full (h : Backed o limit [] out)
    (full : (limit.any fun limit => limit < out + permits) = true) :
    ∃ s, o = some s ∧ s.free < permits := by
  cases h with
  | unbounded => cases full
  | @ceiling s limit _ _ backs =>
    have sum := backs.idle
    rw [Option.any_some, decide_eq_true_iff] at full
    exact ⟨s, rfl, by omega⟩

end Backed

namespace Admission

variable {c : Ceilings} {a b : Admission} {id size : Nat} {error : PublishError}

theorem bytePermits_eq (c : Ceilings) (size : Nat) :
    c.bytePermits size =
      if c.bytes.any fun limit => limit < size ∨ Nat.pow 2 32 ≤ size then
        .error (.admissionRejected .requestBytes)
      else .ok (if c.bytes.isSome then size else 0) := by
  unfold Ceilings.bytePermits
  cases c.bytes with
  | none => rfl
  | some limit =>
    dsimp only
    rw [Option.any_some]
    by_cases large : limit < size ∨ Nat.pow 2 32 ≤ size
    · rw [if_pos large, if_pos (decide_eq_true large)]
    · rw [if_neg large, if_neg (by simpa using large)]
      rfl

theorem reserve_failFast (failFast : a.ceilings.behavior = .failFast) (id size : Nat) :
    a.reserve id size = a.tryReserve id size := by
  unfold reserve
  cases ok : a.ceilings.bytePermits size with
  | error e => rw [tryReserve, ok]
  | ok permits => rw [failFast]

/-- While nobody waits, an attempt is decided by the rule, and changes nothing if it is refused. -/
theorem Balanced.tryReserve_eq (h : a.Balanced c [] 0) (tight : a.Tight) (opened : a.Shut false)
    (idle : a.waiting = []) (id size : Nat) :
    a.tryReserve id size =
      match c.refusal? a.live.toList size with
      | some error => (.refused error, a, [])
      | none => (.granted, (a.elementTaken.bytesTaken size).grant id size, []) := by
  have elements : Backed a.elements c.elements [] a.live.toList.length := by
    have backed := h.elements
    rw [idle] at backed
    simpa using backed
  have bytes : Backed a.bytes c.bytes [] (total Reservation.size a.live.toList) := by
    have backed := h.bytes
    rwa [idle] at backed
  rw [tryReserve, h.ceilings, bytePermits_eq, Ceilings.refusal?]
  by_cases large : (c.bytes.any fun limit => limit < size ∨ Nat.pow 2 32 ≤ size) = true
  · rw [if_pos large, if_pos large]
  rw [if_neg large, if_neg large]
  dsimp only
  by_cases all : (c.elements.any fun limit => limit ≤ a.live.toList.length) = true
  · have full : (c.elements.any fun limit => limit < a.live.toList.length + 1) = true := by
      simpa only [Nat.lt_add_one_iff] using all
    obtain ⟨s, hs, none⟩ := elements.short_of_full full
    rw [if_pos all, tryElement_of_full opened hs none]
    rfl
  have some : (c.elements.any fun limit => limit < a.live.toList.length + 1) = false := by
    simpa only [Nat.lt_add_one_iff, Bool.not_eq_true] using all
  have free := elements.free_of_room some
  have after := opened.changed (elementTaken_changed free)
  have fits : a.elementTaken.Fits size (if c.bytes.isSome then size else 0) := fun bounded =>
    if_pos (h.isSome_bytes ▸ bounded)
  rw [if_neg all, tryElement_of_free opened free]
  dsimp only
  by_cases short :
      (c.bytes.any fun limit => limit < total Reservation.size a.live.toList + size) = true
  · obtain ⟨s, hs, less⟩ := bytes.short_of_full short
    rw [if_pos short, tryBytes_of_short after fits hs less, returnElement_elementTaken tight free]
  · have room := bytes.free_of_room (by simpa only [Bool.not_eq_true] using short)
    rw [if_neg short, tryBytes_of_room after fits room]

theorem release_live_eq (a : Admission) (id : Nat) :
    (a.release id).1.live.toList = a.live.toList.eraseP (·.id == id) := by
  have taken := Fifo.take?_map_toList (·.id == id) a.live
  unfold release
  split
  · next none =>
    refine (List.eraseP_of_forall_not fun x hx => ?_).symm
    rw [Fifo.not_of_take?_eq_none none x hx]
    exact Bool.false_ne_true
  · next r live ht =>
    dsimp only
    rw [returnBytes_fst, returnElement_fst]
    rw [ht] at taken
    obtain ⟨x, -, same⟩ := Option.map_eq_some_iff.mp taken.symm
    exact (Prod.mk.inj same).2.symm

end Admission

namespace AdmissionSession

variable {c : Ceilings} {s : AdmissionSession} {commands : List AdmissionCommand}
  {sizes told : List Nat} {gone : Nat → Prop} {caller size fuel : Nat}

/-- What the plain rule keeps of a session. -/
def plain (s : AdmissionSession) : PlainAdmission :=
  ⟨s.callers, s.admission.live.toList, s.granted, s.refused⟩

theorem settle_idle (idle : s.admission.waiting = []) (told : List Nat) : s.settle told = s := by
  unfold settle
  generalize told.length + 2 * s.admission.waiting.length = fuel
  induction fuel generalizing told with
  | zero => cases told <;> rfl
  | succ fuel ih =>
    cases told with
    | nil => rfl
    | cons caller rest =>
      have nobody : s.admission.resume caller = (.waiting, s.admission, []) := by
        rw [Admission.resume, Admission.request?, idle]
        rfl
      rw [settleWith, nobody]
      exact ih _

/-- A request that the rule refuses changes nothing but the numbers of callers. -/
theorem Underway.enter_refused (h : Underway c sizes gone s) (idle : s.admission.waiting = [])
    {error : PublishError} (full : c.refusal? s.admission.live.toList size = some error) :
    s.enter (s.admission.tryReserve s.callers size) =
      { s with callers := s.callers + 1, refused := s.refused ++ [(s.callers, error)] } := by
  rw [h.balanced.tryReserve_eq h.tight h.opened idle, full]
  exact enter_quiet s _ _

theorem Underway.enter_granted (h : Underway c sizes gone s) (idle : s.admission.waiting = [])
    (room : c.refusal? s.admission.live.toList size = none) :
    s.enter (s.admission.tryReserve s.callers size) =
      { s with
        admission := (s.admission.elementTaken.bytesTaken size).grant s.callers size
        callers := s.callers + 1
        granted := s.granted ++ [s.callers] } := by
  rw [h.balanced.tryReserve_eq h.tight h.opened idle, room]
  exact enter_quiet s _ _

theorem Underway.enter_plain (h : Underway c sizes gone s) (idle : s.admission.waiting = [])
    (size : Nat) :
    (s.enter (s.admission.tryReserve s.callers size)).plain = s.plain.ask c size ∧
      (s.enter (s.admission.tryReserve s.callers size)).admission.waiting = [] := by
  cases rule : c.refusal? s.admission.live.toList size with
  | some error =>
    have ruled : c.refusal? s.plain.live size = some error := rule
    rw [h.enter_refused idle rule, PlainAdmission.ask, ruled]
    exact ⟨rfl, idle⟩
  | none =>
    have ruled : c.refusal? s.plain.live size = none := rule
    have live : ((s.admission.elementTaken.bytesTaken size).grant s.callers size).live.toList =
        s.plain.live ++ [⟨s.callers, size⟩] := Fifo.toList_push _ _
    rw [h.enter_granted idle rule, PlainAdmission.ask, ruled, plain, live]
    exact ⟨rfl, idle⟩

theorem Underway.perform_plain (h : Underway c sizes gone s) (failFast : c.behavior = .failFast)
    (idle : s.admission.waiting = []) {command : AdmissionCommand} (opened : command ≠ .close) :
    (s.perform command).plain = s.plain.perform c command ∧
      (s.perform command).admission.waiting = [] := by
  cases command with
  | attempt size => exact h.enter_plain idle size
  | reserve size =>
    have asked := h.enter_plain idle size
    rw [← Admission.reserve_failFast (h.balanced.ceilings ▸ failFast)] at asked
    exact asked
  | release caller =>
    have left : (s.admission.release caller).1.waiting = [] := by
      have asked := Admission.release_asked s.admission caller
      rw [Admission.asked, Admission.asked, idle, List.map_nil, List.map_eq_nil_iff] at asked
      exact asked
    have done : s.perform (.release caller) =
        { s with admission := (s.admission.release caller).1 } := settle_idle left _
    rw [done, plain, Admission.release_live_eq]
    exact ⟨rfl, left⟩
  | cancel caller =>
    have nobody : s.admission.cancel caller = (s.admission, []) := by
      rw [Admission.cancel, Admission.request?, idle]
      rfl
    have done : s.perform (.cancel caller) = s := by
      rw [AdmissionSession.perform, nobody]
      exact settle_idle idle []
    rw [done]
    exact ⟨rfl, idle⟩
  | close => exact absurd rfl opened

theorem after_plain (failFast : c.behavior = .failFast) (opened : .close ∉ commands) :
    (after c commands).plain = commands.foldl (PlainAdmission.perform c) {} ∧
      (after c commands).admission.waiting = [] := by
  induction commands using List.reverseRecOn with
  | nil => exact ⟨rfl, rfl⟩
  | append_singleton before command ih =>
    rw [List.mem_append, List.mem_singleton, not_or] at opened
    obtain ⟨same, idle⟩ := ih opened.1
    obtain ⟨underway, -⟩ := after_underway c opened.1
    rw [after_concat, List.foldl_append, ← same]
    exact underway.perform_plain failFast idle (Ne.symm opened.2)

/-- On open ceilings that fail fast, after any attempts, reservations, cancellations and releases:
the callers that came, the live reservations in their order, and who was granted and who was refused
with which error are those of the plain rule, nobody waits, and the ledger shows the live
reservations. A request that the rule refuses next changes nothing in admission, neither the ledger
nor the reservations nor a semaphore. -/
theorem failFast_by_rule (failFast : c.behavior = .failFast) (opened : .close ∉ commands) :
    (after c commands).plain = commands.foldl (PlainAdmission.perform c) {} ∧
      (after c commands).admission.waiting = [] ∧
      (after c commands).admission.ledger =
        .ofLive (after c commands).admission.live.toList ∧
      ∀ size, c.refusal? (after c commands).admission.live.toList size ≠ none →
        ((after c commands).perform (.attempt size)).admission = (after c commands).admission ∧
          ((after c commands).perform (.reserve size)).admission =
            (after c commands).admission := by
  obtain ⟨same, idle⟩ := after_plain failFast opened
  obtain ⟨h, -⟩ := after_underway c opened
  refine ⟨same, idle, h.balanced.ledger, fun size refused => ?_⟩
  obtain ⟨error, full⟩ := Option.ne_none_iff_exists'.mp refused
  have kept := congrArg AdmissionSession.admission (h.enter_refused idle full)
  have behavior : (after c commands).admission.ceilings.behavior = .failFast := by
    rw [h.balanced.ceilings]
    exact failFast
  refine ⟨kept, ?_⟩
  rwa [← Admission.reserve_failFast behavior] at kept

/-- Two elements and eight bytes: a message that is too large, one without room beside the first,
and one without an element are refused; a message that fits in exactly is granted in between, and
another one after a release. When both elements are taken, a refusal leaves everything as it was. -/
theorem failFast_by_rule_two_elements :
    (after ⟨some 2, some 8, .failFast⟩ [.reserve 5, .attempt 9, .attempt 4, .reserve 3, .reserve 0,
        .release 0, .attempt 4]).plain =
      ⟨6, [⟨3, 3⟩, ⟨5, 4⟩], [0, 3, 5], [(1, .admissionRejected .requestBytes),
        (2, .admissionRejected .requestBytes), (4, .admissionRejected .elementCount)]⟩ ∧
      ((after ⟨some 2, some 8, .failFast⟩ [.reserve 5, .reserve 3]).perform
          (.reserve 0)).admission =
        (after ⟨some 2, some 8, .failFast⟩ [.reserve 5, .reserve 3]).admission :=
  ⟨(failFast_by_rule (by rfl) (by decide)).1,
    ((failFast_by_rule (by rfl) (by decide)).2.2.2 0 (by decide)).2⟩

end AdmissionSession
end TopicPublisher
