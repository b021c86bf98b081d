import TopicPublisher.Admission.Control

/-!
Admission by itself: callers try, reserve, cancel and release, and after each of these all
callers that were told to go on do so, until none is left.
-/

namespace TopicPublisher

/-- What is done with admission. A caller keeps its number for as long as it waits or holds a
reservation. -/
inductive AdmissionCommand where
  | attempt (size : Nat)
  | reserve (size : Nat)
  | release (caller : Nat)
  | cancel (caller : Nat)
  | close
deriving DecidableEq, Repr, Inhabited

/-- The callers that were decided on, each with its error if it was refused, and the ledger. -/
structure AdmissionReport where
  granted : List Nat
  refused : List (Nat × PublishError)
  ledger : Ledger
deriving DecidableEq, Repr

/-- A session with admission, and the callers that were decided on since the last report. -/
structure AdmissionSession where
  admission : Admission
  callers : Nat := 0
  granted : List Nat := []
  refused : List (Nat × PublishError) := []

namespace AdmissionSession

def ofCeilings (c : Ceilings) : AdmissionSession := { admission := .ofCeilings c }

def note (s : AdmissionSession) (caller : Nat) : Decision → AdmissionSession
  | .granted => { s with granted := s.granted ++ [caller] }
  | .waiting => s
  | .refused error => { s with refused := s.refused ++ [(caller, error)] }

/-- Lets the callers in a list go on, and then those that are told because of it. A caller that
waits is told at most twice, which bounds `fuel`. -/
def settleWith : (fuel : Nat) → List Nat → AdmissionSession → AdmissionSession
  | _, [], s => s
  | 0, _, s => s
  | fuel + 1, caller :: rest, s =>
    let (decision, admission, told) := s.admission.resume caller
    settleWith fuel (rest ++ told) ({ s with admission := admission }.note caller decision)

def settle (s : AdmissionSession) (told : List Nat) : AdmissionSession :=
  s.settleWith (told.length + 2 * s.admission.waiting.length) told

def enter (s : AdmissionSession) (answer : Decision × Admission × List Nat) : AdmissionSession :=
  let (decision, admission, told) := answer
  ({ s with admission := admission, callers := s.callers + 1 }.note s.callers decision).settle told

def perform (s : AdmissionSession) : AdmissionCommand → AdmissionSession
  | .attempt size => s.enter (s.admission.tryReserve s.callers size)
  | .reserve size => s.enter (s.admission.reserve s.callers size)
  | .release caller =>
    let (admission, told) := s.admission.release caller
    { s with admission := admission }.settle told
  | .cancel caller =>
    let (admission, told) := s.admission.cancel caller
    { s with admission := admission }.settle told
  | .close =>
    let (admission, told) := s.admission.close
    { s with admission := admission }.settle told

/-- The report since the last one, callers in the order of their numbers. -/
def report (s : AdmissionSession) : AdmissionReport where
  granted := s.granted.mergeSort (· ≤ ·)
  refused := s.refused.mergeSort fun a b => a.1 ≤ b.1
  ledger := s.admission.ledger

def reports : List AdmissionCommand → AdmissionSession → List AdmissionReport
  | [], _ => []
  | command :: rest, s =>
    let next := { s with granted := [], refused := [] }.perform command
    next.report :: reports rest next

end AdmissionSession
end TopicPublisher
