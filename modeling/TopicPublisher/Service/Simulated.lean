import TopicPublisher.Decimal.Binary64
import TopicPublisher.Service.Basic

/-!
A simulated service: every call takes the same time, then either suffers an outage or hands out
the next identifiers. Identifiers are claimed when a call answers, so a call that was given up
claims none.
-/

namespace TopicPublisher

/-- The chance of an outage, as a number of the `2 ^ 53` draws that there are. -/
structure OutageRate where
  draws : Nat
deriving DecidableEq, Repr, Inhabited

namespace OutageRate

def resolution : Nat := Nat.pow 2 53

/-- The rate nearest to a number, which is brought between zero and one; no number at all
counts as zero. -/
def ofNumber (x : Binary64) : OutageRate :=
  match x.value with
  | .nan => ⟨0⟩
  | .infinite negative => if negative then ⟨0⟩ else ⟨resolution⟩
  | .finite true _ _ => ⟨0⟩
  | .finite false mantissa exponent =>
    let (num, den) := scaled mantissa exponent
    if den ≤ num then ⟨resolution⟩ else ⟨roundDiv .toEven (num * resolution) den⟩

def hits (r : OutageRate) (draw : Nat) : Bool := decide (draw % resolution < r.draws)

theorem hits_zero (draw : Nat) : hits ⟨0⟩ draw = false := by simp [hits]

end OutageRate

/-- The state of the service: its latency in milliseconds, its chance of an outage, the next
identifier, and the source of its draws. -/
structure Simulated where
  latency : Nat
  outages : OutageRate
  nextId : UInt64 := 0
  source : StdGen := mkStdGen

namespace Simulated

def outage : TransportError := .unavailable "simulated outage"

/-- The identifiers of `count` messages from `first` on. -/
def idsFrom (first : UInt64) (count : Nat) : List MessageId :=
  (List.range count).map fun i => toString (first.toNat + i)

def answer (s : Simulated) (count : Nat) : Reply × Simulated :=
  let (draw, source) := randNat s.source 0 (OutageRate.resolution - 1)
  if s.outages.hits draw then (.failure outage, { s with source := source })
  else
    (.ids (idsFrom s.nextId count),
      { s with nextId := s.nextId + UInt64.ofNat count, source := source })

/-- The simulation as a service. A call in flight is its number of messages. -/
def service : Service Simulated Nat where
  start s messages := (some s.latency, messages.length, s)
  answer := answer

/-- Makes one call after the other, with the given numbers of messages, from reading `now` on.
Each reply comes with the reading at which its call ended. -/
def callsFrom (s : Simulated) (now : Nat) : List Nat → List (Nat × Reply)
  | [] => []
  | count :: rest =>
    let (reply, next) := s.answer count
    (now + s.latency, reply) :: next.callsFrom (now + s.latency) rest

end Simulated
end TopicPublisher
