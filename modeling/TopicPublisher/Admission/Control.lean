import TopicPublisher.Admission.Ceilings
import TopicPublisher.Admission.Ledger
import TopicPublisher.Admission.Semaphore
import TopicPublisher.Fifo

/-!
Admission control. A request asks for one element and for the bytes of its message; each
ceiling is backed by a semaphore, and the element is always taken first. A request is granted,
refused, or waits for its element or, holding that, for its bytes. Every operation also names
the requests that may go on because of it, in the order in which they do.
-/

namespace TopicPublisher

inductive Stage where
  | element
  | bytes
deriving DecidableEq, Repr, Inhabited

structure Request where
  id : Nat
  size : Nat
  stage : Stage
deriving DecidableEq, Repr, Inhabited

/-- Capacity that was granted to a message and is not released yet. -/
structure Reservation where
  id : Nat
  size : Nat
deriving DecidableEq, Repr, Inhabited

inductive Decision where
  | granted
  | waiting
  | refused (error : PublishError)
deriving DecidableEq, Repr

/-- Admission: a semaphore for each ceiling, the ledger, the requests that wait and the
reservations that are held. -/
structure Admission where
  ceilings : Ceilings
  elements : Option Semaphore
  bytes : Option Semaphore
  ledger : Ledger := {}
  waiting : List Request := []
  live : Fifo Reservation := {}
deriving DecidableEq, Repr, Inhabited

namespace Admission

/-- Nothing admitted, and all permits of each ceiling free. -/
def ofCeilings (c : Ceilings) : Admission where
  ceilings := c
  elements := c.elements.map fun limit => { free := limit }
  bytes := c.bytes.map fun limit => { free := limit }

/-- The error of a request that found too few permits below `limit`. -/
def shortageError (limit : Limit) : Shortage → PublishError
  | .noPermits => .admissionRejected limit
  | .closed => .engineShutdown

def grant (a : Admission) (id size : Nat) : Admission :=
  { a with ledger := a.ledger.acquire size, live := a.live.push ⟨id, size⟩ }

def returnElement (a : Admission) : Admission × List Nat :=
  match a.elements with
  | none => (a, [])
  | some s =>
    let (s, told) := s.release 1
    ({ a with elements := some s }, told)

def returnBytes (a : Admission) (permits : Nat) : Admission × List Nat :=
  match a.bytes with
  | none => (a, [])
  | some s =>
    let (s, told) := s.release permits
    ({ a with bytes := some s }, told)

/-- Takes the byte permits of a request that has its element and does not wait. -/
def tryBytes (a : Admission) (id size permits : Nat) : Decision × Admission × List Nat :=
  match a.bytes with
  | none => (.granted, a.grant id size, [])
  | some s =>
    match s.tryAcquire permits with
    | .ok s => (.granted, { a with bytes := some s }.grant id size, [])
    | .error shortage => (.refused (shortageError .requestBytes shortage), a.returnElement)

def tryElement (a : Admission) : Except Shortage Admission :=
  match a.elements with
  | none => .ok a
  | some s => (s.tryAcquire 1).map fun s => { a with elements := some s }

def tryReserve (a : Admission) (id size : Nat) : Decision × Admission × List Nat :=
  match a.ceilings.bytePermits size with
  | .error e => (.refused e, a, [])
  | .ok permits =>
    match a.tryElement with
    | .error shortage => (.refused (shortageError .elementCount shortage), a, [])
    | .ok b => b.tryBytes id size permits

/-- Takes the byte permits of a request that has its element, or waits for them. A refused
request gives its element back. -/
def takeBytes (a : Admission) (id size permits : Nat) : Decision × Admission × List Nat :=
  match a.bytes with
  | none => (.granted, a.grant id size, [])
  | some s =>
    match s.acquire id permits with
    | (.taken, s) => (.granted, { a with bytes := some s }.grant id size, [])
    | (.queued, s) =>
      (.waiting, { a with bytes := some s, waiting := a.waiting ++ [⟨id, size, .bytes⟩] }, [])
    | (.refused, s) => (.refused .engineShutdown, { a with bytes := some s }.returnElement)

/-- Asks for the element of a request, which waits if there is none. -/
def askElement (a : Admission) (id size : Nat) : Acquisition × Admission :=
  match a.elements with
  | none => (.taken, a)
  | some s =>
    match s.acquire id 1 with
    | (.queued, s) =>
      (.queued, { a with elements := some s, waiting := a.waiting ++ [⟨id, size, .element⟩] })
    | (answer, s) => (answer, { a with elements := some s })

/-- Goes on with a request that was given its element, or still waits for it, or was refused. -/
def afterElement (id size permits : Nat) :
    Acquisition × Admission → Decision × Admission × List Nat
  | (.taken, a) => a.takeBytes id size permits
  | (.queued, a) => (.waiting, a, [])
  | (.refused, a) => (.refused .engineShutdown, a, [])

/-- Reserves capacity for a message, and at a ceiling does as the settings say. -/
def reserve (a : Admission) (id size : Nat) : Decision × Admission × List Nat :=
  match a.ceilings.bytePermits size with
  | .error e => (.refused e, a, [])
  | .ok permits =>
    match a.ceilings.behavior with
    | .failFast => a.tryReserve id size
    | .block => afterElement id size permits (a.askElement id size)

def request? (a : Admission) (id : Nat) : Option Request := a.waiting.find? (·.id == id)

def settle (a : Admission) (id : Nat) : Admission :=
  { a with waiting := a.waiting.filter (·.id != id) }

/-- The byte permits of a request that was found admissible. -/
def permitsFor (a : Admission) (size : Nat) : Nat := if a.bytes.isSome then size else 0

/-- A request that waited for its element looks for it. -/
def lookElement (a : Admission) (id : Nat) : Acquisition × Admission :=
  match a.elements with
  | none => (.queued, a)
  | some s =>
    match s.look id with
    | (.queued, _) => (.queued, a)
    | (answer, s) => (answer, { a.settle id with elements := some s })

/-- A request that waited for its bytes looks for them. A refused request gives its element
back. -/
def lookBytes (a : Admission) (id size : Nat) : Decision × Admission × List Nat :=
  match a.bytes with
  | none => (.waiting, a, [])
  | some s =>
    match s.look id with
    | (.taken, s) => (.granted, { a.settle id with bytes := some s }.grant id size, [])
    | (.queued, _) => (.waiting, a, [])
    | (.refused, s) =>
      (.refused .engineShutdown, { a.settle id with bytes := some s }.returnElement)

/-- A request that was told to go on looks for its permits: one that waited for its element
then takes its bytes, one that waited for its bytes is granted. -/
def resume (a : Admission) (id : Nat) : Decision × Admission × List Nat :=
  match a.request? id with
  | none => (.waiting, a, [])
  | some r =>
    match r.stage with
    | .element => afterElement id r.size (a.permitsFor r.size) (a.lookElement id)
    | .bytes => a.lookBytes id r.size

/-- A request that waits is given up. What it held goes to the next ones: bytes first, then
its element. -/
def cancel (a : Admission) (id : Nat) : Admission × List Nat :=
  match a.request? id with
  | none => (a, [])
  | some r =>
    let b := a.settle id
    match r.stage with
    | .element =>
      match b.elements with
      | none => (b, [])
      | some s =>
        let (s, told) := s.withdraw id
        ({ b with elements := some s }, told)
    | .bytes =>
      match b.bytes with
      | none => (b, [])
      | some s =>
        let (s, told) := s.withdraw id
        let (c, more) := { b with bytes := some s }.returnElement
        (c, told ++ more)

/-- Releases a reservation that is held: the ledger first, then its element, then its bytes. -/
def release (a : Admission) (id : Nat) : Admission × List Nat :=
  match a.live.take? (·.id == id) with
  | none => (a, [])
  | some (r, live) =>
    let b := { a with ledger := a.ledger.release r.size, live := live }
    let (c, told) := b.returnElement
    let (d, more) := c.returnBytes r.size
    (d, told ++ more)

def closeElements (a : Admission) : Admission × List Nat :=
  match a.elements with
  | none => (a, [])
  | some s => ({ a with elements := some s.close.1 }, s.close.2)

def closeBytes (a : Admission) : Admission × List Nat :=
  match a.bytes with
  | none => (a, [])
  | some s => ({ a with bytes := some s.close.1 }, s.close.2)

/-- Closes every ceiling. Waiting requests are told to go on and will be refused; what is
reserved stays reserved. -/
def close (a : Admission) : Admission × List Nat :=
  let (b, told) := a.closeElements
  let (c, more) := b.closeBytes
  (c, told ++ more)

end Admission
end TopicPublisher
