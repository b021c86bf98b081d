import TopicPublisher.Total

/-!
A fair counting semaphore as a plain state. Permits that become free go to the waiter at the
head of the queue, and are set aside for it while they do not suffice. A waiter that has all its
permits leaves the queue and is told so; it holds them from then on, but has to look before it
goes on, since the semaphore may have been closed in the meantime.
-/

namespace TopicPublisher

/-- A waiter: the permits that it needs and those set aside for it. -/
structure Waiter where
  id : Nat
  needed : Nat
  held : Nat
deriving DecidableEq, Repr, Inhabited

inductive Acquisition where
  | taken
  | queued
  | refused
deriving DecidableEq, Repr

inductive Shortage where
  | noPermits
  | closed
deriving DecidableEq, Repr

/-- A semaphore: free permits, the queue of waiters, the waiters that left the queue but have
not looked yet, and whether it is closed. -/
structure Semaphore where
  free : Nat
  queue : List Waiter := []
  told : List Waiter := []
  closed : Bool := false
deriving DecidableEq, Repr, Inhabited

namespace Semaphore

/-- Hands freed permits to the waiters in order. The result is the permits left over, the
waiters that still wait, and those that now have what they need. -/
def distribute : Nat → List Waiter → Nat × List Waiter × List Waiter
  | free, [] => (free, [], [])
  | free, w :: rest =>
    if w.needed - w.held ≤ free then
      let (left, waiting, served) := distribute (free - (w.needed - w.held)) rest
      (left, waiting, { w with held := w.needed } :: served)
    else (0, { w with held := w.held + free } :: rest, [])

/-- Gives permits back. The waiters that have enough now are told, in their order. -/
def release (s : Semaphore) (permits : Nat) : Semaphore × List Nat :=
  let (left, waiting, served) := distribute permits s.queue
  ({ s with free := s.free + left, queue := waiting, told := s.told ++ served }, served.map (·.id))

def tryAcquire (s : Semaphore) (permits : Nat) : Except Shortage Semaphore :=
  if s.closed then .error .closed
  else if s.free < permits then .error .noPermits
  else .ok { s with free := s.free - permits }

/-- Takes permits, or takes what is free and joins the queue for the rest. -/
def acquire (s : Semaphore) (id permits : Nat) : Acquisition × Semaphore :=
  if s.closed then (.refused, s)
  else if permits ≤ s.free then (.taken, { s with free := s.free - permits })
  else (.queued, { s with free := 0, queue := s.queue ++ [⟨id, permits, s.free⟩] })

/-- The permits that are set aside for a waiter or held by it. -/
def heldBy (s : Semaphore) (id : Nat) : Nat :=
  total (·.held) ((s.queue ++ s.told).filter (·.id == id))

/-- A waiter gives up; what it held goes to the others. -/
def withdraw (s : Semaphore) (id : Nat) : Semaphore × List Nat :=
  release { s with
    queue := s.queue.filter (·.id != id)
    told := s.told.filter (·.id != id) } (s.heldBy id)

/-- A waiter looks whether it has its permits. On a closed semaphore it has lost them. -/
def look (s : Semaphore) (id : Nat) : Acquisition × Semaphore :=
  if s.closed then (.refused, (s.withdraw id).1)
  else if s.told.any (·.id == id) then (.taken, { s with told := s.told.filter (·.id != id) })
  else (.queued, s)

/-- Closes the semaphore: every waiter is told, and nobody gets permits any more. -/
def close (s : Semaphore) : Semaphore × List Nat :=
  ({ s with queue := [], told := s.told ++ s.queue, closed := true }, s.queue.map (·.id))

/-- The permits set aside for waiters or held by waiters that have not looked yet. -/
def setAside (s : Semaphore) : Nat := total (·.held) (s.queue ++ s.told)

end Semaphore
end TopicPublisher
