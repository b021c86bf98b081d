import TopicPublisher.Error

/-!
The handle of a published message. It is created with a place for the outcome, which is filled
once or given up, or it is created as failed. The outcome can be taken once.
-/

namespace TopicPublisher

/-- The place between the one who resolves a message and the one who awaits it. -/
inductive Slot where
  | awaited
  | filled (outcome : Outcome)
  | givenUp
  | taken

inductive Handle where
  | pending (slot : Slot)
  | failed (error : Option PublishError)

/-- What looking at a handle gives: nothing yet, the outcome, or that it was taken before. -/
inductive Poll where
  | pending
  | ready (outcome : Outcome)
  | finished

namespace Handle

def new : Handle := .pending .awaited

def ofError (error : PublishError) : Handle := .failed (some error)

/-- Fills the place with an outcome; fails when the place is no longer awaited. -/
def deliver (outcome : Outcome) : Handle → Option Handle
  | .pending .awaited => some (.pending (.filled outcome))
  | _ => none

/-- Gives the place up without an outcome; fails when the place is no longer awaited. -/
def giveUp : Handle → Option Handle
  | .pending .awaited => some (.pending .givenUp)
  | _ => none

/-- Looks at the handle and takes the outcome, if there is one yet. A handle that was created
as failed gives its error once, and after that says that the result was dropped. -/
def poll : Handle → Poll × Handle
  | .pending .awaited => (.pending, .pending .awaited)
  | .pending (.filled outcome) => (.ready outcome, .pending .taken)
  | .pending .givenUp => (.ready (.error .resultDropped), .pending .taken)
  | .pending .taken => (.finished, .pending .taken)
  | .failed error => (.ready (.error (error.getD .resultDropped)), .failed none)

end Handle
end TopicPublisher
