import TopicPublisher.Engine.Step

/-!
Sessions: clients that use one publisher. A client publishes its messages one after the other
and holds the publisher until all these calls have returned. After each command the tasks run
until none can go on at that instant.
-/

namespace TopicPublisher

/-- A client in the publish call `waiting`, with what it publishes after that and whether it
then shuts the publisher down. -/
structure Client where
  waiting : Nat
  rest : List Entry
  thenShutdown : Bool

/-- What is done in a session. A `publish` is a client of its own, which can be aborted; a
`burst` is one that publishes a list; `drop` lets go of the session's own publisher. -/
inductive Command where
  | publish (message : Message)
  | burst (messages : List Message) (thenShutdown : Bool)
  | advance (millis : Nat)
  | shutdown
  | abort (call : Nat)
  | drop
deriving Inhabited

/-- A session. Messages and shutdown calls are numbered in their order; `single` are the calls
that can be aborted, `abandoned` those whose handle was thrown away. -/
structure Session (σ τ : Type) where
  engine : Engine σ τ
  clients : List Client := []
  published : Nat := 0
  shutdowns : Nat := 0
  single : List Nat := []
  abandoned : List Nat := []
  dropped : Bool := false

namespace Session

variable {σ τ : Type}

/-- More turns than tasks want at one instant, unless they want them for ever: a batch whose
attempts fail at once is sent again at the same instant for as long as its delays are zero. -/
def maxTurns : Nat := Nat.pow 2 128

def ofEngine (e : Engine σ τ) : Session σ τ := { engine := e }

def beginShutdown (s : Session σ τ) (c : Config) : Session σ τ :=
  { s with engine := s.engine.shutdown c s.shutdowns, shutdowns := s.shutdowns + 1 }

/-- Goes on with a client: it publishes until a call waits. After the last call it shuts the
publisher down or lets go of it. -/
def proceed (c : Config) (thenShutdown : Bool) : List Entry → Session σ τ → Session σ τ
  | [], s => if thenShutdown then s.beginShutdown c else { s with engine := s.engine.dropClone }
  | entry :: rest, s =>
    let s := { s with engine := s.engine.publish entry }
    if s.engine.isBlocked entry.id then
      { s with clients := s.clients ++ [⟨entry.id, rest, thenShutdown⟩] }
    else proceed c thenShutdown rest s

def begin (s : Session σ τ) (c : Config) (messages : List Message) (thenShutdown : Bool) :
    Session σ τ :=
  let entries := messages.mapIdx fun i m => ⟨s.published + i, m⟩
  proceed c thenShutdown entries
    { s with engine := s.engine.clone, published := s.published + messages.length }

/-- Goes on with the client of a call that waited, once the call has returned. -/
def follow (s : Session σ τ) (c : Config) (call : Nat) : Session σ τ :=
  if s.engine.isBlocked call then s
  else
    match s.clients.find? (·.waiting == call) with
    | none => s
    | some client =>
      proceed c client.thenShutdown client.rest
        { s with clients := s.clients.filter (·.waiting != call) }

def step (s : Session σ τ) (v : Service σ τ) (c : Config) : Session σ τ :=
  match s.engine.ready with
  | [] => s
  | task :: _ =>
    let s := { s with engine := s.engine.run v c task }
    match task with
    | .publishing call => s.follow c call
    | _ => s

/-- Lets ready tasks take turns until there are none; `fuel` bounds the turns. -/
def runReady (v : Service σ τ) (c : Config) : (fuel : Nat) → Session σ τ → Session σ τ
  | 0, s => s
  | fuel + 1, s => if s.engine.isSettled then s else runReady v c fuel (s.step v c)

def settle (s : Session σ τ) (v : Service σ τ) (c : Config) : Session σ τ :=
  s.runReady v c maxTurns

/-- Moves the clock to a reading at which tasks are due, and lets them run. -/
def wakeAt (s : Session σ τ) (v : Service σ τ) (c : Config) (now : Nat) : Session σ τ :=
  { s with engine := s.engine.moveTo now }.settle v c

/-- Lets all pass that is due up to a reading; `fuel` bounds the readings at which something
is. -/
def advanceFrom (v : Service σ τ) (c : Config) (target : Nat) :
    (fuel : Nat) → Session σ τ → Session σ τ
  | 0, s => s
  | fuel + 1, s =>
    match s.engine.nextWake? with
    | some wake => if wake ≤ target then advanceFrom v c target fuel (s.wakeAt v c wake) else s
    | none => s

def advance (s : Session σ τ) (v : Service σ τ) (c : Config) (millis : Nat) : Session σ τ :=
  let target := s.engine.now + millis
  (s.advanceFrom v c target (millis + 1)).wakeAt v c target

/-- Ends the client of a single publish call: a call that waits is given up, and otherwise the
handle is thrown away. -/
def abort (s : Session σ τ) (call : Nat) : Session σ τ :=
  if s.single.contains call then
    if s.clients.any (·.waiting == call) then
      { s with
        engine := (s.engine.cancel call).dropClone
        clients := s.clients.filter (·.waiting != call) }
    else { s with abandoned := call :: s.abandoned }
  else s

def perform (s : Session σ τ) (v : Service σ τ) (c : Config) : Command → Session σ τ
  | .publish message =>
    { s with single := s.published :: s.single }.begin c [message] false |>.settle v c
  | .burst messages thenShutdown => (s.begin c messages thenShutdown).settle v c
  | .advance millis => s.advance v c millis
  | .shutdown => ({ s with engine := s.engine.clone }.beginShutdown c).settle v c
  | .abort call => (s.abort call).settle v c
  | .drop => { s with engine := s.engine.dropClone, dropped := true }.settle v c

end Session
end TopicPublisher
