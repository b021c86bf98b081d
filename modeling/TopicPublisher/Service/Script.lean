import TopicPublisher.Service.Basic
import TopicPublisher.Text.Lossy

/-!
A service that plays a script. The script has lists of replies under keys; a call uses the list
under the label of its first message if there is one, and the list for all others if not, and
takes the next reply of it. When the list is used up the same last reply is given for ever.
-/

namespace TopicPublisher

/-- A short name for a message: its payload as text, or the length of a long payload. -/
def Message.label (m : Message) : String :=
  if m.payload.size ≤ 64 then lossyText m.payload else "#" ++ toString m.payload.size

inductive ScriptAction where
  | acknowledge
  | reply (reply : Reply)
  | hang
deriving DecidableEq, Repr, Inhabited

/-- A scripted call: an action, after some milliseconds. -/
structure Cue where
  after : Nat := 0
  action : ScriptAction := .acknowledge
deriving DecidableEq, Repr, Inhabited

/-- The milliseconds that a cue takes, which are no more than the far future is away. -/
def Cue.latency (c : Cue) : Nat := Nat.min c.after Clock.Timers.farFuture

/-- The response to a call with messages of the given labels. An acknowledgement names each
message after its label. -/
def Cue.response (c : Cue) (labels : List String) : Response :=
  match c.action with
  | .acknowledge => ⟨some c.latency, .ids (labels.map ("id-" ++ ·))⟩
  | .reply reply => ⟨some c.latency, reply⟩
  | .hang => ⟨none, .crash⟩

/-- Lists of cues under keys, the list for calls without a key of their own, and the cue for
calls that find their list used up. -/
structure Script where
  keyed : List (String × List Cue) := []
  common : List Cue := []
  last : Cue := {}
deriving Repr, Inhabited

namespace Script

def takeKeyed (key : String) :
    List (String × List Cue) → Option (Option Cue × List (String × List Cue))
  | [] => none
  | (k, cues) :: rest =>
    if k = key then some (cues.head?, (k, cues.tail) :: rest)
    else (takeKeyed key rest).map fun (cue, rest) => (cue, (k, cues) :: rest)

/-- Takes the cue of a call whose first message has the given label. -/
def next (s : Script) (label : String) : Cue × Script :=
  match takeKeyed label s.keyed with
  | some (cue, keyed) => (cue.getD s.last, { s with keyed := keyed })
  | none => (s.common.head?.getD s.last, { s with common := s.common.tail })

/-- The script as a service. Each reply is settled when its call starts. -/
def service : Service Script Reply where
  start s messages :=
    let labels := messages.map Message.label
    let (cue, s) := s.next (labels.headD "")
    let response := cue.response labels
    (response.latency, response.reply, s)
  answer s reply := (reply, s)

/-- The response to call `number`, counted from one, of those with the given labels, if no
other calls are made. -/
def response (s : Script) (labels : List String) (number : Nat) : Response :=
  let key := labels.headD ""
  let cues := match s.keyed.lookup key with
    | some cues => cues
    | none => s.common
  (cues[number - 1]?.getD s.last).response labels

end Script
end TopicPublisher
