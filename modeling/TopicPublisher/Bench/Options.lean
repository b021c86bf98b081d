import TopicPublisher.Batch.Thresholds
import TopicPublisher.Decimal.Reading

/-!
The options of a benchmark and their reading from the words of a command line. Every option has
a long name and one value, which follows a `=` or is the next word. Faults count in the order of
the words, except that a value given as a word of its own is read only when the word after it
was understood.
-/

namespace TopicPublisher.Bench

inductive Preset where
  | highThroughput
  | balanced
  | lowLatency
deriving DecidableEq, Repr, Inhabited

namespace Preset

def thresholds : Preset → Thresholds
  | .highThroughput => .highThroughput
  | .balanced => .balanced
  | .lowLatency => .lowLatency

def ofWord? : String → Option Preset
  | "high-throughput" => some .highThroughput
  | "balanced" => some .balanced
  | "low-latency" => some .lowLatency
  | _ => none

end Preset

/-- What to publish, from how many publishers at once, and to what service. -/
structure Options where
  messages : Nat := 1000000
  publishers : Nat := 10
  messageSize : Nat := 32
  batching : Preset := .highThroughput
  latencyMillis : Nat := 1
  failureRate : Binary64 := ⟨0⟩
  maxOutstanding : Option Nat := none
deriving DecidableEq, Repr, Inhabited

inductive Flag where
  | messages
  | publishers
  | messageSize
  | batching
  | latencyMillis
  | failureRate
  | maxOutstanding
deriving DecidableEq, Repr, Inhabited

def Flag.ofName? : String → Option Flag
  | "num-of-messages" => some .messages
  | "num-of-publishers" => some .publishers
  | "message-size" => some .messageSize
  | "batching" => some .batching
  | "service-latency-ms" => some .latencyMillis
  | "failure-rate" => some .failureRate
  | "max-outstanding-messages" => some .maxOutstanding
  | _ => none

inductive UsageError where
  | invalidValue
  | valueValidation
  | unknownArgument
  | argumentConflict
  | tooManyValues
  | displayHelp
deriving DecidableEq, Repr, Inhabited

def UsageError.message : UsageError → String
  | .invalidValue => "an option has no value, or a value that it cannot have"
  | .valueValidation => "the value of an option cannot be read"
  | .unknownArgument => "an argument is unknown"
  | .argumentConflict => "an option is given twice"
  | .tooManyValues => "an option that has no value is given one"
  | .displayHelp => "run a benchmark of the publisher against a simulated service"

namespace Options

def setNumber {α : Type} (number : Option α) (set : α → Options) : Except UsageError Options :=
  match number with
  | some n => .ok (set n)
  | none => .error .valueValidation

def assign (o : Options) (value : String) : Flag → Except UsageError Options
  | .messages => setNumber (readUnsigned value) fun n => { o with messages := n }
  | .publishers => setNumber (readUnsigned value) fun n => { o with publishers := n }
  | .messageSize => setNumber (readUnsigned value) fun n => { o with messageSize := n }
  | .latencyMillis => setNumber (readUnsigned value) fun n => { o with latencyMillis := n }
  | .failureRate => setNumber (Binary64.read value) fun x => { o with failureRate := x }
  | .maxOutstanding => setNumber (readUnsigned value) fun n => { o with maxOutstanding := some n }
  | .batching =>
    match Preset.ofWord? value with
    | some preset => .ok { o with batching := preset }
    | none => .error .invalidValue

end Options

/-- The reading of a command line: the options so far, the names that were given, and the last
option, whose value is not read yet or still to come. -/
structure Reading where
  options : Options := {}
  given : List Flag := []
  last : Option (Flag × Option String) := none

namespace Reading

/-- Reads the value of an option. A missing value is a fault before a repeated option is one,
and both are before a value that cannot be read. -/
def take (r : Reading) (flag : Flag) (value : Option String) : Except UsageError Reading :=
  match value with
  | none => .error .invalidValue
  | some value =>
    if r.given.contains flag then .error .argumentConflict
    else
      match r.options.assign value flag with
      | .error e => .error e
      | .ok options => .ok { r with options := options, given := flag :: r.given }

def finish (r : Reading) : Except UsageError Reading :=
  match r.last with
  | none => .ok r
  | some (flag, value) => { r with last := none }.take flag value

def help (r : Reading) : Except UsageError Reading :=
  match r.finish with
  | .error e => .error e
  | .ok _ => .error .displayHelp

/-- The name and, after a `=`, the value of a long option. -/
def splitName (body : List Char) : String × Option String :=
  let name := String.ofList (body.takeWhile (· != '='))
  match body.dropWhile (· != '=') with
  | _ :: value => (name, some (String.ofList value))
  | [] => (name, none)

def readLong (r : Reading) (body : List Char) : Except UsageError Reading :=
  match splitName body with
  | ("help", some _) => .error .tooManyValues
  | ("help", none) => r.help
  | (name, value) =>
    match Flag.ofName? name with
    | none => .error .unknownArgument
    | some flag =>
      match r.finish with
      | .error e => .error e
      | .ok r =>
        if value.isSome then r.take flag value else .ok { r with last := some (flag, none) }

def readValue (r : Reading) (word : String) : Except UsageError Reading :=
  match r.last with
  | some (flag, none) => .ok { r with last := some (flag, some word) }
  | _ => .error .unknownArgument

def readWord (r : Reading) (word : String) : Except UsageError Reading :=
  match word.toList with
  | '-' :: '-' :: body => r.readLong body
  | '-' :: 'h' :: _ => r.help
  | '-' :: _ :: _ => .error .unknownArgument
  | _ => r.readValue word

/-- Reads words. Nothing can follow the word `--`. -/
def readWords : List String → Reading → Except UsageError Reading
  | [], r => r.finish
  | "--" :: rest, r => if rest.isEmpty then r.finish else .error .unknownArgument
  | word :: rest, r =>
    match r.readWord word with
    | .error e => .error e
    | .ok r => readWords rest r

end Reading

def Options.ofWords (words : List String) : Except UsageError Options :=
  match Reading.readWords words {} with
  | .error e => .error e
  | .ok r => .ok r.options

end TopicPublisher.Bench
