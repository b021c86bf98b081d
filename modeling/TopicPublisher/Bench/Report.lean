import TopicPublisher.Bench.Load
import TopicPublisher.Decimal.Fixed

/-!
The report of a benchmark: a summary of the run and a table of what was measured.
-/

namespace TopicPublisher.Bench

/-- What is measured: the time, the megabytes published, megabytes per second, nanoseconds per
message, and messages per batch. -/
structure Report where
  options : Options
  run : Run
  megabytes : Float
  throughput : Float
  latency : Float
  batchSize : Float

namespace Report

def floatOfNat (n : Nat) : Float := (Binary64.ofNat n).toFloat

/-- A length in seconds: whole seconds and the rest are converted apart. -/
def seconds (d : Duration) : Float :=
  floatOfNat (d.nanos / 1000000000) + floatOfNat (d.nanos % 1000000000) / 1000000000.0

/-- The report of a run with messages of some size. The bytes published wrap at 64 bits. -/
def ofRun (o : Options) (messageSize : Nat) (r : Run) : Report :=
  let counters := r.snapshot.counters
  let bytes := counters.messagesPublished * UInt64.ofNat messageSize
  let megabytes := floatOfNat bytes.toNat / 1024.0 / 1024.0
  { options := o
    run := r
    megabytes := megabytes
    throughput := megabytes / seconds r.elapsed
    latency := floatOfNat r.elapsed.nanos / floatOfNat (Nat.max o.messages 1)
    batchSize := floatOfNat counters.messagesPublished.toNat /
      floatOfNat (Nat.max counters.batchesSent.toNat 1) }

def fixed (places : Nat) (x : Float) : String := (Binary64.ofFloat x).fixedText places

def columns (r : Report) : List (String × String) :=
  [("Duration", fixed 4 (seconds r.run.elapsed) ++ " Secs"),
    ("Total Transferred", fixed 2 r.megabytes ++ " MB"),
    ("Avg. Throughput", fixed 2 r.throughput ++ " MB/s"),
    ("Avg. Latency", fixed 2 r.latency ++ " ns"),
    ("Avg. Batch Size", fixed 2 r.batchSize ++ " msgs")]

/-- Cells are filled up with blanks to this width. -/
def cellWidth : Nat := 20

def cell (text : String) : String :=
  text ++ String.ofList (List.replicate (cellWidth - text.length) ' ')

def row (cells : List String) : String := "| " ++ " | ".intercalate (cells.map cell) ++ " |"

def summary (r : Report) : List String :=
  let counters := r.run.snapshot.counters
  ["",
    "Benchmark Results",
    "---------------------",
    "Number of Messages: " ++ groupedText r.options.messages,
    "Number of Publishers: " ++ groupedText r.options.publishers,
    "Batches Sent: " ++ groupedText counters.batchesSent.toNat,
    "Retries: " ++ groupedText counters.retries.toNat,
    "Failed Messages: " ++ groupedText r.run.failed,
    ""]

def header (r : Report) : String := row (r.columns.map (·.1))

def text (r : Report) : String :=
  "\n".intercalate (r.summary ++ [r.header, row (r.columns.map (·.2)), ""])

end Report
end TopicPublisher.Bench
