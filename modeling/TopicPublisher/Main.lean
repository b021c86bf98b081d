import TopicPublisher.Bench.Report

/-!
The command line of the benchmark. It runs on the simulated clock, so it takes no longer than
its computations, and reports the times of that clock.
-/

open TopicPublisher

def main (words : List String) : IO UInt32 := do
  match Bench.Options.ofWords words with
  | .error .displayHelp =>
    IO.println Bench.UsageError.displayHelp.message
    return 0
  | .error e =>
    IO.eprintln ("error: " ++ e.message)
    return 2
  | .ok o =>
    match o.run with
    | .error (.config e) =>
      IO.eprintln ("Error: " ++ e.message)
      return 1
    | .error .outOfMemory =>
      IO.eprintln "Error: the run does not fit in memory"
      return 101
    | .ok run =>
      IO.println (Bench.Report.ofRun o o.messageSize run).text
      return 0
