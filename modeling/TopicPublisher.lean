import TopicPublisher.Admission.Ceilings
import TopicPublisher.Admission.Control
import TopicPublisher.Admission.Ledger
import TopicPublisher.Admission.Semaphore
import TopicPublisher.Admission.Session
import TopicPublisher.Batch.Basic
import TopicPublisher.Batch.Batcher
import TopicPublisher.Batch.Session
import TopicPublisher.Batch.Thresholds
import TopicPublisher.Bench.Load
import TopicPublisher.Bench.Options
import TopicPublisher.Bench.Report
import TopicPublisher.Counters
import TopicPublisher.Decimal.Binary64
import TopicPublisher.Decimal.Fixed
import TopicPublisher.Decimal.Reading
import TopicPublisher.Decimal.Shortest
import TopicPublisher.Draft
import TopicPublisher.Duration
import TopicPublisher.Engine.State
import TopicPublisher.Engine.Step
import TopicPublisher.Error
import TopicPublisher.Fifo
import TopicPublisher.Handle
import TopicPublisher.Log
import TopicPublisher.Main
import TopicPublisher.Message
import TopicPublisher.Proofs.Admission.Backed
import TopicPublisher.Proofs.Admission.Balance
import TopicPublisher.Proofs.Admission.Changes
import TopicPublisher.Proofs.Admission.Closing
import TopicPublisher.Proofs.Admission.Conservation
import TopicPublisher.Proofs.Admission.Decision
import TopicPublisher.Proofs.Admission.Doors
import TopicPublisher.Proofs.Admission.FailFast
import TopicPublisher.Proofs.Admission.Fairness
import TopicPublisher.Proofs.Admission.Open
import TopicPublisher.Proofs.Admission.Room
import TopicPublisher.Proofs.Admission.Runs
import TopicPublisher.Proofs.Admission.Semaphore
import TopicPublisher.Proofs.Admission.Turns
import TopicPublisher.Proofs.Admission.Waiting
import TopicPublisher.Proofs.Batch.Arrival
import TopicPublisher.Proofs.Batch.Bounds
import TopicPublisher.Proofs.Batch.Contents
import TopicPublisher.Proofs.Batch.Cuts
import TopicPublisher.Proofs.Batch.Deadline
import TopicPublisher.Proofs.Batch.Runs
import TopicPublisher.Proofs.Bench.Conservation
import TopicPublisher.Proofs.Bench.Finish
import TopicPublisher.Proofs.Bench.Ongoing
import TopicPublisher.Proofs.Bench.Shares
import TopicPublisher.Proofs.Decimal.Product
import TopicPublisher.Proofs.Decimal.Whole
import TopicPublisher.Proofs.Engine.Accounts
import TopicPublisher.Proofs.Engine.Attention.Batching
import TopicPublisher.Proofs.Engine.Attention.Calls
import TopicPublisher.Proofs.Engine.Attention.Sending
import TopicPublisher.Proofs.Engine.Attention.Steps
import TopicPublisher.Proofs.Engine.Changes.Batching
import TopicPublisher.Proofs.Engine.Changes.Calls
import TopicPublisher.Proofs.Engine.Changes.Sending
import TopicPublisher.Proofs.Engine.Changes.Steps
import TopicPublisher.Proofs.Engine.Course
import TopicPublisher.Proofs.Engine.Custody
import TopicPublisher.Proofs.Engine.Delay
import TopicPublisher.Proofs.Engine.Delivery
import TopicPublisher.Proofs.Engine.Diary
import TopicPublisher.Proofs.Engine.Driven
import TopicPublisher.Proofs.Engine.Frame
import TopicPublisher.Proofs.Engine.Grace
import TopicPublisher.Proofs.Engine.Handles
import TopicPublisher.Proofs.Engine.History
import TopicPublisher.Proofs.Engine.Identifiers
import TopicPublisher.Proofs.Engine.Isolation
import TopicPublisher.Proofs.Engine.Kept
import TopicPublisher.Proofs.Engine.Load
import TopicPublisher.Proofs.Engine.Logbook
import TopicPublisher.Proofs.Engine.Loop
import TopicPublisher.Proofs.Engine.Moves.Batching
import TopicPublisher.Proofs.Engine.Moves.Calls
import TopicPublisher.Proofs.Engine.Moves.Sending
import TopicPublisher.Proofs.Engine.Moves.Steps
import TopicPublisher.Proofs.Engine.Order
import TopicPublisher.Proofs.Engine.Outcome
import TopicPublisher.Proofs.Engine.Pace
import TopicPublisher.Proofs.Engine.Pages
import TopicPublisher.Proofs.Engine.Places
import TopicPublisher.Proofs.Engine.Progress
import TopicPublisher.Proofs.Engine.Prompt
import TopicPublisher.Proofs.Engine.Punctual
import TopicPublisher.Proofs.Engine.Reception
import TopicPublisher.Proofs.Engine.Refusal
import TopicPublisher.Proofs.Engine.Replay
import TopicPublisher.Proofs.Engine.Runs
import TopicPublisher.Proofs.Engine.Shutdown
import TopicPublisher.Proofs.Engine.Sides
import TopicPublisher.Proofs.Engine.Sound
import TopicPublisher.Proofs.Engine.Success
import TopicPublisher.Proofs.Engine.Survival
import TopicPublisher.Proofs.Engine.Tally
import TopicPublisher.Proofs.Engine.Trail
import TopicPublisher.Proofs.Engine.Transit
import TopicPublisher.Proofs.Engine.Transit.Forwarding
import TopicPublisher.Proofs.Engine.Transit.Gathering
import TopicPublisher.Proofs.Engine.Transit.Steps
import TopicPublisher.Proofs.Keyed
import TopicPublisher.Proofs.Message
import TopicPublisher.Proofs.Retry.Budget
import TopicPublisher.Proofs.Retry.Larger
import TopicPublisher.Proofs.Retry.Opening
import TopicPublisher.Proofs.Retry.Pace
import TopicPublisher.Proofs.Retry.Power
import TopicPublisher.Proofs.Retry.Sequence
import TopicPublisher.Proofs.Retry.Termination
import TopicPublisher.Proofs.Text.ByteOrder
import TopicPublisher.Proofs.Topic
import TopicPublisher.Proofs.Topic.Paths
import TopicPublisher.Retry.Attempt
import TopicPublisher.Retry.Backoff
import TopicPublisher.Retry.Policy
import TopicPublisher.Retry.Result
import TopicPublisher.Retry.Send
import TopicPublisher.Service.Basic
import TopicPublisher.Service.Script
import TopicPublisher.Service.Simulated
import TopicPublisher.Session.Basic
import TopicPublisher.Session.Report
import TopicPublisher.Text.Lossy
import TopicPublisher.Topic
import TopicPublisher.Total
