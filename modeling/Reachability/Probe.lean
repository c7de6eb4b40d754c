import Reachability.Job

/-!
# Probing in batches

The jobs of a list are probed with a limited number of probes in flight. Every job makes a cell: a
probe that fails, or takes longer than its deadline, leaves the outcome unknown. The deadline is
later than the timeout of the connection by a fixed grace, in which the probe may start and report.

Time is counted from the start of the batch. When a probe ends, the next job of the list starts; of
probes that end at the same time the one that started first counts as first.

## Main definitions

* `Attempt`: what a probe would report, and when.
* `Batch.run`: the matrix that a batch of jobs yields.
-/

namespace Reachability

/-- The time allowed to a probe beyond the timeout of its connection. -/
def probeGrace : Duration := .ofSeconds 5

/-- The time by which a probe must have ended, if it can be represented. -/
def Job.deadline? (j : Job) : Option Duration := j.timeout.add? probeGrace

/-- What a probe does when nobody interrupts it. -/
structure Attempt where
  /-- The outcome that it reports, or nothing if it fails. -/
  result : Option Outcome
  /-- How many nanoseconds it takes. -/
  nanoseconds : Nat
deriving DecidableEq

/-- The outcome of an attempt under a deadline, and the nanoseconds after which it is known. -/
def Attempt.settle (a : Attempt) (deadline : Duration) : Outcome × Nat :=
  if a.nanoseconds ≤ deadline.nanoseconds then (a.result.getD .unknown, a.nanoseconds)
  else (.unknown, deadline.nanoseconds)

namespace Batch

/-- A probe in flight. -/
structure Running where
  flow : Flow
  outcome : Outcome
  /-- When it ends. -/
  finish : Nat

/-- The state of a batch. -/
structure State where
  /-- The jobs that have not started. -/
  waiting : List Job
  /-- The probes in flight, in the order in which they started. -/
  running : List Running
  clock : Nat
  /-- The outcomes so far, the last one first. -/
  settled : List (Flow × Outcome)

/-- The batch before any job has started. -/
def State.initial (jobs : List Job) : State := ⟨jobs, [], 0, []⟩

/-- Takes the probe that ends first out of a list of probes in flight. -/
def takeEarliest (r : Running) : List Running → Running × List Running
  | [] => (r, [])
  | s :: rest =>
    let (first, others) := takeEarliest s rest
    if r.finish ≤ first.finish then (r, s :: rest) else (first, r :: others)

/-- Starts the next job. -/
def start (attempt : Job → Attempt) (s : State) (job : Job) (waiting : List Job) :
    Option State := do
  let (outcome, time) := (attempt job).settle (← job.deadline?)
  return { s with waiting, running := s.running ++ [⟨job.flow, outcome, s.clock + time⟩] }

/-- Ends the probe that is due first. -/
def complete (s : State) (r : Running) (rest : List Running) : State :=
  let (first, others) := takeEarliest r rest
  { s with running := others, clock := first.finish
           settled := (first.flow, first.outcome) :: s.settled }

/-- Starts jobs while there is room and ends probes otherwise, until nothing is left. -/
def advance (attempt : Job → Attempt) (limit : Nat) : Nat → State → Option State
  | 0, s => some s
  | fuel + 1, s =>
    match s.waiting, s.running with
    | [], [] => some s
    | [], r :: rest => advance attempt limit fuel (complete s r rest)
    | job :: waiting, [] => do advance attempt limit fuel (← start attempt s job waiting)
    | job :: waiting, r :: rest =>
      if s.running.length < limit then do
        advance attempt limit fuel (← start attempt s job waiting)
      else advance attempt limit fuel (complete s r rest)

/-- The matrix that probing the jobs yields, with at most `concurrency` probes in flight, or one if
that is zero. There is none if the deadline of a job cannot be represented. Every job takes two
steps, so the fuel is enough. -/
def run (attempt : Job → Attempt) (concurrency : Nat) (jobs : List Job) : Option Matrix := do
  let s ← advance attempt (max concurrency 1) (2 * jobs.length) (.initial jobs)
  return Matrix.ofList s.settled.reverse

end Batch

end Reachability
