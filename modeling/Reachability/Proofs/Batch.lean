import Mathlib.Data.List.Basic
import Mathlib.Logic.Relation
import Reachability.Probe
import Reachability.Proofs.Matrix

/-!
# Everything a batch of probes can do

A batch with its clock taken away: whenever there is room the next job may start, and any probe in
flight may end, in any way. `Batch.Yields` is what can come of it, and the batch of `Batch.run`,
whose probes end when their attempts say so, is one of the possible runs (`Batch.yields_run`).

All that is known of a run is that it loses no job and invents none (`Snapshot.Accounts`). This is
enough to tell which cells its matrix has, even where several jobs are about one cell. A run can
only be aborted by a job whose deadline has no representation, and it is aborted if there is one,
because every job starts. With that exception left out, a step is a move (`Batch.Move`).
-/

namespace Reachability

/-- How a probe ends. -/
inductive Ending where
  | reported (o : Outcome)
  | failed
  | timedOut

/-- The outcome that is recorded for a probe. -/
def Ending.outcome : Ending → Outcome
  | reported o => o
  | failed => .unknown
  | timedOut => .unknown

namespace Batch

/-! ## Runs -/

/-- How far a batch has come. -/
structure Snapshot where
  /-- The jobs that have not started. -/
  waiting : List Job
  /-- The jobs that are being probed. -/
  inFlight : List Job
  /-- The jobs that were probed, in the order in which their probes ended. -/
  ended : List (Job × Ending)

/-- What a batch can do next, with at most `limit` probes in flight. -/
inductive Step (limit : Nat) : Snapshot → Snapshot → Prop
  /-- The next job starts. Its deadline is computed then. -/
  | start {job : Job} {waiting inFlight : List Job} {ended : List (Job × Ending)}
    (room : inFlight.length < limit) (deadline : job.deadline? ≠ none) :
    Step limit ⟨job :: waiting, inFlight, ended⟩ ⟨waiting, inFlight ++ [job], ended⟩
  /-- Some probe in flight ends. -/
  | finish {job : Job} {waiting before after : List Job} {ended : List (Job × Ending)}
    (ending : Ending) :
    Step limit ⟨waiting, before ++ job :: after, ended⟩
      ⟨waiting, before ++ after, ended ++ [(job, ending)]⟩

/-- What could happen next if every job had a deadline. -/
inductive Move (limit : Nat) : Snapshot → Snapshot → Prop
  /-- The next job starts. -/
  | start {job : Job} {waiting inFlight : List Job} {ended : List (Job × Ending)}
    (room : inFlight.length < limit) :
    Move limit ⟨job :: waiting, inFlight, ended⟩ ⟨waiting, inFlight ++ [job], ended⟩
  /-- Some probe in flight ends, in whatever way. -/
  | finish {job : Job} {waiting before after : List Job} {ended : List (Job × Ending)}
    (ending : Ending) :
    Move limit ⟨waiting, before ++ job :: after, ended⟩
      ⟨waiting, before ++ after, ended ++ [(job, ending)]⟩

/-- A batch comes from one point to another. -/
abbrev Reaches (limit : Nat) : Snapshot → Snapshot → Prop := Relation.ReflTransGen (Step limit)

/-- The outcomes of the probes that ended. -/
def Snapshot.cells (s : Snapshot) : List (Flow × Outcome) :=
  s.ended.map fun e ↦ (e.1.flow, e.2.outcome)

/-- What a batch can come to: a matrix when all probes have ended, or nothing when the deadline of a
job that is to start has no representation. -/
inductive YieldsFrom (limit : Nat) (origin : Snapshot) : Option Matrix → Prop
  | finished {s : Snapshot} (run : Reaches limit origin s) (waiting : s.waiting = [])
    (inFlight : s.inFlight = []) : YieldsFrom limit origin (some (Matrix.ofList s.cells))
  | aborted {s : Snapshot} {job : Job} {waiting : List Job} (run : Reaches limit origin s)
    (next : s.waiting = job :: waiting) (room : s.inFlight.length < limit)
    (deadline : job.deadline? = none) : YieldsFrom limit origin none

theorem YieldsFrom.head {limit : Nat} {s s' : Snapshot} {m : Option Matrix}
    (hstep : Step limit s s') (h : YieldsFrom limit s' m) : YieldsFrom limit s m := by
  cases h with
  | finished run waiting inFlight => exact .finished (run.head hstep) waiting inFlight
  | aborted run next room deadline => exact .aborted (run.head hstep) next room deadline

/-- What probing a list of jobs can come to. A limit of zero counts as one. -/
abbrev Yields (concurrency : Nat) (jobs : List Job) : Option Matrix → Prop :=
  YieldsFrom (max concurrency 1) ⟨jobs, [], []⟩

/-! ## Jobs are neither lost nor invented -/

/-- The jobs of a snapshot, wherever they are. -/
def Snapshot.jobs (s : Snapshot) : List Job := s.ended.map Prod.fst ++ s.inFlight ++ s.waiting

/-- A snapshot of a batch with these jobs: each job is in one place, and those that have started
have a deadline. -/
structure Snapshot.Accounts (jobs : List Job) (s : Snapshot) : Prop where
  perm : (s.ended.map Prod.fst ++ s.inFlight ++ s.waiting).Perm jobs
  deadline : ∀ job ∈ s.ended.map Prod.fst ++ s.inFlight, job.deadline? ≠ none

theorem Snapshot.Accounts.initial (jobs : List Job) : Accounts jobs ⟨jobs, [], []⟩ where
  perm := List.Perm.refl _
  deadline := by simp

variable {jobs : List Job} {limit concurrency : Nat} {s s' : Snapshot}

/-- A job that ends leaves its place among those in flight for the end of the other list. -/
theorem finish_perm (ended : List (Job × Ending)) (before : List Job) (job : Job) (after : List Job)
    (ending : Ending) : ((ended ++ [(job, ending)]).map Prod.fst ++ (before ++ after)).Perm
      (ended.map Prod.fst ++ (before ++ job :: after)) := by
  have hmiddle : (job :: (before ++ after)).Perm (before ++ job :: after) := List.perm_middle.symm
  simpa using hmiddle.append_left (ended.map Prod.fst)

/-- A move takes one job from one list to the next. -/
theorem Move.jobs_perm (h : Move limit s s') : s'.jobs.Perm s.jobs := by
  cases h with
  | start room => simp [Snapshot.jobs]
  | @finish job waiting before after ended ending =>
    exact (finish_perm ended before job after ending).append_right waiting

theorem Step.move (h : Step limit s s') : Move limit s s' := by
  cases h with
  | start room deadline => exact .start room
  | finish ending => exact .finish ending

theorem Step.accounts (h : Step limit s s') (hs : s.Accounts jobs) : s'.Accounts jobs where
  perm := h.move.jobs_perm.trans hs.perm
  deadline := by
    intro job hjob
    cases h with
    | start room deadline =>
      rw [← List.append_assoc, List.mem_append, List.mem_singleton] at hjob
      rcases hjob with hjob | rfl
      · exact hs.deadline job hjob
      · exact deadline
    | @finish ended_job waiting before after ended ending =>
      exact hs.deadline job ((finish_perm ended before ended_job after ending).mem_iff.mp hjob)

theorem Reaches.accounts (h : Reaches limit ⟨jobs, [], []⟩ s) : s.Accounts jobs := by
  induction h with
  | refl => exact .initial jobs
  | tail _ hstep ih => exact hstep.accounts ih

/-! ## What a batch yields -/

theorem Snapshot.covers_of_perm (s : Snapshot) (h : (s.ended.map Prod.fst).Perm jobs) :
    (Matrix.ofList s.cells).Covers (jobs.map Job.flow) := by
  intro f
  have hcells : s.cells.map Prod.fst = (s.ended.map Prod.fst).map Job.flow := by
    rw [cells, List.map_map, List.map_map]
    rfl
  rw [Matrix.covers_ofList, hcells]
  exact (h.map Job.flow).mem_iff

theorem Yields.covers {m : Matrix} (h : Yields concurrency jobs (some m)) :
    m.Covers (jobs.map Job.flow) := by
  cases h with
  | @finished s run waiting inFlight =>
    have hperm := run.accounts.perm
    rw [waiting, inFlight, List.append_nil, List.append_nil] at hperm
    exact s.covers_of_perm hperm

/-- A batch is aborted exactly if some deadline has no representation. -/
theorem Yields.eq_none_iff {m : Option Matrix} (h : Yields concurrency jobs m) :
    m = none ↔ ∃ job ∈ jobs, job.deadline? = none := by
  cases h with
  | @finished s run waiting inFlight =>
    -- every job has ended, and so every job has started
    refine iff_of_false (by simp) ?_
    rintro ⟨job, hjob, hnone⟩
    have hperm := run.accounts.perm
    rw [waiting, List.append_nil] at hperm
    exact run.accounts.deadline job (hperm.mem_iff.mpr hjob) hnone
  | @aborted s job waiting run next room deadline =>
    refine iff_of_true rfl ⟨job, run.accounts.perm.mem_iff.mp ?_, deadline⟩
    simp [next]

/-! ## The batch with a clock -/

/-- A state of the batch with a clock, seen without the clock. -/
structure State.Shows (state : State) (s : Snapshot) : Prop where
  waiting : state.waiting = s.waiting
  inFlight : state.running.map Running.flow = s.inFlight.map Job.flow
  ended : state.settled.reverse = s.cells

theorem takeEarliest_split (r : Running) (rest : List Running) :
    ∃ before after, r :: rest = before ++ (takeEarliest r rest).1 :: after ∧
      (takeEarliest r rest).2 = before ++ after := by
  induction rest generalizing r with
  | nil => exact ⟨[], [], rfl, rfl⟩
  | cons s rest ih =>
    obtain ⟨before, after, hsplit, hothers⟩ := ih s
    simp only [takeEarliest]
    split
    · exact ⟨[], s :: rest, rfl, rfl⟩
    · exact ⟨r :: before, after, congrArg (r :: ·) hsplit, congrArg (r :: ·) hothers⟩

namespace State.Shows

variable {state : State}

theorem length_running (h : state.Shows s) : state.running.length = s.inFlight.length := by
  rw [← List.length_map Running.flow, h.inFlight, List.length_map]

theorem complete {r : Running} {rest : List Running} (h : state.Shows s)
    (hrunning : state.running = r :: rest) :
    ∃ s', Step limit s s' ∧ (Batch.complete state r rest).Shows s' ∧
      (Batch.complete state r rest).running.length + 1 = state.running.length := by
  obtain ⟨before, after, hsplit, hothers⟩ := takeEarliest_split r rest
  obtain ⟨waiting, inFlight, ended⟩ := s
  have hflows := h.inFlight
  rw [hrunning, hsplit, List.map_append, List.map_cons, eq_comm, List.map_eq_append_iff] at hflows
  obtain ⟨front, back, rfl, hfront, hback⟩ := hflows
  obtain ⟨job, back, rfl, hjob, hback⟩ := List.map_eq_cons_iff.mp hback
  refine ⟨_, .finish (.reported (takeEarliest r rest).1.outcome), ⟨h.waiting, ?_, ?_⟩, ?_⟩
  · simp [Batch.complete, hothers, hfront, hback]
  · have hended : state.settled.reverse = Snapshot.cells _ := h.ended
    simp [Batch.complete, hended, Snapshot.cells, Ending.outcome, hjob]
  · have hrest : (Batch.complete state r rest).running = before ++ after := hothers
    rw [hrest, hrunning, hsplit]
    simp only [List.length_append, List.length_cons]
    omega

theorem start (attempt : Job → Attempt) {job : Job} {waiting : List Job} (h : state.Shows s)
    (hwaiting : state.waiting = job :: waiting) (room : state.running.length < limit) :
    (job.deadline? = none ∧ Batch.start attempt state job waiting = none) ∨
      ∃ state' s', Batch.start attempt state job waiting = some state' ∧ Step limit s s' ∧
        state'.Shows s' ∧ state'.waiting = waiting ∧
        state'.running.length = state.running.length + 1 := by
  rw [Batch.start]
  cases hdeadline : job.deadline? with
  | none => exact Or.inl ⟨rfl, rfl⟩
  | some deadline =>
    have hlength := h.length_running
    obtain ⟨unstarted, inFlight, ended⟩ := s
    obtain rfl : job :: waiting = unstarted := hwaiting.symm.trans h.waiting
    have hstep : Step limit ⟨job :: waiting, inFlight, ended⟩ ⟨waiting, inFlight ++ [job], ended⟩ :=
      .start (hlength ▸ room) (by simp [hdeadline])
    refine Or.inr ⟨_, _, rfl, hstep, ⟨rfl, ?_, h.ended⟩, rfl, by simp⟩
    simp [h.inFlight]

end State.Shows

/-- From any point on, the batch with a clock does what the batch without one can do. The fuel
counts two steps for a job that waits and one for a job in flight. -/
theorem yieldsFrom_advance (attempt : Job → Attempt) (hlimit : 0 < limit) {fuel : Nat}
    {state : State} (h : state.Shows s)
    (hfuel : 2 * state.waiting.length + state.running.length ≤ fuel) :
    YieldsFrom limit s ((advance attempt limit fuel state).map fun state' ↦
      Matrix.ofList state'.settled.reverse) := by
  induction fuel generalizing state s with
  | zero =>
    have hwaiting : state.waiting = [] := List.eq_nil_of_length_eq_zero (by omega)
    have hrunning : state.running = [] := List.eq_nil_of_length_eq_zero (by omega)
    rw [advance, Option.map_some, h.ended]
    exact .finished .refl (h.waiting ▸ hwaiting)
      (List.eq_nil_of_length_eq_zero (by rw [← h.length_running, hrunning]; rfl))
  | succ fuel ih =>
    -- the two kinds of steps, whichever branch of the scheduler takes them
    have hcomplete : ∀ r rest, state.running = r :: rest →
        YieldsFrom limit s ((advance attempt limit fuel (complete state r rest)).map fun state' ↦
          Matrix.ofList state'.settled.reverse) := by
      intro r rest hrunning
      obtain ⟨s', hstep, hshows, hlength⟩ := h.complete hrunning
      refine .head hstep (ih hshows ?_)
      have hwaiting : (complete state r rest).waiting = state.waiting := rfl
      rw [hwaiting]
      omega
    have hstart : ∀ job waiting, state.waiting = job :: waiting → state.running.length < limit →
        YieldsFrom limit s (((start attempt state job waiting).bind
          (advance attempt limit fuel)).map fun state' ↦
            Matrix.ofList state'.settled.reverse) := by
      intro job waiting hwaiting room
      rcases h.start attempt hwaiting room with
        ⟨hdeadline, hnone⟩ | ⟨state', s', hsome, hstep, hshows, hwaiting', hrunning'⟩
      · rw [hnone]
        exact .aborted .refl (h.waiting ▸ hwaiting) (h.length_running ▸ room) hdeadline
      · rw [hsome]
        refine .head hstep (ih hshows ?_)
        rw [hwaiting] at hfuel
        rw [hwaiting', hrunning']
        simp only [List.length_cons] at hfuel
        omega
    rw [advance]
    split
    · rename_i hwaiting hrunning
      rw [Option.map_some, h.ended]
      refine .finished .refl (h.waiting ▸ hwaiting) (List.eq_nil_of_length_eq_zero ?_)
      rw [← h.length_running, hrunning]
      rfl
    · rename_i r rest _ hrunning
      exact hcomplete r rest hrunning
    · rename_i job waiting hwaiting hrunning
      refine hstart job waiting hwaiting ?_
      rw [hrunning]
      exact hlimit
    · rename_i job waiting r rest hwaiting hrunning
      split
      · rename_i room
        exact hstart job waiting hwaiting room
      · exact hcomplete r rest hrunning

/-- A batch whose probes end when their attempts say so is one of the possible batches. -/
theorem yields_run (attempt : Job → Attempt) (concurrency : Nat) (jobs : List Job) :
    Yields concurrency jobs (run attempt concurrency jobs) := by
  have hshows : (State.initial jobs).Shows ⟨jobs, [], []⟩ := ⟨rfl, rfl, rfl⟩
  have hlimit : 0 < max concurrency 1 := by omega
  have hfuel : 2 * (State.initial jobs).waiting.length + (State.initial jobs).running.length ≤
      2 * jobs.length := by simp [State.initial]
  have hadvance := yieldsFrom_advance attempt hlimit hshows hfuel
  rw [run]
  cases hrun : advance attempt (max concurrency 1) (2 * jobs.length) (.initial jobs) with
  | none =>
    rw [hrun] at hadvance
    exact hadvance
  | some state =>
    rw [hrun] at hadvance
    exact hadvance

end Batch

end Reachability
