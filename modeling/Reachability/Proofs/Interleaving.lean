import Mathlib.Data.List.Nodup
import Reachability.Proofs.Batch
import Reachability.Proofs.Topology

/-!
# Probing in any interleaving

What is known of all batches that `Batch.Move` allows: whenever there is room the next job may
start, and any probe in flight may end, with an outcome, with an error or by running out of time.
The batches of `Batch.run` are among these (`exists_attains_of_run`).

A move takes one job from one list of the snapshot to the next, which is all that has to be known
about single moves. A batch that can do nothing more has probed every job once. What is in its
matrix depends on the order in which the probes ended through cells that several jobs share, and
through nothing else.
-/

namespace Reachability

namespace Batch

/-! ## Moves -/

/-- All jobs have been probed. -/
def Snapshot.Finished (s : Snapshot) : Prop := s.waiting = [] ∧ s.inFlight = []

/-- The matrix of the probes that ended. -/
def Snapshot.matrix (s : Snapshot) : Matrix := Matrix.ofList s.cells

theorem Move.length_inFlight_le {limit : Nat} {s s' : Snapshot} (h : Move limit s s')
    (hs : s.inFlight.length ≤ limit) : s'.inFlight.length ≤ limit := by
  cases h with
  | start room =>
    rw [List.length_append, List.length_singleton]
    exact room
  | finish ending =>
    simp only [List.length_append, List.length_cons] at hs ⊢
    omega

/-- Until all jobs have been probed something can happen. -/
theorem finished_or_exists_move {limit : Nat} (hlimit : 0 < limit) (s : Snapshot) :
    s.Finished ∨ ∃ s', Move limit s s' := by
  obtain ⟨waiting, inFlight, ended⟩ := s
  cases inFlight with
  | cons job inFlight => exact Or.inr ⟨_, @Move.finish _ job waiting [] inFlight ended .failed⟩
  | nil =>
    cases waiting with
    | nil => exact Or.inl ⟨rfl, rfl⟩
    | cons job waiting => exact Or.inr ⟨_, .start hlimit⟩

/-- Every job takes two moves. -/
def Snapshot.remaining (s : Snapshot) : Nat := 2 * s.waiting.length + s.inFlight.length

theorem Move.remaining_lt {limit : Nat} {s s' : Snapshot} (h : Move limit s s') :
    s'.remaining < s.remaining := by
  cases h <;> simp only [Snapshot.remaining, List.length_append, List.length_cons,
    List.length_nil] <;> omega

/-- Every batch can be finished, however far it has come. -/
theorem exists_finished {limit : Nat} (hlimit : 0 < limit) (s : Snapshot) :
    ∃ s', s'.Finished ∧ Relation.ReflTransGen (Move limit) s s' := by
  -- each move leaves fewer moves, whichever it is
  induction hn : s.remaining using Nat.strongRecOn generalizing s with
  | ind n ih =>
    subst hn
    rcases finished_or_exists_move hlimit s with hs | ⟨s', hmove⟩
    · exact ⟨s, hs, .refl⟩
    · obtain ⟨s'', hs'', hrest⟩ := ih _ hmove.remaining_lt s' rfl
      exact ⟨s'', hs'', hrest.head hmove⟩

/-! ## Runs -/

/-- A batch of these jobs can come to the snapshot. A limit of zero counts as one. -/
def Attains (concurrency : Nat) (jobs : List Job) (s : Snapshot) : Prop :=
  Relation.ReflTransGen (Move (max concurrency 1)) ⟨jobs, [], []⟩ s

variable {concurrency concurrency' : Nat} {jobs : List Job} {s s' : Snapshot}

/-- Jobs are neither lost nor invented. -/
theorem Attains.jobs_perm (h : Attains concurrency jobs s) : s.jobs.Perm jobs := by
  induction h with
  | refl => exact List.Perm.refl jobs
  | tail _ hmove ih => exact hmove.jobs_perm.trans ih

theorem Attains.length_inFlight_le (h : Attains concurrency jobs s) :
    s.inFlight.length ≤ max concurrency 1 := by
  induction h with
  | refl => exact Nat.zero_le _
  | tail _ hmove ih => exact hmove.length_inFlight_le ih

/-! ## Finished batches -/

/-- Each job has been probed once. -/
theorem Attains.ended_perm (h : Attains concurrency jobs s) (hs : s.Finished) :
    (s.ended.map Prod.fst).Perm jobs := by
  have hperm := h.jobs_perm
  rwa [Snapshot.jobs, hs.1, hs.2, List.append_nil, List.append_nil] at hperm

theorem Attains.covers (h : Attains concurrency jobs s) (hs : s.Finished) :
    s.matrix.Covers (jobs.map Job.flow) :=
  s.covers_of_perm (h.ended_perm hs)

/-- The probe of a cell that ended last counts. -/
theorem Snapshot.matrix_get?_of_last {before after : List (Job × Ending)} {job : Job}
    {ending : Ending} (hsplit : s.ended = before ++ (job, ending) :: after)
    (last : ∀ e ∈ after, e.1.flow ≠ job.flow) :
    s.matrix.get? job.flow = some ending.outcome := by
  have hcells : s.cells = before.map (fun e ↦ (e.1.flow, e.2.outcome)) ++
      (job.flow, ending.outcome) :: after.map (fun e ↦ (e.1.flow, e.2.outcome)) := by
    rw [Snapshot.cells, hsplit, List.map_append, List.map_cons]
  rw [Snapshot.matrix, hcells]
  refine SortedMap.get?_ofList_last fun c hc ↦ ?_
  obtain ⟨e, he, rfl⟩ := List.mem_map.mp hc
  exact last e he

/-- A cell of one job has the outcome of that job, whenever its probe ended. -/
theorem Attains.matrix_get?_of_mem (h : Attains concurrency jobs s) (hs : s.Finished)
    (distinct : (jobs.map Job.flow).Nodup) {job : Job} {ending : Ending}
    (hmem : (job, ending) ∈ s.ended) : s.matrix.get? job.flow = some ending.outcome := by
  have hflows : (s.ended.map fun e ↦ e.1.flow).Nodup := by
    have hperm := (h.ended_perm hs).map Job.flow
    rw [List.map_map] at hperm
    exact hperm.nodup_iff.mpr distinct
  -- nothing else was recorded for the cell, because no other job is about it
  refine SortedMap.get?_ofList_of_mem (List.mem_map.mpr ⟨(job, ending), hmem, rfl⟩) fun o ho ↦ ?_
  obtain ⟨e, he, heq⟩ := List.mem_map.mp ho
  obtain ⟨hflow, rfl⟩ := Prod.mk.inj heq
  rw [List.inj_on_of_nodup_map hflows he hmem hflow]

/-- The probes of the jobs with a property ended alike in both snapshots. -/
def EndedAlike (P : Job → Prop) (s s' : Snapshot) : Prop :=
  ∀ job x y, P job → (job, x) ∈ s.ended → (job, y) ∈ s'.ended → x.outcome = y.outcome

/-- Two batches of jobs about distinct cells agree about a cell if the job of the cell ended alike
in both. -/
theorem Attains.matrix_get?_eq (h : Attains concurrency jobs s) (hs : s.Finished)
    (h' : Attains concurrency' jobs s') (hs' : s'.Finished) (distinct : (jobs.map Job.flow).Nodup)
    {f : Flow} (alike : EndedAlike (·.flow = f) s s') : s.matrix.get? f = s'.matrix.get? f := by
  by_cases hf : f ∈ jobs.map Job.flow
  · -- the job of the cell has been probed in both batches
    obtain ⟨job, hjob, rfl⟩ := List.mem_map.mp hf
    obtain ⟨⟨_, x⟩, hx, rfl⟩ := List.mem_map.mp ((h.ended_perm hs).mem_iff.mpr hjob)
    obtain ⟨⟨_, y⟩, hy, heq⟩ := List.mem_map.mp ((h'.ended_perm hs').mem_iff.mpr hjob)
    obtain rfl := heq
    rw [h.matrix_get?_of_mem hs distinct hx, h'.matrix_get?_of_mem hs' distinct hy,
      alike _ x y rfl hx hy]
  · have hnone := mt ((h.covers hs) f).mp hf
    have hnone' := mt ((h'.covers hs') f).mp hf
    rw [Option.not_isSome_iff_eq_none] at hnone hnone'
    rw [hnone, hnone']

/-! ## Batches with a clock -/

/-- The matrix of a batch with a clock is the matrix of one of the possible batches. -/
theorem exists_attains_of_run {attempt : Job → Attempt} {m : Matrix}
    (h : run attempt concurrency jobs = some m) :
    ∃ s, Attains concurrency jobs s ∧ s.Finished ∧ m = s.matrix := by
  have hyields := yields_run attempt concurrency jobs
  rw [h] at hyields
  cases hyields with
  | finished hrun waiting inFlight =>
    exact ⟨_, Relation.ReflTransGen.mono (fun _ _ ↦ Step.move) _ _ hrun, ⟨waiting, inFlight⟩, rfl⟩

/-- **Probing in any interleaving loses no job and invents none.** On the way there are never more
probes in flight than allowed, and something can happen until all jobs have been probed, which can
always be brought about. Then each job has been probed once, and the matrix has the cells of the
jobs, each with the outcome of the probe of the cell that ended last. If no two jobs share a cell,
then neither the order in which the probes end nor the limit matters, and how the probe of one job
ends matters for its own cell only. -/
theorem probing_conserves (concurrency : Nat) (jobs : List Job) :
    (∀ s, Attains concurrency jobs s → s.inFlight.length ≤ max concurrency 1 ∧
      s.jobs.Perm jobs ∧ (s.Finished ∨ ∃ s', Move (max concurrency 1) s s') ∧
      ∃ s', s'.Finished ∧ Relation.ReflTransGen (Move (max concurrency 1)) s s') ∧
    (∀ s, Attains concurrency jobs s → s.Finished →
      (s.ended.map Prod.fst).Perm jobs ∧ s.matrix.Covers (jobs.map Job.flow) ∧
      ∀ before job ending after, s.ended = before ++ (job, ending) :: after →
        (∀ e ∈ after, e.1.flow ≠ job.flow) → s.matrix.get? job.flow = some ending.outcome) ∧
    ((jobs.map Job.flow).Nodup → ∀ concurrency' s s', Attains concurrency jobs s → s.Finished →
      Attains concurrency' jobs s' → s'.Finished →
      (EndedAlike (fun _ ↦ True) s s' → s.matrix = s'.matrix) ∧
      ∀ job, EndedAlike (· ≠ job) s s' → ∀ f, f ≠ job.flow → s.matrix.get? f = s'.matrix.get? f) ∧
    ∀ (attempt : Job → Attempt) (m : Matrix), run attempt concurrency jobs = some m →
      ∃ s, Attains concurrency jobs s ∧ s.Finished ∧ m = s.matrix := by
  refine ⟨fun s h ↦ ?_, fun s h hs ↦ ?_, fun distinct concurrency' s s' h hs h' hs' ↦ ?_,
    fun attempt m ↦ exists_attains_of_run⟩
  · have hlimit : 0 < max concurrency 1 := by omega
    exact ⟨h.length_inFlight_le, h.jobs_perm, finished_or_exists_move hlimit s,
      exists_finished hlimit s⟩
  · exact ⟨h.ended_perm hs, h.covers hs, fun _ _ _ _ hsplit ↦ Snapshot.matrix_get?_of_last hsplit⟩
  · -- both statements are about single cells
    have hcell : ∀ f, EndedAlike (·.flow = f) s s' → s.matrix.get? f = s'.matrix.get? f :=
      fun f ↦ h.matrix_get?_eq hs h' hs' distinct
    refine ⟨fun alike ↦ Matrix.ext_get? fun f ↦ hcell f fun job x y _ ↦ alike job x y trivial, ?_⟩
    intro job alike f hf
    refine hcell f fun other x y hflow ↦ alike other x y ?_
    rintro rfl
    exact hf hflow.symm

/-- Connects the pods of a pair. -/
def pairJob (source destination : String) : Job where
  source := .of (Topology.pairPod source)
  destination := .of (Topology.pairPod destination)
  host := s!"s-x-{destination}.x.svc.cluster.local"
  port := ⟨.tcp, 80⟩
  portName := none
  timeout := .ofSeconds 1
  expected := none

/-- Two at a time, the second connection is made before the first one times out. One at a time, the
first one fails. It does not matter. -/
theorem probing_conserves_pair :
    ∃ s s', Attains 2 [pairJob "a" "b", pairJob "b" "a"] s ∧
      Attains 0 [pairJob "a" "b", pairJob "b" "a"] s' ∧ s.Finished ∧ s'.Finished ∧
      s.ended = [(pairJob "b" "a", .reported .allowed), (pairJob "a" "b", .timedOut)] ∧
      s'.ended = [(pairJob "a" "b", .failed), (pairJob "b" "a", .reported .allowed)] ∧
      s.matrix = s'.matrix ∧ s.matrix.get? (pairJob "a" "b").flow = some .unknown := by
  have hs : Attains 2 [pairJob "a" "b", pairJob "b" "a"]
      ⟨[], [], [(pairJob "b" "a", .reported .allowed), (pairJob "a" "b", .timedOut)]⟩ :=
    .head (.start (by decide)) <| .head (.start (by decide)) <|
      .head (@Move.finish _ (pairJob "b" "a") [] [pairJob "a" "b"] [] [] (.reported .allowed)) <|
        .single (@Move.finish _ (pairJob "a" "b") [] [] [] _ .timedOut)
  have hs' : Attains 0 [pairJob "a" "b", pairJob "b" "a"]
      ⟨[], [], [(pairJob "a" "b", .failed), (pairJob "b" "a", .reported .allowed)]⟩ :=
    .head (.start (by decide)) <|
      .head (@Move.finish _ (pairJob "a" "b") [pairJob "b" "a"] [] [] [] .failed) <|
        .head (.start (by decide)) <|
          .single (@Move.finish _ (pairJob "b" "a") [] [] [] _ (.reported .allowed))
  obtain ⟨-, hfinished, hdistinct, -⟩ :=
    probing_conserves 2 [pairJob "a" "b", pairJob "b" "a"]
  have hflows : ([pairJob "a" "b", pairJob "b" "a"].map Job.flow).Nodup := by decide
  obtain ⟨horder, -⟩ := hdistinct hflows 0 _ _ hs ⟨rfl, rfl⟩ hs' ⟨rfl, rfl⟩
  obtain ⟨-, -, hlast⟩ := hfinished _ hs ⟨rfl, rfl⟩
  refine ⟨_, _, hs, hs', ⟨rfl, rfl⟩, ⟨rfl, rfl⟩, rfl, rfl, horder ?_, ?_⟩
  · have hne : pairJob "a" "b" ≠ pairJob "b" "a" := by decide
    intro job x y _ hx hy
    simp only [List.mem_cons, Prod.mk.injEq, List.not_mem_nil, or_false] at hx hy
    rcases hx with ⟨rfl, rfl⟩ | ⟨rfl, rfl⟩ <;> rcases hy with ⟨h, rfl⟩ | ⟨h, rfl⟩
    · exact absurd h.symm hne
    · rfl
    · rfl
    · exact absurd h hne
  · exact hlast [_] (pairJob "a" "b") .timedOut [] rfl (by simp)

end Batch

end Reachability
