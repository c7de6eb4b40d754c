import Reachability.Proofs.Batch
import Reachability.Proofs.Comparison
import Reachability.Proofs.Job
import Reachability.Proofs.Prediction
import Reachability.Verification

/-!
# Verification as a whole

What a verification comes to, for every topology that can be built, every policy and configuration,
and everything that a batch of probes can do. There are three cases and no other: an address is
needed that is not set (`LacksAddress`); the deadline of the probes has no representation; or there
is a report, and all its parts fit together (`Report.Sound`).

Nothing that is looked up after the jobs are built can be missing. The second build looks up flows
of the first, the prediction has cells for just those flows, and a disagreement is at a flow that
was explained before, so that it is explained again in the same way.
-/

namespace Reachability

/-! ## Statements -/

/-- Building the jobs or predicting one of them needs an address that is not set. -/
def LacksAddress (t : Topology) (policy : Policy) (config : ProbeConfig) : Prop :=
  (∃ d ∈ t.workloads, config.Unaddressed d) ∨ ∃ f ∈ config.flows t, NeedsAddress [policy] t f

/-- All parts of a report fit together. -/
structure Report.Sound (r : Report) : Prop where
  ingress : r.prediction.ingress.Covers (r.jobs.valid.map Job.flow)
  egress : r.prediction.egress.Covers (r.jobs.valid.map Job.flow)
  combined : r.prediction.combined.Covers (r.jobs.valid.map Job.flow)
  observed : r.observed.Covers (r.jobs.valid.map Job.flow)
  comparison : ∀ f, (r.comparison.get? f).isSome ↔ f ∈ r.jobs.valid.map Job.flow
  /-- Every job carries the outcome that is predicted for its flow. -/
  expected : ∀ j ∈ r.jobs.valid, j.expected = r.prediction.combined.get? j.flow
  /-- A compared cell has the predicted outcome and the observed one. -/
  compared : ∀ f c, r.comparison.get? f = some c →
    r.prediction.combined.get? f = some c.expected ∧ r.observed.get? f = some c.observed
  noValue : ∀ f c, r.comparison.get? f = some c → (c.verdict = .noValue ↔
    r.prediction.combined.get? f = some .unknown ∨ r.observed.get? f = some .unknown)
  /-- The disagreements are where two definite outcomes differ. -/
  disagreements : ∀ d, d ∈ r.disagreements.map Prod.fst ↔
    r.prediction.combined.get? d.flow = some d.expected ∧
      r.observed.get? d.flow = some d.observed ∧
      d.expected ≠ .unknown ∧ d.observed ≠ .unknown ∧ d.expected ≠ d.observed
  /-- The disagreements are in the order of flows, and none is listed twice. -/
  sorted : (r.disagreements.map Prod.fst).Pairwise fun d d' ↦ compare d.flow d'.flow = .lt
  /-- The decisions that are given for a disagreement lead to what was predicted. -/
  explained : ∀ d ∈ r.disagreements, d.2.outcome = d.1.expected
  consistent : r.isConsistent ↔ ∀ f c, r.comparison.get? f = some c → c.verdict ≠ .disagree

/-! ## Before the probes run -/

variable {t : Topology} {policy : Policy} {config : ProbeConfig} {b : JobBuilder}

/-- What is known of the jobs and of their prediction when the probes start. -/
structure Prepared (b : JobBuilder) (t : Topology) (policy : Policy) (config : ProbeConfig)
    (jobs : Jobs) (p : Prediction) : Prop where
  builds : b.BuildsAll (config.flows t) jobs.valid
  predicted : p.Of (PolicyIndex.build t [policy]) t (config.flows t)
  expected : ∀ j ∈ jobs.valid, j.expected = p.combined.get? j.flow

/-- What remains to be done when the jobs have been built for the second time. -/
def conclude (observe : List Job → Option Matrix) (t : Topology) (policy : Policy) (jobs : Jobs)
    (p : Prediction) : Except VerificationError Report :=
  match observe jobs.valid with
  | none => throw .aborted
  | some observed => do
    let comparison := p.combined.compare observed
    let disagreements ← comparison.disagreements.mapM fun d ↦ do
      return (d, ← ((PolicyIndex.build t [policy]).explainFlow t d.flow).mapError .model)
    return { policy, jobs, prediction := p, observed, comparison, disagreements }

theorem explainFlow_cases_of_mem (ht : t.Keyed) (policies : List Policy) {f : Flow}
    (hf : f ∈ config.flows t) :
    (NeedsAddress policies t f ∧ ∃ w ∈ t.workloads, w.address = none ∧
        (PolicyIndex.build t policies).explainFlow t f = .error (.missingAddress w.key)) ∨
      (¬NeedsAddress policies t f ∧
        ∃ e, (PolicyIndex.build t policies).explainFlow t f = .ok e) := by
  obtain ⟨source, hs, destination, hd, port, -, rfl⟩ := config.mem_flows_iff.mp hf
  exact PolicyIndex.explainFlow_cases ht policies hs hd port

/-- Either some address is missing, or all jobs are built and all flows are predicted. -/
theorem prepare_cases (ht : t.Keyed) (policy : Policy) (config : ProbeConfig) (b : JobBuilder) :
    (LacksAddress t policy config ∧ ∃ w ∈ t.workloads, w.address = none ∧
        ∀ observe, verify observe t policy config b =
          .error (.model (.missingAddress w.key))) ∨
      (¬LacksAddress t policy config ∧ ∃ js p, b.enumerate t config = .ok js ∧
        b.BuildsAll (config.flows t) js.valid ∧
        (PolicyIndex.build t [policy]).predict t js.valid = .ok p ∧
        p.Of (PolicyIndex.build t [policy]) t (config.flows t)) := by
  simp only [verify, JobBuilder.build_none]
  rcases b.enumerate_cases config t with ⟨d, hd, hunaddressed, heq⟩ | ⟨haddressed, js, heq, hjs⟩
  · rw [heq]
    exact Or.inl ⟨Or.inl ⟨d, hd, hunaddressed⟩, d, hd, hunaddressed.2.1, fun _ ↦ rfl⟩
  -- all jobs are built, so the first flow that cannot be explained is what may stop the prediction
  rw [heq]
  rcases PolicyIndex.predict_cases (PolicyIndex.build t [policy]) t js.valid with
    ⟨e, ⟨before, j, after, hsplit, -, he⟩, hpredict⟩ | ⟨p, hpredict, hp⟩
  · have hflow : j.flow ∈ config.flows t := by
      rw [← hjs.flows_eq, hsplit]
      simp
    rcases explainFlow_cases_of_mem ht [policy] hflow with
      ⟨hneeds, w, hw, haddress, herror⟩ | ⟨-, x, hx⟩
    · obtain rfl := Except.error.inj (he.symm.trans herror)
      refine Or.inl ⟨Or.inr ⟨j.flow, hflow, hneeds⟩, w, hw, haddress, fun _ ↦ ?_⟩
      simp only [Except.mapError, ok_bind, hpredict, error_bind]
    · exact absurd (he.symm.trans hx) (by simp)
  · rw [hjs.flows_eq] at hp
    refine Or.inr ⟨?_, js, p, rfl, hjs, hpredict, hp⟩
    rintro (⟨d, hd, hunaddressed⟩ | ⟨f, hf, hneeds⟩)
    · exact haddressed d hd hunaddressed
    · obtain ⟨x, hx, -⟩ := hp.explained f hf
      rcases explainFlow_cases_of_mem ht [policy] hf with ⟨-, w, -, -, herror⟩ | ⟨hnot, -⟩
      · exact absurd (hx.symm.trans herror) (by simp)
      · exact hnot hneeds

/-- The second build finds an expectation for each of its jobs. -/
theorem verify_eq_conclude {js : Jobs} {p : Prediction} (hbuild : b.enumerate t config = .ok js)
    (hjs : b.BuildsAll (config.flows t) js.valid)
    (hpredict : (PolicyIndex.build t [policy]).predict t js.valid = .ok p)
    (hp : p.Of (PolicyIndex.build t [policy]) t (config.flows t)) :
    ∃ jobs, Prepared b t policy config jobs p ∧
      ∀ observe, verify observe t policy config b = conclude observe t policy jobs p := by
  have hfound : ∀ j ∈ js.valid, (p.combined.get? j.flow).isSome := by
    intro j hj
    rw [hp.covers.2.2, ← hjs.flows_eq]
    exact List.mem_map_of_mem hj
  refine ⟨{ js with valid := js.valid.map fun j ↦ { j with expected := p.combined.get? j.flow } },
    ⟨⟨?_, ?_⟩, hp, ?_⟩, fun observe ↦ ?_⟩
  · rw [← hjs.flows_eq, List.map_map]
    rfl
  · simpa using hjs.timeout_eq
  · intro j hj
    obtain ⟨i, -, rfl⟩ := List.mem_map.mp hj
    rfl
  · simp only [verify, JobBuilder.build_none, hbuild, Except.mapError, ok_bind, hpredict,
      b.build_some config hbuild hfound]
    rfl

/-! ## After the probes have run -/

/-- The timeout leaves no room for the grace of the runner, and there is something to probe. -/
def Overflows (b : JobBuilder) (t : Topology) (config : ProbeConfig) : Prop :=
  b.timeout.add? probeGrace = none ∧ config.flows t ≠ []

theorem Prepared.exists_deadline_iff {jobs : Jobs} {p : Prediction}
    (h : Prepared b t policy config jobs p) :
    (∃ job ∈ jobs.valid, job.deadline? = none) ↔ Overflows b t config := by
  rw [Overflows, ← h.builds.flows_eq]
  constructor
  · rintro ⟨j, hj, hnone⟩
    rw [Job.deadline?, h.builds.timeout_eq j hj] at hnone
    exact ⟨hnone, List.ne_nil_of_mem (List.mem_map_of_mem hj)⟩
  · rintro ⟨hnone, hne⟩
    obtain ⟨f, hf⟩ := List.exists_mem_of_ne_nil _ hne
    obtain ⟨j, hj, -⟩ := List.mem_map.mp hf
    exact ⟨j, hj, by rw [Job.deadline?, h.builds.timeout_eq j hj, hnone]⟩

theorem Prepared.get?_compare {jobs : Jobs} {p : Prediction}
    (h : Prepared b t policy config jobs p) {observed : Matrix}
    (hcovers : observed.Covers (jobs.valid.map Job.flow)) {f : Flow} {c : ComparedCell} :
    (p.combined.compare observed).get? f = some c ↔
      p.combined.get? f = some c.expected ∧ observed.get? f = some c.observed := by
  refine Matrix.get?_compare_eq_some_iff ?_
  rw [h.predicted.covers.2.2, hcovers, h.builds.flows_eq]

/-- A flow that is explained again has the outcome that was predicted for it. -/
theorem Prepared.explain_disagreements {jobs : Jobs} {p : Prediction}
    (h : Prepared b t policy config jobs p) {observed : Matrix}
    (hcovers : observed.Covers (jobs.valid.map Job.flow)) :
    ∃ disagreements, ((p.combined.compare observed).disagreements.mapM fun d ↦ do
        return (d, ← ((PolicyIndex.build t [policy]).explainFlow t d.flow).mapError
          VerificationError.model)) = .ok disagreements ∧
      disagreements.map Prod.fst = (p.combined.compare observed).disagreements ∧
      ∀ r ∈ disagreements, r.2.outcome = r.1.expected := by
  have hexplain : ∀ d ∈ (p.combined.compare observed).disagreements,
      ∃ r : Disagreement × Explanation, (do
        return (d, ← ((PolicyIndex.build t [policy]).explainFlow t d.flow).mapError
          VerificationError.model)) = Except.ok r ∧ r.1 = d ∧ r.2.outcome = r.1.expected := by
    intro d hd
    obtain ⟨hcell, -⟩ := (Comparison.mem_disagreements_iff _).mp hd
    have hexpected := ((h.get?_compare hcovers).mp hcell).1
    -- only a flow with a prediction can disagree
    have hflow : d.flow ∈ config.flows t := by
      rw [← h.predicted.covers.2.2, hexpected]
      rfl
    obtain ⟨e, he, -, -, hcombined⟩ := h.predicted.explained d.flow hflow
    exact ⟨(d, e), by rw [he]; rfl, rfl, Option.some.inj (hcombined.symm.trans hexpected)⟩
  obtain ⟨disagreements, hmapM, hgood⟩ := exists_mapM hexplain
  refine ⟨disagreements, hmapM, ?_, forall_of_forall₂ (hgood.imp fun _ _ h ↦ h.2)⟩
  have hfst := map_eq_of_forall₂ (hgood.imp fun _ _ h ↦ h.1)
  rwa [List.map_id'] at hfst

theorem Prepared.sound {jobs : Jobs} {p : Prediction} (h : Prepared b t policy config jobs p)
    {observe : List Job → Option Matrix} {observed : Matrix}
    (hobserve : observe jobs.valid = some observed)
    (hcovers : observed.Covers (jobs.valid.map Job.flow)) :
    ∃ r, conclude observe t policy jobs p = .ok r ∧ r.Sound := by
  obtain ⟨disagreements, hmapM, hdisagreements, hexplained⟩ := h.explain_disagreements hcovers
  have hcompare := fun f c ↦ h.get?_compare hcovers (f := f) (c := c)
  have hflows := h.builds.flows_eq
  obtain ⟨hingress, hegress, hcombined⟩ := h.predicted.covers
  rw [← hflows] at hingress hegress hcombined
  refine ⟨⟨policy, jobs, p, observed, p.combined.compare observed, disagreements⟩, ?_, ?_⟩
  · rw [conclude, hobserve]
    exact congrArg (· >>= _) hmapM
  · refine ⟨hingress, hegress, hcombined, hcovers, fun f ↦ ?_, h.expected,
      fun f c hc ↦ (hcompare f c).mp hc, fun f c hc ↦ ?_, fun d ↦ ?_, ?_, hexplained, ?_⟩
    · rw [← hcombined f, Matrix.isSome_get?_compare, hcombined f, hcovers f, or_self]
    · obtain ⟨he, ho⟩ := (hcompare f c).mp hc
      simp only [ComparedCell.verdict_eq_noValue_iff, he, ho, Option.some.injEq]
    · rw [hdisagreements, Comparison.mem_disagreements_iff, hcompare, and_assoc]
    · rw [hdisagreements]
      exact Comparison.sorted_disagreements _
    · rw [Report.isConsistent, List.isEmpty_iff, ← List.map_eq_nil_iff (f := Prod.fst),
        hdisagreements, Comparison.disagreements_eq_nil_iff]

/-- **Verification is sound.** Whatever the probes do and in whatever order they end, verifying a
policy fails with a missing address exactly if some address is needed that is not set. It fails in
no other way, except that the batch is aborted if the deadline of the probes overflows. Otherwise it
gives a report of which all parts fit together. -/
theorem verify_sound (ht : t.Built) (policy : Policy) (config : ProbeConfig) (b : JobBuilder)
    {concurrency : Nat} {observe : List Job → Option Matrix}
    (hobserve : ∀ jobs, Batch.Yields concurrency jobs (observe jobs)) :
    (LacksAddress t policy config → ∃ w ∈ t.workloads, w.address = none ∧
        verify observe t policy config b = .error (.model (.missingAddress w.key))) ∧
      (¬LacksAddress t policy config → Overflows b t config →
        verify observe t policy config b = .error .aborted) ∧
      (¬LacksAddress t policy config → ¬Overflows b t config →
        ∃ r, verify observe t policy config b = .ok r ∧ r.Sound) := by
  rcases prepare_cases ht.keyed policy config b with
    ⟨hlacks, w, hw, haddress, heq⟩ | ⟨hlacks, js, p, hbuild, hjs, hpredict, hp⟩
  · exact ⟨fun _ ↦ ⟨w, hw, haddress, heq observe⟩, fun h ↦ absurd hlacks h,
      fun h ↦ absurd hlacks h⟩
  · obtain ⟨jobs, hprepared, heq⟩ := verify_eq_conclude hbuild hjs hpredict hp
    have hyields := hobserve jobs.valid
    rw [heq, ← hprepared.exists_deadline_iff, ← hyields.eq_none_iff]
    refine ⟨fun h ↦ absurd h hlacks, fun _ hnone ↦ ?_, fun _ hsome ↦ ?_⟩
    · rw [conclude, hnone]
      rfl
    · obtain ⟨observed, hobserved⟩ := Option.ne_none_iff_exists'.mp hsome
      exact hprepared.sound hobserved (hobserved ▸ hyields).covers

/-- Denies everything that the pods of a namespace receive. -/
def closedPolicy : Policy := ⟨"closed", ⟨"x", .everything, .only .ingress⟩, [], []⟩

/-- In `pair` the policy is contradicted by probes that always connect, and cannot be verified by
address. -/
theorem verify_sound_pair :
    (∃ r, verify (Batch.run (fun _ ↦ ⟨some .allowed, 0⟩) 2) .pair closedPolicy
        ⟨.all, .serviceName⟩ ⟨.ofSeconds 5, "cluster.local"⟩ = .ok r ∧ r.Sound ∧
        r.disagreements.length = 4) ∧
      ∃ w ∈ Topology.pair.workloads, w.address = none ∧
        verify (Batch.run (fun _ ↦ ⟨some .allowed, 0⟩) 2) .pair closedPolicy
          ⟨.all, .podAddress⟩ ⟨.ofSeconds 5, "cluster.local"⟩ =
            .error (.model (.missingAddress w.key)) := by
  have hbuilt : Topology.pair.Built := .conventional ["x"] ["a", "b"] [⟨.tcp, 80⟩]
  have hobserve := Batch.yields_run (fun _ ↦ ⟨some .allowed, 0⟩) 2
  obtain ⟨hmissing, -, hsound⟩ := verify_sound hbuilt closedPolicy ⟨.all, .serviceName⟩
    ⟨.ofSeconds 5, "cluster.local"⟩ hobserve
  obtain ⟨hmissing', -⟩ := verify_sound hbuilt closedPolicy ⟨.all, .podAddress⟩
    ⟨.ofSeconds 5, "cluster.local"⟩ hobserve
  have hcount : (verify (Batch.run (fun _ ↦ ⟨some .allowed, 0⟩) 2) .pair closedPolicy
      ⟨.all, .serviceName⟩ ⟨.ofSeconds 5, "cluster.local"⟩).toOption.map
        (·.disagreements.length) = some 4 := by decide +kernel
  have hlacks : ¬LacksAddress .pair closedPolicy ⟨.all, .serviceName⟩ := by
    intro h
    obtain ⟨w, -, -, herror⟩ := hmissing h
    rw [herror] at hcount
    exact absurd hcount (by simp [Except.toOption])
  have hoverflows : ¬Overflows ⟨.ofSeconds 5, "cluster.local"⟩ .pair ⟨.all, .serviceName⟩ :=
    fun h ↦ absurd h.1 (by decide)
  obtain ⟨r, hr, hsound⟩ := hsound hlacks hoverflows
  rw [hr] at hcount
  have ha : Topology.pairPod "a" ∈ Topology.pair.workloads := by decide +kernel
  exact ⟨⟨r, hr, hsound, Option.some.inj hcount⟩,
    hmissing' (Or.inl ⟨Topology.pairPod "a", ha, rfl, rfl, by decide⟩)⟩

end Reachability
