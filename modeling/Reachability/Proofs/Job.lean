import Reachability.Job
import Reachability.Proofs.Sequence
import Reachability.Proofs.Topology

/-!
# Which probes there are

The flows that a configuration asks for (`ProbeConfig.flows`), said as a list over pairs of
workloads without the error channel of the builder, and the proof that building either gives exactly
the jobs of these flows or reports a destination without an address (`JobBuilder.enumerate_cases`).

Whether a job can be built depends on its destination only: the source, the port and the rest of the
job cannot fail.
-/

namespace Reachability

/-! ## What a configuration asks for -/

namespace ProbeConfig

variable (config : ProbeConfig)

/-- The ports of a destination that are probed, with the names that their jobs give them. -/
def requests (destination : Workload) : List (ServicePort × Option String) :=
  match config.ports with
  | .all => destination.ports.map fun p ↦ (p.servicePort, p.name)
  | .single (.number n) protocol =>
    (destination.resolveNumbered n protocol).toList.map fun p ↦ (⟨protocol, n⟩, p.name)
  | .single (.name name) protocol =>
    (destination.resolveNamed name protocol).toList.map fun n ↦ (⟨protocol, n⟩, some name)

/-- The ports of a destination that are probed. -/
def probed (destination : Workload) : List ServicePort := (config.requests destination).map Prod.fst

/-- What is set aside for two workloads because a configured name does not resolve. -/
def namesAside (source destination : Workload) : List UnresolvedJob :=
  match config.ports with
  | .single (.name name) protocol =>
    if (destination.resolveNamed name protocol).isSome then []
    else [⟨source.key, destination.key, .name name, protocol⟩]
  | _ => []

/-- What is set aside for two workloads because a configured number is not declared. -/
def numbersAside (source destination : Workload) : List UnresolvedJob :=
  match config.ports with
  | .single (.number n) protocol =>
    if (destination.resolveNumbered n protocol).isSome then []
    else [⟨source.key, destination.key, .number n, protocol⟩]
  | _ => []

/-- The flows between two workloads that are probed. -/
def flowsBetween (source destination : Workload) : List Flow :=
  (config.probed destination).map fun port ↦ ⟨source.key, destination.key, port⟩

/-- The flows that are probed, in the order of sources and then of destinations. -/
def flows (t : Topology) : List Flow :=
  t.workloads.flatMap fun source ↦ t.workloads.flatMap (config.flowsBetween source)

theorem mem_flows_iff {t : Topology} {f : Flow} :
    f ∈ config.flows t ↔ ∃ source ∈ t.workloads, ∃ destination ∈ t.workloads,
      ∃ port ∈ config.probed destination, ⟨source.key, destination.key, port⟩ = f := by
  simp only [flows, flowsBetween, List.mem_flatMap, List.mem_map]

/-- The destination is to be addressed by an address that it does not have. -/
def Unaddressed (destination : Workload) : Prop :=
  config.mode = .podAddress ∧ destination.address = none ∧ config.probed destination ≠ []

end ProbeConfig

/-! ## Jobs between two workloads -/

namespace JobBuilder

variable (b : JobBuilder)

theorem host_cases (mode : ProbeMode) (w : Workload) :
    ((mode = .podAddress ∧ w.address = none) ∧ b.host mode w = .error (.missingAddress w.key)) ∨
      (¬(mode = .podAddress ∧ w.address = none) ∧ ∃ host, b.host mode w = .ok host) := by
  cases mode with
  | serviceName => exact Or.inr ⟨by simp, b.serviceHost w, rfl⟩
  | podAddress =>
    rw [host, Workload.requireAddress]
    cases w.address with
    | none => exact Or.inl ⟨⟨rfl, rfl⟩, rfl⟩
    | some a => exact Or.inr ⟨by simp, toString a, rfl⟩

/-- The jobs are for these flows, in this order, with the timeout of the builder. -/
structure BuildsAll (flows : List Flow) (jobs : List Job) : Prop where
  flows_eq : jobs.map Job.flow = flows
  timeout_eq : ∀ j ∈ jobs, j.timeout = b.timeout

theorem job_cases (mode : ProbeMode) (source destination : Workload) (port : ServicePort)
    (portName : Option String) :
    ((mode = .podAddress ∧ destination.address = none) ∧
        b.job mode source destination port portName =
          .error (.missingAddress destination.key)) ∨
      (¬(mode = .podAddress ∧ destination.address = none) ∧
        ∃ j, b.job mode source destination port portName = .ok j ∧
          j.flow = ⟨source.key, destination.key, port⟩ ∧ j.timeout = b.timeout) := by
  rw [job]
  rcases b.host_cases mode destination with ⟨h, heq⟩ | ⟨h, host, heq⟩
  · rw [heq]
    exact Or.inl ⟨h, rfl⟩
  · rw [heq]
    exact Or.inr ⟨h, _, rfl, rfl, rfl⟩

variable (config : ProbeConfig) (source destination : Workload)

theorem mapM_job_cases :
    (config.Unaddressed destination ∧
        (config.requests destination).mapM (fun r ↦ b.job config.mode source destination r.1 r.2) =
          .error (.missingAddress destination.key)) ∨
      (¬config.Unaddressed destination ∧ ∃ jobs,
        (config.requests destination).mapM (fun r ↦ b.job config.mode source destination r.1 r.2) =
          .ok jobs ∧
        b.BuildsAll (config.flowsBetween source destination) jobs) := by
  have hjob := fun (r : ServicePort × Option String) (_ : r ∈ config.requests destination) ↦
    b.job_cases config.mode source destination r.1 r.2
  rcases mapM_cases hjob with
    ⟨before, r, after, hsplit, -, ⟨hmode, haddress⟩, heq⟩ | ⟨hnone, jobs, heq, hjobs⟩
  · refine Or.inl ⟨⟨hmode, haddress, ?_⟩, heq⟩
    simp [ProbeConfig.probed, hsplit]
  · refine Or.inr ⟨?_, jobs, heq, ?_, forall_of_forall₂ (hjobs.imp fun _ _ h ↦ h.2)⟩
    · rintro ⟨hmode, haddress, hne⟩
      obtain ⟨r, hr⟩ := List.exists_mem_of_ne_nil _ (mt List.map_eq_nil_iff.mpr hne)
      exact hnone r hr ⟨hmode, haddress⟩
    · rw [ProbeConfig.flowsBetween, ProbeConfig.probed, List.map_map]
      exact map_eq_of_forall₂ (hjobs.imp fun _ _ h ↦ h.1)

/-- All that a pair of workloads adds to an enumeration. -/
theorem pairJobs_eq :
    b.pairJobs config source destination = (do
      let valid ← (config.requests destination).mapM fun r ↦
        b.job config.mode source destination r.1 r.2
      return ⟨valid, config.namesAside source destination,
        config.numbersAside source destination⟩) := by
  obtain ⟨ports, mode⟩ := config
  cases ports with
  | all =>
    simp only [pairJobs, ProbeConfig.requests, List.mapM_map]
    rfl
  | single port protocol =>
    cases port with
    | number n =>
      simp only [pairJobs, ProbeConfig.requests, ProbeConfig.namesAside, ProbeConfig.numbersAside]
      cases destination.resolveNumbered n protocol with
      | none => rfl
      | some p => simp
    | name name =>
      simp only [pairJobs, ProbeConfig.requests, ProbeConfig.namesAside, ProbeConfig.numbersAside]
      cases destination.resolveNamed name protocol with
      | none => rfl
      | some n => simp

theorem pairJobs_cases :
    (config.Unaddressed destination ∧
        b.pairJobs config source destination = .error (.missingAddress destination.key)) ∨
      (¬config.Unaddressed destination ∧ ∃ js, b.pairJobs config source destination = .ok js ∧
        b.BuildsAll (config.flowsBetween source destination) js.valid) := by
  rw [pairJobs_eq]
  rcases b.mapM_job_cases config source destination with ⟨h, heq⟩ | ⟨h, jobs, heq, hjobs⟩
  · rw [heq]
    exact Or.inl ⟨h, rfl⟩
  · rw [heq]
    exact Or.inr ⟨h, _, rfl, hjobs⟩

/-! ## Jobs of a topology -/

theorem mem_pairs_iff {α : Type} {l : List α} {p : α × α} :
    p ∈ l.flatMap (fun a ↦ l.map (a, ·)) ↔ p.1 ∈ l ∧ p.2 ∈ l := by
  obtain ⟨x, y⟩ := p
  simp [List.mem_flatMap]

/-- Everything that enumerating the jobs can do. -/
theorem enumerate_cases (t : Topology) :
    (∃ d ∈ t.workloads, config.Unaddressed d ∧
        b.enumerate t config = .error (.missingAddress d.key)) ∨
      ((∀ d ∈ t.workloads, ¬config.Unaddressed d) ∧ ∃ js, b.enumerate t config = .ok js ∧
        b.BuildsAll (config.flows t) js.valid) := by
  rw [enumerate]
  have hpair := fun (p : Workload × Workload)
    (_ : p ∈ t.workloads.flatMap fun source ↦ t.workloads.map (source, ·)) ↦
    b.pairJobs_cases config p.1 p.2
  rcases mapM_cases hpair with
    ⟨before, p, after, hsplit, -, hunaddressed, heq⟩ | ⟨hnone, parts, heq, hparts⟩
  · have hp : p ∈ t.workloads.flatMap fun source ↦ t.workloads.map (source, ·) := by
      rw [hsplit]
      exact List.mem_append_right _ List.mem_cons_self
    exact Or.inl ⟨p.2, (mem_pairs_iff.mp hp).2, hunaddressed, congrArg (· >>= _) heq⟩
  · refine Or.inr ⟨fun d hd ↦ ?_, Jobs.concat parts, congrArg (· >>= _) heq, ?_, fun j hj ↦ ?_⟩
    · exact hnone (d, d) (mem_pairs_iff.mpr ⟨hd, hd⟩)
    · rw [Jobs.concat, List.map_flatMap, flatMap_eq_of_forall₂ (hparts.imp fun _ _ h ↦ h.flows_eq),
        List.flatMap_assoc]
      simp only [List.flatMap_map]
      rfl
    · obtain ⟨js, hjs, hj⟩ := List.mem_flatMap.mp hj
      exact forall_of_forall₂ (hparts.imp fun _ _ h ↦ h.timeout_eq) js hjs j hj

/-! ## Expected outcomes -/

theorem build_none (t : Topology) : b.build t config none = b.enumerate t config := by
  rw [build]
  cases b.enumerate t config <;> rfl

/-- With an outcome for every flow, the second build finds all that it looks for. -/
theorem build_some {t : Topology} {js : Jobs} (h : b.enumerate t config = .ok js) {m : Matrix}
    (hm : ∀ j ∈ js.valid, (m.get? j.flow).isSome) :
    b.build t config (some m) =
      .ok { js with valid := js.valid.map fun j ↦ { j with expected := m.get? j.flow } } := by
  have hexpect : js.valid.mapM (expect m) =
      .ok (js.valid.map fun j ↦ { j with expected := m.get? j.flow }) := by
    refine mapM_eq_ok_map fun j hj ↦ ?_
    obtain ⟨o, ho⟩ := Option.isSome_iff_exists.mp (hm j hj)
    rw [expect, ho]
  rw [build, h, ok_bind]
  simp only [hexpect, ok_bind]
  rfl

end JobBuilder

end Reachability
