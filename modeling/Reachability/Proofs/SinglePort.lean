import Reachability.Proofs.Cellwise
import Reachability.Proofs.Enumeration

/-!
# One port and all ports

Where every workload has an address, all jobs are built and predicted. The jobs for a single port
are chosen in another way than those for all ports: for each destination the first declaration is
looked up that the configured number or name answers to. Still they are just the jobs for all ports
that are on this port (`ProbeConfig.mem_flows_single_iff`), since a declaration that comes first
stands for the others with its number, and a name stands for the number of the first declaration
with this name. Of matrices that are predicted cell by cell the same follows.
-/

namespace Reachability

/-! ## Flows on a configured port -/

/-- The port of the flow is the one that is configured. A name stands for the number that the
destination of the flow resolves it to. -/
def Flow.OnPort (f : Flow) (t : Topology) (port : PortRef) (protocol : Protocol) : Prop :=
  match port with
  | .number n => f.port = ⟨protocol, n⟩
  | .name name => ∃ w n, t.workload? f.destination = some w ∧
      w.resolveNamed name protocol = some n ∧ f.port = ⟨protocol, n⟩

theorem ContainerPort.answers_number_iff {p : ContainerPort} {n : UInt16} {protocol : Protocol} :
    p.answers (.number n) protocol ↔ p.servicePort = ⟨protocol, n⟩ := by
  rw [answers, servicePort, ServicePort.mk.injEq, Bool.and_eq_true, beq_iff_eq, beq_iff_eq]

namespace ProbeConfig

variable {config : ProbeConfig} {mode : ProbeMode} {protocol : Protocol} {w : Workload}
  {q : ServicePort}

/-- What is probed for any configuration is probed for all ports. -/
theorem mem_probed_all_of_mem_probed (h : q ∈ config.probed w) : q ∈ probed ⟨.all, mode⟩ w := by
  rw [probed_eq_map_asked] at h ⊢
  obtain ⟨p, hp, rfl⟩ := List.mem_map.mp h
  exact List.mem_map_of_mem (config.mem_ports_of_mem_asked hp)

theorem mem_asked_single_iff {port : PortRef} {p : ContainerPort} :
    p ∈ asked ⟨.single port protocol, mode⟩ w ↔
      w.ports.find? (·.answers port protocol) = some p := Option.mem_toList

theorem mem_probed_number_iff {n : UInt16} :
    q ∈ probed ⟨.single (.number n) protocol, mode⟩ w ↔
      q ∈ probed ⟨.all, mode⟩ w ∧ q = ⟨protocol, n⟩ := by
  constructor
  · intro h
    refine ⟨mem_probed_all_of_mem_probed h, ?_⟩
    rw [probed_eq_map_asked] at h
    obtain ⟨p, hp, rfl⟩ := List.mem_map.mp h
    have hanswers := List.find?_some (mem_asked_single_iff.mp hp)
    exact ContainerPort.answers_number_iff.mp hanswers
  · rintro ⟨h, rfl⟩
    rw [probed_eq_map_asked] at h ⊢
    obtain ⟨p, hp, hport⟩ := List.mem_map.mp h
    have hsome : (w.ports.find? (·.answers (.number n) protocol)).isSome :=
      List.find?_isSome.mpr ⟨p, hp, ContainerPort.answers_number_iff.mpr hport⟩
    -- the declaration that is found need not be `p`, but it has the number too
    obtain ⟨first, hfirst⟩ := Option.isSome_iff_exists.mp hsome
    have hanswers := List.find?_some hfirst
    exact List.mem_map.mpr ⟨first, mem_asked_single_iff.mpr hfirst,
      ContainerPort.answers_number_iff.mp hanswers⟩

theorem mem_probed_name_iff {name : String} :
    q ∈ probed ⟨.single (.name name) protocol, mode⟩ w ↔
      ∃ n, w.resolveNamed name protocol = some n ∧ q = ⟨protocol, n⟩ := by
  simp [probed, requests, eq_comm]

/-- The flows for a single port are the flows for all ports that are on this port. -/
theorem mem_flows_single_iff {t : Topology} (ht : t.Keyed) {port : PortRef} {f : Flow} :
    f ∈ flows ⟨.single port protocol, mode⟩ t ↔
      f ∈ flows ⟨.all, mode⟩ t ∧ f.OnPort t port protocol := by
  rw [mem_flows_iff, mem_flows_iff]
  constructor
  · rintro ⟨source, hs, destination, hd, q, hq, rfl⟩
    refine ⟨⟨source, hs, destination, hd, q, mem_probed_all_of_mem_probed hq, rfl⟩, ?_⟩
    cases port with
    | number n => exact (mem_probed_number_iff.mp hq).2
    | name name =>
      obtain ⟨n, hresolve, rfl⟩ := mem_probed_name_iff.mp hq
      exact ⟨destination, n, ht.mem_workloads_iff.mp hd, hresolve, rfl⟩
  · rintro ⟨⟨source, hs, destination, hd, q, hq, rfl⟩, hport⟩
    refine ⟨source, hs, destination, hd, q, ?_, rfl⟩
    cases port with
    | number n => exact mem_probed_number_iff.mpr ⟨hq, hport⟩
    | name name =>
      obtain ⟨w, n, hw, hresolve, hport⟩ := hport
      obtain rfl := Option.some.inj (hw.symm.trans (ht.mem_workloads_iff.mp hd))
      exact mem_probed_name_iff.mpr ⟨n, hresolve, hport⟩

end ProbeConfig

/-! ## Predicting all jobs -/

open PolicyIndex

/-- Where every workload has an address, all jobs are built and all of them are predicted. -/
theorem exists_prediction {t : Topology} (ht : t.Keyed) (haddressed : t.Addressed)
    (policies : List Policy) (b : JobBuilder) (config : ProbeConfig) :
    ∃ js p, b.enumerate t config = .ok js ∧ (build t policies).predict t js.valid = .ok p ∧
      p.Of (build t policies) t (config.flows t) := by
  rcases b.enumerate_cases config t with ⟨d, hd, hunaddressed, -⟩ | ⟨-, js, hjs, hbuilds⟩
  · exact absurd hunaddressed.2.1 (haddressed d hd)
  · have hexplained : ∀ j ∈ js.valid, ∃ e, (build t policies).explainFlow t j.flow = .ok e := by
      intro j hj
      have hflow : j.flow ∈ config.flows t := hbuilds.flows_eq ▸ List.mem_map_of_mem hj
      obtain ⟨source, hs, destination, hd, port, -, hends⟩ := config.mem_flows_iff.mp hflow
      obtain ⟨traffic, hof, -⟩ := ht.traffic_eq_ok hs hd port
      rw [hends] at hof
      obtain ⟨e, he, -⟩ := haddressed.exists_explain ht hof policies
      exact ⟨e, (explainFlow_eq hof _).trans he⟩
    obtain ⟨p, hp, hof⟩ := exists_predict hexplained
    rw [hbuilds.flows_eq] at hof
    exact ⟨js, p, hjs, hp, hof⟩

/-! ## Restrictions -/

namespace Prediction

/-- Each matrix of a prediction is a restriction of that of another one. -/
structure IsRestriction (p whole : Prediction) (P : Flow → Prop) : Prop where
  matrix : ∀ d, (p.matrix d).IsRestriction (whole.matrix d) P
  combined : p.combined.IsRestriction whole.combined P

/-- No matrix of the prediction has a cell for the flow. -/
structure Lacks (p : Prediction) (f : Flow) : Prop where
  matrix : ∀ d, (p.matrix d).get? f = none
  combined : p.combined.get? f = none

variable {index : PolicyIndex} {t : Topology} {flows flows' : List Flow} {p whole : Prediction}

theorem Of.isRestriction (h : p.Of index t flows) (h' : whole.Of index t flows') {P : Flow → Prop}
    (hflows : ∀ f, f ∈ flows ↔ f ∈ flows' ∧ P f) : p.IsRestriction whole P where
  matrix d := (h.holds d).isRestriction (h'.holds d) hflows
  combined := h.holds_combined.isRestriction h'.holds_combined hflows

theorem Of.lacks_iff (h : p.Of index t flows) {f : Flow} : p.Lacks f ↔ f ∉ flows := by
  constructor
  · intro hlacks hf
    obtain ⟨e, -, -, -, hcombined⟩ := h.explained f hf
    exact absurd (hcombined.symm.trans hlacks.combined) (by simp)
  · intro hf
    exact ⟨fun d ↦ h.get?_matrix_eq_none d hf, (h.absent f hf).2.2⟩

end Prediction

/-! ## Destinations without the port -/

theorem Jobs.mem_setAside_iff {js : Jobs} (port : PortRef) {u : UnresolvedJob} :
    u ∈ js.unresolvedNames ++ js.unresolvedNumbers ↔
      u ∈ js.setAside port ∨ u ∈ js.setAsideOther port := by
  rw [List.mem_append]
  cases port with
  | number n => exact or_comm
  | name name => exact Iff.rfl

/-- There is no flow to a destination that is set aside. -/
theorem JobBuilder.not_mem_flows_of_setAside {b : JobBuilder} {t : Topology} (ht : t.Keyed)
    {port : PortRef} {protocol : Protocol} {mode : ProbeMode} {js : Jobs}
    (h : b.enumerate t ⟨.single port protocol, mode⟩ = .ok js) {u : UnresolvedJob}
    (hu : u ∈ js.unresolvedNames ++ js.unresolvedNumbers) {f : Flow}
    (hf : f.destination = u.destination) :
    f ∉ ProbeConfig.flows ⟨.single port protocol, mode⟩ t := by
  obtain ⟨hother, haside⟩ := setAside_of_enumerate h
  rw [Jobs.mem_setAside_iff port, hother, haside] at hu
  obtain ⟨pair, hpair, rfl⟩ := List.mem_map.mp (hu.resolve_right List.not_mem_nil)
  obtain ⟨hmem, hundeclared⟩ := List.mem_filter.mp hpair
  intro hflow
  obtain ⟨source, -, destination, hd, q, hq, rfl⟩ := (ProbeConfig.mem_flows_iff _).mp hflow
  obtain rfl := ht.eq_of_key_eq hd (mem_pairs_iff.mp hmem).2 hf
  -- what is probed at the destination is declared there, and then it is not set aside
  rw [ProbeConfig.probed_eq_map_asked] at hq
  obtain ⟨p, hp, -⟩ := List.mem_map.mp hq
  rw [← Workload.isSome_find?_ports, ProbeConfig.mem_asked_single_iff.mp hp] at hundeclared
  exact absurd hundeclared (by simp)

/-- **A single port is a part of all ports.** Where every workload has an address, the jobs for a
single port and those for all ports are built and predicted, and in each matrix the prediction for
the single port is the one for all ports restricted to the flows on this port. It has no cell that
the other one lacks, and none for a destination that is set aside. -/
theorem predict_single_port {t : Topology} (ht : t.Built) (haddressed : t.Addressed)
    (policies : List Policy) (b : JobBuilder) (mode : ProbeMode) (port : PortRef)
    (protocol : Protocol) :
    ∃ (one all : Jobs) (p whole : Prediction),
      b.build t ⟨.single port protocol, mode⟩ none = .ok one ∧
      b.build t ⟨.all, mode⟩ none = .ok all ∧
      (build t policies).predict t one.valid = .ok p ∧
      (build t policies).predict t all.valid = .ok whole ∧
      p.IsRestriction whole (·.OnPort t port protocol) ∧
      (∀ f, whole.Lacks f → p.Lacks f) ∧
      ∀ u ∈ one.unresolvedNames ++ one.unresolvedNumbers, ∀ f : Flow,
        f.destination = u.destination → p.Lacks f := by
  obtain ⟨one, p, hone, hp, hof⟩ :=
    exists_prediction ht.keyed haddressed policies b ⟨.single port protocol, mode⟩
  obtain ⟨all, whole, hall, hwhole, hof'⟩ :=
    exists_prediction ht.keyed haddressed policies b ⟨.all, mode⟩
  have hflows : ∀ f, f ∈ ProbeConfig.flows ⟨.single port protocol, mode⟩ t ↔
      f ∈ ProbeConfig.flows ⟨.all, mode⟩ t ∧ f.OnPort t port protocol :=
    fun f ↦ ProbeConfig.mem_flows_single_iff ht.keyed
  refine ⟨one, all, p, whole, (b.build_none _ t).trans hone, (b.build_none _ t).trans hall, hp,
    hwhole, hof.isRestriction hof' hflows, fun f hlacks ↦ ?_, fun u hu f hf ↦ ?_⟩
  · exact hof.lacks_iff.mpr fun hf ↦ hof'.lacks_iff.mp hlacks ((hflows f).mp hf).1
  · exact hof.lacks_iff.mpr (JobBuilder.not_mem_flows_of_setAside ht.keyed hone hu hf)

/-- A running pod that serves a port of its own beside that of the pods of `pair`. -/
def resolverPod : Workload where
  key := ⟨"x", "c"⟩
  labels := ∅
  address := some (.v4 0x0A000003#32)
  containers := [.serving ⟨.tcp, 80⟩, .serving ⟨.udp, 53⟩]

/-- `runningPair` with that pod. -/
def Topology.runningTrio : Topology where
  namespaces := SortedMap.ofList [("x",
    { Namespace.new "x" (SortedMap.ofList [("ns", "x")]) with
      workloads := SortedMap.ofList [
        ("a", { pairPod "a" with address := some (.v4 0x0A000001#32) }),
        ("b", { pairPod "b" with address := some (.v4 0x0A000002#32) }), ("c", resolverPod)] })]

theorem Topology.built_runningTrio : runningTrio.Built :=
  built_runningPair.addWorkload (w := resolverPod) (by decide +kernel)

theorem Topology.addressed_runningTrio : runningTrio.Addressed := by
  have h : ∀ w ∈ runningTrio.workloads, w.address ≠ none := by decide +kernel
  exact h

/-- Only one pod has a port of the name, and the other two are set aside. -/
theorem predict_single_port_runningTrio :
    ∃ (one all : Jobs) (p whole : Prediction),
      someBuilder.build .runningTrio ⟨.single (.name "serve-53-udp") .udp, .podAddress⟩ none =
        .ok one ∧
      someBuilder.build .runningTrio ⟨.all, .podAddress⟩ none = .ok all ∧
      (build .runningTrio [undecidedPolicy]).predict .runningTrio one.valid = .ok p ∧
      (build .runningTrio [undecidedPolicy]).predict .runningTrio all.valid = .ok whole ∧
      p.IsRestriction whole (·.OnPort .runningTrio (.name "serve-53-udp") .udp) ∧
      (p.combined.size, whole.combined.size, one.unresolvedNames.length) = (3, 12, 6) := by
  obtain ⟨one, all, p, whole, hone, hall, hp, hwhole, hrestriction, -, -⟩ :=
    predict_single_port Topology.built_runningTrio Topology.addressed_runningTrio
      [undecidedPolicy] someBuilder .podAddress (.name "serve-53-udp") .udp
  have hsizes : (do
      let one ← someBuilder.build .runningTrio
        ⟨.single (.name "serve-53-udp") .udp, .podAddress⟩ none
      let all ← someBuilder.build .runningTrio ⟨.all, .podAddress⟩ none
      let p ← (build .runningTrio [undecidedPolicy]).predict .runningTrio one.valid
      let whole ← (build .runningTrio [undecidedPolicy]).predict .runningTrio all.valid
      return (p.combined.size, whole.combined.size, one.unresolvedNames.length)) =
      Except.ok (3, 12, 6) := by decide +kernel
  simp only [hone, hall, hp, hwhole, ok_bind] at hsizes
  exact ⟨one, all, p, whole, hone, hall, hp, hwhole, hrestriction, Except.ok.inj hsizes⟩

end Reachability
