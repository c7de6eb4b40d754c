import Reachability.Cluster.Resources
import Reachability.Proofs.Enumeration

/-!
# Resources and probes

The objects that bring a topology to life are made from its workloads, and so are the jobs that
probe it, but along two ways that do not know of each other. Here the objects are read back as a
cluster reads them, by the paths of their fields (`Tree.at?`), and compared with the jobs: the host
and the port that a job connects to are those of a service, whose selector leads to the pod that the
job is about, which declares the port.

What an application sends is a list of objects (`Cluster.objects`) once every request was accepted,
so nothing here depends on the form of requests.
-/

namespace Reachability

/-! ## Reading objects -/

namespace Tree

/-- The value of a field of a record. -/
def field? (name : String) : Tree → Option Tree
  | record fields => fields.lookup name
  | _ => none

/-- The node at the end of a path of field names. -/
def at? (t : Tree) (path : List String) : Option Tree :=
  path.foldlM (fun node name ↦ node.field? name) t

end Tree

namespace Manifest

/-- The object has a kind, a name and a namespace. -/
structure Is (object : Tree) (kind name ns : String) : Prop where
  kind : object.at? ["kind"] = some (.text kind)
  name : object.at? ["metadata", "name"] = some (.text name)
  ns : object.at? ["metadata", "namespace"] = some (.text ns)

/-- Some container of a pod lists a port. -/
def PodLists (pod : Tree) (port : ServicePort) : Prop :=
  ∃ containers, pod.at? ["spec", "containers"] = some (.list containers) ∧ ∃ c ∈ containers,
    ∃ ports, c.at? ["ports"] = some (.list ports) ∧ ∃ p ∈ ports,
      p.at? ["containerPort"] = some (.int port.number.toNat) ∧
        p.at? ["protocol"] = some (.text port.protocol.name)

/-- A service lists a port, with a port of pods to which it leads. -/
def ServiceLists (service : Tree) (port : ServicePort) (target : Option Tree) : Prop :=
  ∃ ports, service.at? ["spec", "ports"] = some (.list ports) ∧ ∃ p ∈ ports,
    p.at? ["port"] = some (.int port.number.toNat) ∧
      p.at? ["protocol"] = some (.text port.protocol.name) ∧ p.at? ["targetPort"] = target

/-- A pod has all the labels that the selector of a service asks for. -/
def Selects (service pod : Tree) : Prop :=
  ∃ wanted labels, service.at? ["spec", "selector"] = some (.record wanted) ∧
    pod.at? ["metadata", "labels"] = some (.record labels) ∧ ∀ e ∈ wanted, e ∈ labels

end Manifest

theorem Protocol.name_injective {p q : Protocol} (h : p.name = q.name) : p = q := by
  cases p <;> cases q <;> first | rfl | exact absurd h (by decide)

namespace Manifest

/-! ## The objects of a workload -/

variable {w : Workload}

theorem is_pod (w : Workload) : Is (pod w) "Pod" w.key.name w.key.ns := ⟨rfl, rfl, rfl⟩

theorem is_service (w : Workload) : Is (service w) "Service" (serviceName w) w.key.ns :=
  ⟨rfl, rfl, rfl⟩

theorem labels_pod (w : Workload) :
    (pod w).at? ["metadata", "labels"] = some (Encode.labels w.labels) := rfl

theorem at?_containerPort (p : ContainerPort) :
    (containerPort p).at? ["containerPort"] = some (.int p.number.toNat) ∧
      (containerPort p).at? ["protocol"] = some (.text p.protocol.name) := by
  obtain ⟨name, number, protocol⟩ := p
  cases name <;> exact ⟨rfl, rfl⟩

theorem at?_servicePort (p : ContainerPort) :
    (servicePort p).at? ["port"] = some (.int p.number.toNat) ∧
      (servicePort p).at? ["protocol"] = some (.text p.protocol.name) ∧
      (servicePort p).at? ["targetPort"] = some (.int p.number.toNat) := by
  obtain ⟨name, number, protocol⟩ := p
  cases name <;> exact ⟨rfl, rfl, rfl⟩

theorem ports_container (c : Container) :
    (container c).at? ["ports"] = some (.list (c.ports.map containerPort)) := by
  -- whether there is an environment decides how many fields come before
  by_cases henv : (serverEnvironment c).isEmpty
  · simp only [container, if_pos henv]
    rfl
  · simp only [container, if_neg henv]
    rfl

theorem podLists_pod {p : ContainerPort} (hp : p ∈ w.ports) : PodLists (pod w) p.servicePort := by
  obtain ⟨c, hc, hp⟩ := List.mem_flatMap.mp hp
  exact ⟨w.containers.map container, rfl, container c, List.mem_map_of_mem hc,
    c.ports.map containerPort, ports_container c, containerPort p, List.mem_map_of_mem hp,
    at?_containerPort p⟩

theorem serviceLists_service_iff {port : ServicePort} {target : Option Tree} :
    ServiceLists (service w) port target ↔
      (∃ p ∈ w.ports, p.servicePort = port) ∧ target = some (.int port.number.toNat) := by
  constructor
  · rintro ⟨ports, hports, node, hnode, hnumber, hprotocol, htarget⟩
    obtain rfl : w.ports.map servicePort = ports := Tree.list.inj (Option.some.inj hports)
    obtain ⟨p, hp, rfl⟩ := List.mem_map.mp hnode
    obtain ⟨hnumber', hprotocol', htarget'⟩ := at?_servicePort p
    rw [hnumber', Option.some.injEq, Tree.int.injEq, Int.ofNat_inj] at hnumber
    rw [hprotocol', Option.some.injEq, Tree.text.injEq] at hprotocol
    have hport : p.servicePort = port := by
      rw [ContainerPort.servicePort, UInt16.toNat_inj.mp hnumber,
        Protocol.name_injective hprotocol]
    exact ⟨⟨p, hp, hport⟩, by rw [← htarget, htarget', hnumber]⟩
  · rintro ⟨⟨p, hp, rfl⟩, rfl⟩
    exact ⟨_, rfl, servicePort p, List.mem_map_of_mem hp, at?_servicePort p⟩

/-- The service of a workload asks for all labels of its pod. -/
theorem selects_iff {v : Workload} :
    Selects (service w) (pod v) ↔ ∀ e ∈ w.labels.toList, e ∈ v.labels.toList := by
  have hinj : Function.Injective fun e : String × String ↦ (e.1, Tree.text e.2) := by
    intro e d h
    obtain ⟨hname, hvalue⟩ := Prod.mk.inj h
    exact Prod.ext hname (Tree.text.inj hvalue)
  have hmem : ∀ (m : Labels) (e : String × String),
      (e.1, Tree.text e.2) ∈ m.toList.map (fun e ↦ (e.1, Tree.text e.2)) ↔ e ∈ m.toList :=
    fun m e ↦ List.mem_map_of_injective hinj
  constructor
  · rintro ⟨wanted, labels, hwanted, hlabels, h⟩ e he
    obtain rfl := Tree.record.inj (Option.some.inj hwanted)
    obtain rfl := Tree.record.inj (Option.some.inj hlabels)
    exact (hmem _ e).mp (h _ ((hmem _ e).mpr he))
  · intro h
    refine ⟨_, _, rfl, rfl, fun field hfield ↦ ?_⟩
    obtain ⟨e, he, rfl⟩ := List.mem_map.mp hfield
    exact (hmem _ e).mpr (h e he)

end Manifest

/-! ## What is applied -/

namespace Cluster

/-- The objects of a topology, in the order in which they are applied. -/
def objects (t : Topology) : List Tree :=
  t.namespaces.values.map Manifest.ofNamespace ++
    t.workloads.flatMap fun w ↦ [Manifest.pod w, Manifest.service w]

/-- Every request that the step can make carries the object. -/
def Carries (step : RequestStep) (object : Tree) : Prop :=
  ∀ r, step.request = .ok r → r.body = some object

theorem carries_applyStep (collection name complaint : String) (object : Tree) :
    Carries (applyStep collection name object complaint) object := by
  intro r hr
  simp only [applyStep, Request.ofName, Request.ofTarget] at hr
  split at hr
  · exact absurd hr (by simp)
  · split at hr
    · exact absurd hr (by simp)
    · split at hr
      · obtain rfl := Except.ok.inj hr
        rfl
      · exact absurd hr (by simp)

theorem carries_applySteps (t : Topology) : List.Forall₂ Carries (applySteps t) (objects t) := by
  refine List.rel_append ?_ (List.rel_flatMap (List.forall₂_same.mpr fun w _ ↦ rfl) ?_)
  · rw [List.forall₂_map_left_iff, List.forall₂_map_right_iff, List.forall₂_same]
    exact fun ns _ ↦ carries_applyStep _ _ _ _
  · rintro w _ rfl
    exact .cons (carries_applyStep _ _ _ _) (.cons (carries_applyStep _ _ _ _) .nil)

/-- If nothing is refused, every object is sent. -/
theorem bodies_of_sendAll {steps : List RequestStep} {objects : List Tree}
    (hsteps : List.Forall₂ Carries steps objects) {accepts : Nat → Bool} {sent : Nat}
    {requests : List Request} (h : sendAll accepts sent steps = (requests, .ok ())) :
    requests.filterMap (·.body) = objects := by
  induction hsteps generalizing sent requests with
  | nil =>
    obtain ⟨rfl, -⟩ := Prod.mk.inj h
    rfl
  | @cons step object steps objects hstep _ ih =>
    rw [sendAll] at h
    split at h
    · exact absurd (Prod.mk.inj h).2 (by simp)
    · rename_i r hr
      split at h
      · obtain ⟨rfl, hrest⟩ := Prod.mk.inj h
        rw [List.filterMap_cons_some (hstep r hr), ih (Prod.ext rfl hrest)]
      · exact absurd (Prod.mk.inj h).2 (by simp)

theorem mem_objects_iff {t : Topology} {object : Tree} :
    object ∈ objects t ↔ (∃ ns ∈ t.namespaces.values, object = Manifest.ofNamespace ns) ∨
      ∃ w ∈ t.workloads, object = Manifest.pod w ∨ object = Manifest.service w := by
  simp only [objects, List.mem_append, List.mem_map, List.mem_flatMap, List.mem_cons,
    List.not_mem_nil, or_false, eq_comm]

theorem pod_mem_objects {t : Topology} {w : Workload} (hw : w ∈ t.workloads) :
    Manifest.pod w ∈ objects t := mem_objects_iff.mpr (Or.inr ⟨w, hw, Or.inl rfl⟩)

theorem service_mem_objects {t : Topology} {w : Workload} (hw : w ∈ t.workloads) :
    Manifest.service w ∈ objects t := mem_objects_iff.mpr (Or.inr ⟨w, hw, Or.inr rfl⟩)

/-- The kind of an object tells what it was made from. -/
theorem exists_workload_of_kind {t : Topology} {object : Tree} (h : object ∈ objects t) :
    (object.at? ["kind"] = some (.text "Pod") → ∃ w ∈ t.workloads, object = Manifest.pod w) ∧
      (object.at? ["kind"] = some (.text "Service") →
        ∃ w ∈ t.workloads, object = Manifest.service w) := by
  have hkinds : ∀ k l : String, k ≠ l → some (Tree.text k) ≠ some (Tree.text l) :=
    fun k l hne heq ↦ hne (Tree.text.inj (Option.some.inj heq))
  rcases mem_objects_iff.mp h with ⟨ns, -, rfl⟩ | ⟨w, hw, rfl | rfl⟩
  · exact ⟨fun hkind ↦ absurd hkind (hkinds "Namespace" "Pod" (by decide)),
      fun hkind ↦ absurd hkind (hkinds "Namespace" "Service" (by decide))⟩
  · exact ⟨fun _ ↦ ⟨w, hw, rfl⟩,
      fun hkind ↦ absurd hkind (hkinds "Pod" "Service" (by decide))⟩
  · exact ⟨fun hkind ↦ absurd hkind (hkinds "Service" "Pod" (by decide)),
      fun _ ↦ ⟨w, hw, rfl⟩⟩

/-- Within a namespace, the name of a service belongs to one workload. -/
theorem eq_of_serviceName_eq {t : Topology} (ht : t.Keyed) {v w : Workload}
    (hv : v ∈ t.workloads) (hw : w ∈ t.workloads) (hns : v.key.ns = w.key.ns)
    (hname : serviceName v = serviceName w) : v = w := by
  refine ht.eq_of_key_eq hv hw ?_
  have hpods : v.key.name = w.key.name := by
    have hchars := congrArg String.toList hname
    exact String.toList_inj.mp (by simpa [serviceName, toString, hns] using hchars)
  calc v.key = ⟨v.key.ns, v.key.name⟩ := rfl
    _ = w.key := by rw [hns, hpods]

end Cluster

/-! ## Jobs -/

namespace JobBuilder

/-- Expected outcomes change nothing else about jobs. -/
theorem build_eq_ok {b : JobBuilder} {t : Topology} {config : ProbeConfig}
    {expected : Option Matrix} {js : Jobs} (h : b.build t config expected = .ok js) :
    ∃ js', b.enumerate t config = .ok js' ∧
      List.Forall₂ (fun j' j ↦ ∃ o, j = { j' with expected := o }) js'.valid js.valid := by
  obtain ⟨js', henumerate, h⟩ := bind_eq_ok_iff.mp h
  refine ⟨js', henumerate, ?_⟩
  cases expected with
  | none =>
    obtain rfl := Except.ok.inj h
    exact List.forall₂_same.mpr fun j _ ↦ ⟨j.expected, rfl⟩
  | some m =>
    obtain ⟨valid, hvalid, hjs⟩ := bind_eq_ok_iff.mp h
    obtain rfl := Except.ok.inj hjs
    refine (mapM_eq_ok_iff.mp hvalid).imp fun j' j hj ↦ ?_
    rw [expect] at hj
    split at hj
    · exact ⟨_, (Except.ok.inj hj).symm⟩
    · exact absurd hj (by simp)

end JobBuilder

/-! ## The resources serve the probes -/

/-- A pod and a service are what a job connects to. -/
structure Job.ServedBy (j : Job) (objects : List Tree) (b : JobBuilder) (mode : ProbeMode)
    (pod service : Tree) (name : String) : Prop where
  pod_mem : pod ∈ objects
  is_pod : Manifest.Is pod "Pod" j.destination.key.name j.destination.key.ns
  labels : pod.at? ["metadata", "labels"] = some (Encode.labels j.destination.labels)
  podLists : Manifest.PodLists pod j.port
  service_mem : service ∈ objects
  is_service : Manifest.Is service "Service" name j.destination.key.ns
  serviceLists : Manifest.ServiceLists service j.port (some (.int j.port.number.toNat))
  selects : Manifest.Selects service pod
  /-- There is no other service of this name in the namespace. -/
  unique : ∀ other ∈ objects, Manifest.Is other "Service" name j.destination.key.ns →
    other = service
  host : mode = .serviceName → j.host = s!"{name}.{j.destination.key.ns}.svc.{b.clusterDomain}"

theorem JobBuilder.Makes.servedBy {b : JobBuilder} {t : Topology} (ht : t.Keyed) {mode : ProbeMode}
    {pair : Workload × Workload} (hpair : pair ∈ t.pairs) {p : ContainerPort}
    (hp : p ∈ pair.2.ports) {j : Job} (h : b.Makes mode pair p j) :
    j.ServedBy (Cluster.objects t) b mode (Manifest.pod pair.2) (Manifest.service pair.2)
      (serviceName pair.2) := by
  have hw : pair.2 ∈ t.workloads := (JobBuilder.mem_pairs_iff.mp hpair).2
  have hdestination := h.destination
  constructor
  case pod_mem => exact Cluster.pod_mem_objects hw
  case is_pod => rw [hdestination]; exact Manifest.is_pod pair.2
  case labels => rw [hdestination]; exact Manifest.labels_pod pair.2
  case podLists => rw [h.port]; exact Manifest.podLists_pod hp
  case service_mem => exact Cluster.service_mem_objects hw
  case is_service => rw [hdestination]; exact Manifest.is_service pair.2
  case serviceLists =>
    rw [h.port, Manifest.serviceLists_service_iff]
    exact ⟨⟨p, hp, rfl⟩, rfl⟩
  case selects => exact Manifest.selects_iff.mpr fun _ he ↦ he
  case unique =>
    intro other hother his
    obtain ⟨v, hv, rfl⟩ := (Cluster.exists_workload_of_kind hother).2 his.kind
    have hname : serviceName v = serviceName pair.2 :=
      Tree.text.inj (Option.some.inj ((Manifest.is_service v).name.symm.trans his.name))
    have hns : v.key.ns = pair.2.key.ns := by
      have heq := Tree.text.inj (Option.some.inj ((Manifest.is_service v).ns.symm.trans his.ns))
      rwa [hdestination] at heq
    rw [Cluster.eq_of_serviceName_eq ht hv hw hns hname]
  case host =>
    rintro rfl
    have hhost := h.host
    rw [hdestination]
    exact (Except.ok.inj hhost).symm

/-- **The resources serve exactly what is probed.** Once all objects of a topology are applied,
every job connects to a service that leads to the pod it is about, on a port that this pod lists. If
all ports are probed, each port that a service lists is probed from everywhere. The service of a
conventional model selects one pod of its namespace only. -/
theorem apply_serves_jobs {t : Topology} (ht : t.Built) {b : JobBuilder} {config : ProbeConfig}
    {expected : Option Matrix} {js : Jobs} (hjs : b.build t config expected = .ok js)
    {accepts : Nat → Bool} {requests : List Request}
    (happly : sendAll accepts 0 (Cluster.applySteps t) = (requests, .ok ())) :
    (∀ j ∈ js.valid, ∃ pod service name,
        j.ServedBy (requests.filterMap (·.body)) b config.mode pod service name) ∧
      (config.ports = .all → ∀ service ∈ requests.filterMap (·.body), ∀ name ns,
        Manifest.Is service "Service" name ns → ∃ w ∈ t.workloads, service = Manifest.service w ∧
          ∀ port target, Manifest.ServiceLists service port target → ∀ source ∈ t.workloads,
            ∃ j ∈ js.valid, j.flow = ⟨source.key, w.key, port⟩) ∧
      ∀ namespaces pods ports, t = .conventional namespaces pods ports →
        ∀ service ∈ requests.filterMap (·.body), ∀ pod ∈ requests.filterMap (·.body),
          ∀ name podName ns, Manifest.Is service "Service" name ns →
            Manifest.Is pod "Pod" podName ns → Manifest.Selects service pod →
              ∃ w ∈ t.workloads, service = Manifest.service w ∧ pod = Manifest.pod w := by
  rw [Cluster.bodies_of_sendAll (Cluster.carries_applySteps t) happly]
  obtain ⟨js', henumerate, hexpected⟩ := JobBuilder.build_eq_ok hjs
  obtain ⟨hvalid, -⟩ := JobBuilder.enumerate_eq_ok henumerate
  refine ⟨fun j hj ↦ ?_, fun hports service hservice name ns his ↦ ?_, ?_⟩
  · obtain ⟨j', hj', o, rfl⟩ := exists_of_forall₂ hexpected hj
    obtain ⟨e, he, hmakes⟩ := exists_of_forall₂ hvalid hj'
    obtain ⟨pair, hpair, hask⟩ := List.mem_flatMap.mp he
    obtain ⟨p, hp, rfl⟩ := List.mem_map.mp hask
    have hserved := hmakes.servedBy ht.keyed hpair (config.mem_ports_of_mem_asked hp)
    exact ⟨_, _, _, { hserved with }⟩
  · obtain ⟨w, hw, rfl⟩ := (Cluster.exists_workload_of_kind hservice).2 his.kind
    refine ⟨w, hw, rfl, fun port target hlists source hsource ↦ ?_⟩
    obtain ⟨⟨p, hp, rfl⟩, -⟩ := Manifest.serviceLists_service_iff.mp hlists
    have hflow : (⟨source.key, w.key, p.servicePort⟩ : Flow) ∈ config.flows t := by
      refine config.mem_flows_iff.mpr ⟨source, hsource, w, hw, p.servicePort, ?_, rfl⟩
      rw [config.probed_eq_map_asked, ProbeConfig.asked, hports]
      exact List.mem_map_of_mem hp
    have hflows : js.valid.map Job.flow = js'.valid.map Job.flow :=
      map_eq_of_forall₂ (hexpected.imp fun j' j hj ↦ by
        obtain ⟨o, rfl⟩ := hj
        rfl)
    rw [← JobBuilder.flows_eq_of_enumerate henumerate, ← hflows] at hflow
    exact List.mem_map.mp hflow
  · rintro namespaces pods ports rfl service hservice pod hpod name podName ns hs hp hselects
    obtain ⟨v, hv, rfl⟩ := (Cluster.exists_workload_of_kind hservice).2 hs.kind
    obtain ⟨w, hw, rfl⟩ := (Cluster.exists_workload_of_kind hpod).1 hp.kind
    -- both workloads have one label, and it carries their name
    have hlabel := Manifest.selects_iff.mp hselects ("pod", v.key.name) (by
      rw [Topology.labels_conventional hv]
      exact List.mem_singleton_self _)
    rw [Topology.labels_conventional hw, List.mem_singleton] at hlabel
    have hpods : v.key.name = w.key.name := (Prod.mk.inj hlabel).2
    have hnamespaces : v.key.ns = w.key.ns := by
      have hvns := Tree.text.inj (Option.some.inj ((Manifest.is_service v).ns.symm.trans hs.ns))
      have hwns := Tree.text.inj (Option.some.inj ((Manifest.is_pod w).ns.symm.trans hp.ns))
      rw [hvns, hwns]
    have hkey : v.key = w.key := by
      calc v.key = ⟨v.key.ns, v.key.name⟩ := rfl
        _ = w.key := by rw [hnamespaces, hpods]
    obtain rfl := ht.keyed.eq_of_key_eq hv hw hkey
    exact ⟨v, hv, rfl, rfl⟩

/-- The two pods of `pair` are probed on their services. -/
theorem apply_serves_jobs_pair :
    ∃ js requests, someBuilder.build .pair ⟨.all, .serviceName⟩ none = .ok js ∧
      sendAll (fun _ ↦ true) 0 (Cluster.applySteps .pair) = (requests, .ok ()) ∧
      js.valid.length = 4 ∧
      (∀ j ∈ js.valid, ∃ pod service name,
        j.ServedBy (requests.filterMap (·.body)) someBuilder .serviceName pod service name) ∧
      Manifest.service (Topology.pairPod "b") ∈ requests.filterMap (·.body) := by
  have hanswer : (sendAll (fun _ ↦ true) 0 (Cluster.applySteps .pair)).2 = .ok () := by
    decide +kernel
  have hsplit : ∀ p : List Request × Except String Unit, p.2 = .ok () → ∃ requests,
      p = (requests, .ok ()) := fun p h ↦ ⟨p.1, Prod.ext rfl h⟩
  obtain ⟨requests, happly⟩ := hsplit _ hanswer
  have hcount : (someBuilder.build .pair ⟨.all, .serviceName⟩ none).map (·.valid.length) =
      .ok 4 := by decide +kernel
  have hpod : Topology.pairPod "b" ∈ Topology.pair.workloads := by decide +kernel
  cases hbuild : someBuilder.build .pair ⟨.all, .serviceName⟩ none with
  | error e =>
    rw [hbuild] at hcount
    exact absurd hcount (by simp [Except.map])
  | ok js =>
    rw [hbuild] at hcount
    obtain ⟨hserved, -, -⟩ := apply_serves_jobs (.conventional ["x"] ["a", "b"] [⟨.tcp, 80⟩]) hbuild
      happly
    refine ⟨js, requests, rfl, happly, Except.ok.inj hcount, hserved, ?_⟩
    rw [Cluster.bodies_of_sendAll (Cluster.carries_applySteps .pair) happly]
    exact Cluster.service_mem_objects hpod

end Reachability
