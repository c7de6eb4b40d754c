import Mathlib.Data.List.Nodup
import Reachability.Proofs.Sequence
import Reachability.Proofs.SortedMap
import Reachability.Topology

/-!
# Topologies that can be built

A topology is reached from the empty one or from a conventional one by adding namespaces, adding
workloads and assigning addresses. Everything else in this library relies on one invariant of the
topologies reached in this way: what is stored under a name carries that name (`Topology.Keyed`).

Namespaces and workloads are stored under redundant keys, once in the map and once in the value, so
each operation has to be shown to write the two alike. The name label of a namespace is part of the
invariant, because it is the only way in which a policy document can pick a namespace by its name.
-/

namespace Reachability

theorem WorkloadKey.compare_eq_lt_iff {k l : WorkloadKey} :
    compare k l = .lt ↔ compare k.ns l.ns = .lt ∨ k.ns = l.ns ∧ compare k.name l.name = .lt := by
  have hcompare : compare k l = (compare k.ns l.ns).then (compare k.name l.name) := rfl
  rw [hcompare, Ordering.then_eq_lt, Std.LawfulEqCmp.compare_eq_iff_eq]

/-! ## The invariant -/

/-- A namespace carries the name under which it is stored, among its labels too, and so do its
workloads. -/
structure Namespace.StoredAs (ns : Namespace) (name : String) : Prop where
  name_eq : ns.name = name
  nameLabel : ns.labels.get? namespaceNameKey = some name
  key_eq : ∀ {pod : String} {w : Workload}, ns.workloads.get? pod = some w → w.key = ⟨name, pod⟩

/-- Every namespace of a topology carries the name under which it is stored. -/
def Topology.Keyed (t : Topology) : Prop :=
  ∀ (name : String) (ns : Namespace), t.namespaces.get? name = some ns → ns.StoredAs name

namespace Namespace.StoredAs

theorem new (name : String) (labels : Labels) : (Namespace.new name labels).StoredAs name where
  name_eq := rfl
  nameLabel := by rw [Namespace.new, SortedMap.get?_insert_self]
  key_eq := by simp [Namespace.new]

theorem insertWorkload {ns : Namespace} {name pod : String} {w : Workload} (h : ns.StoredAs name)
    (hw : w.key = ⟨name, pod⟩) :
    Namespace.StoredAs { ns with workloads := ns.workloads.insert pod w } name where
  name_eq := h.name_eq
  nameLabel := h.nameLabel
  key_eq := fun h' ↦ SortedMap.forall_get?_insert
    (P := fun pod w ↦ w.key = ⟨name, pod⟩) (fun _ _ ↦ h.key_eq) hw _ _ h'

theorem populate {ns : Namespace} {name : String} (h : ns.StoredAs name) (pods : List String)
    (ports : List ServicePort) : (Topology.populate ns pods ports).StoredAs name := by
  induction pods generalizing ns with
  | nil => exact h
  | cons pod pods ih =>
    have hstep : StoredAs { ns with
        workloads := ns.workloads.insert pod
          { key := ⟨ns.name, pod⟩
            labels := SortedMap.ofList [("pod", pod)]
            address := none
            containers := ports.map Container.serving } } name :=
      h.insertWorkload (by rw [h.name_eq])
    exact ih hstep

end Namespace.StoredAs

/-! ## Operations -/

namespace Topology

theorem Keyed.empty : Keyed Topology.empty := by
  intro name ns h
  simp [Topology.empty] at h

theorem Keyed.insert {t : Topology} (h : t.Keyed) {name : String} {ns : Namespace}
    (hns : ns.StoredAs name) : Keyed ⟨t.namespaces.insert name ns⟩ :=
  SortedMap.forall_get?_insert h hns

theorem addNamespace_eq_ok {t t' : Topology} {name : String} {labels : Labels}
    (h : t.addNamespace name labels = .ok t') :
    t.namespaces.get? name = none ∧
      t' = ⟨t.namespaces.insert name (Namespace.new name labels)⟩ := by
  rw [addNamespace] at h
  split at h
  · exact absurd h (by simp)
  · rename_i hnew
    refine ⟨?_, (Except.ok.inj h).symm⟩
    rwa [SortedMap.contains, Bool.not_eq_true, Option.isSome_eq_false_iff,
      Option.isNone_iff_eq_none] at hnew

theorem addWorkload_eq_ok {t t' : Topology} {w : Workload} (h : t.addWorkload w = .ok t') :
    ∃ ns, t.namespaces.get? w.key.ns = some ns ∧ ns.workloads.get? w.key.name = none ∧
      t' = ⟨t.namespaces.insert w.key.ns
        { ns with workloads := ns.workloads.insert w.key.name w }⟩ := by
  rw [addWorkload] at h
  split at h
  · exact absurd h (by simp)
  · rename_i ns hns
    split at h
    · exact absurd h (by simp)
    · rename_i hnew
      refine ⟨ns, hns, ?_, (Except.ok.inj h).symm⟩
      rwa [SortedMap.contains, Bool.not_eq_true, Option.isSome_eq_false_iff,
        Option.isNone_iff_eq_none] at hnew

theorem setAddress_eq_ok {t t' : Topology} {key : WorkloadKey} {a : Address}
    (h : t.setAddress key a = .ok t') :
    ∃ ns w, t.namespaces.get? key.ns = some ns ∧ ns.workloads.get? key.name = some w ∧
      t' = ⟨t.namespaces.insert key.ns
        { ns with workloads := ns.workloads.insert key.name { w with address := some a } }⟩ := by
  rw [setAddress] at h
  split at h
  · exact absurd h (by simp)
  · rename_i ns hns
    split at h
    · exact absurd h (by simp)
    · rename_i w hw
      exact ⟨ns, w, hns, hw, (Except.ok.inj h).symm⟩

theorem Keyed.conventional (namespaces pods : List String) (ports : List ServicePort) :
    Keyed (.conventional namespaces pods ports) := by
  rw [Topology.conventional]
  -- a repeated name populates the namespace that is there already
  suffices hfold : ∀ t : Topology, t.Keyed → Keyed (namespaces.foldl (fun t name ↦
      let ns := (t.namespaces.get? name).getD
        (Namespace.new name (SortedMap.ofList [("ns", name)]))
      ⟨t.namespaces.insert name (populate ns pods ports)⟩) t) from hfold _ Keyed.empty
  induction namespaces with
  | nil => exact fun t h ↦ h
  | cons name namespaces ih =>
    intro t h
    rw [List.foldl_cons]
    refine ih _ (h.insert (Namespace.StoredAs.populate ?_ pods ports))
    cases hns : t.namespaces.get? name with
    | none => exact .new name _
    | some ns => exact h name ns hns

/-! ## Reachable topologies -/

/-- The topologies that can be built. -/
inductive Built : Topology → Prop
  | empty : Built .empty
  | conventional (namespaces pods : List String) (ports : List ServicePort) :
      Built (.conventional namespaces pods ports)
  | addNamespace {t t' : Topology} {name : String} {labels : Labels} :
      Built t → t.addNamespace name labels = .ok t' → Built t'
  | addWorkload {t t' : Topology} {w : Workload} :
      Built t → t.addWorkload w = .ok t' → Built t'
  | setAddress {t t' : Topology} {key : WorkloadKey} {a : Address} :
      Built t → t.setAddress key a = .ok t' → Built t'

theorem Built.keyed {t : Topology} (h : t.Built) : t.Keyed := by
  induction h with
  | empty => exact .empty
  | conventional namespaces pods ports => exact .conventional namespaces pods ports
  | addNamespace _ hstep ih =>
    obtain ⟨-, rfl⟩ := addNamespace_eq_ok hstep
    exact ih.insert (.new _ _)
  | addWorkload _ hstep ih =>
    obtain ⟨ns, hns, -, rfl⟩ := addWorkload_eq_ok hstep
    exact ih.insert ((ih _ ns hns).insertWorkload rfl)
  | setAddress _ hstep ih =>
    obtain ⟨ns, w, hns, hw, rfl⟩ := setAddress_eq_ok hstep
    have hkey := (ih _ ns hns).key_eq hw
    exact ih.insert ((ih _ ns hns).insertWorkload hkey)

/-- Assigns several addresses, one after the other. -/
def assign (t : Topology) (addresses : List (WorkloadKey × Address)) : Except Error Topology :=
  addresses.foldlM (fun t e ↦ t.setAddress e.1 e.2) t

theorem assign_cons_eq_ok_iff {t t' : Topology} {e : WorkloadKey × Address}
    {addresses : List (WorkloadKey × Address)} :
    t.assign (e :: addresses) = .ok t' ↔
      ∃ s, t.setAddress e.1 e.2 = .ok s ∧ s.assign addresses = .ok t' := by
  rw [assign, List.foldlM_cons, bind_eq_ok_iff]
  rfl

theorem Built.assign {t t' : Topology} {addresses : List (WorkloadKey × Address)} (h : t.Built)
    (hassign : t.assign addresses = .ok t') : t'.Built := by
  induction addresses generalizing t with
  | nil =>
    obtain rfl := Except.ok.inj hassign
    exact h
  | cons e addresses ih =>
    obtain ⟨s, hset, hrest⟩ := assign_cons_eq_ok_iff.mp hassign
    exact ih (h.setAddress hset) hrest

/-- Two pods of one namespace, which serve a port and have no addresses yet: the topology of the
concrete instances below. -/
def pair : Topology := .conventional ["x"] ["a", "b"] [⟨.tcp, 80⟩]

/-- A pod of `pair`. -/
def pairPod (name : String) : Workload where
  key := ⟨"x", name⟩
  labels := SortedMap.ofList [("pod", name)]
  address := none
  containers := [.serving ⟨.tcp, 80⟩]

/-- `pair` when both pods run. -/
def runningPair : Topology where
  namespaces := SortedMap.ofList [("x",
    { Namespace.new "x" (SortedMap.ofList [("ns", "x")]) with
      workloads := SortedMap.ofList [
        ("a", { pairPod "a" with address := some (.v4 0x0A000001#32) }),
        ("b", { pairPod "b" with address := some (.v4 0x0A000002#32) })] })]

theorem assign_pair : pair.assign [(⟨"x", "a"⟩, .v4 0x0A000001#32),
    (⟨"x", "b"⟩, .v4 0x0A000002#32)] = .ok runningPair := by decide +kernel

theorem built_runningPair : runningPair.Built :=
  Built.assign (.conventional ["x"] ["a", "b"] [⟨.tcp, 80⟩]) assign_pair

/-! ## Looking workloads up -/

variable {t : Topology}

theorem workload?_eq_some_iff {key : WorkloadKey} {w : Workload} :
    t.workload? key = some w ↔
      ∃ ns, t.namespaces.get? key.ns = some ns ∧ ns.workloads.get? key.name = some w := by
  simp [workload?, Option.bind_eq_some_iff]

theorem mem_workloads_iff_exists {w : Workload} :
    w ∈ t.workloads ↔ ∃ key, t.workload? key = some w := by
  simp only [workloads, List.mem_flatMap, SortedMap.mem_values_iff, workload?_eq_some_iff]
  constructor
  · rintro ⟨ns, ⟨name, hns⟩, pod, hw⟩
    exact ⟨⟨name, pod⟩, ns, hns, hw⟩
  · rintro ⟨key, ns, hns, hw⟩
    exact ⟨ns, ⟨key.ns, hns⟩, key.name, hw⟩

/-- A workload is found under the key that it carries, and under no other. -/
theorem Keyed.key_eq (h : t.Keyed) {key : WorkloadKey} {w : Workload}
    (hw : t.workload? key = some w) : w.key = key := by
  obtain ⟨ns, hns, hw⟩ := workload?_eq_some_iff.mp hw
  exact (h _ ns hns).key_eq hw

theorem Keyed.mem_workloads_iff (h : t.Keyed) {w : Workload} :
    w ∈ t.workloads ↔ t.workload? w.key = some w := by
  rw [mem_workloads_iff_exists]
  constructor
  · rintro ⟨key, hw⟩
    rwa [h.key_eq hw]
  · exact fun hw ↦ ⟨w.key, hw⟩

/-- A key belongs to one workload at most. -/
theorem Keyed.eq_of_key_eq (h : t.Keyed) {v w : Workload} (hv : v ∈ t.workloads)
    (hw : w ∈ t.workloads) (heq : v.key = w.key) : v = w := by
  rw [h.mem_workloads_iff] at hv hw
  rw [heq, hw] at hv
  exact (Option.some.inj hv).symm

/-- Workloads are listed in the order of their keys. -/
theorem Keyed.sorted_workloads (h : t.Keyed) :
    t.workloads.Pairwise fun v w ↦ compare v.key w.key = .lt := by
  rw [workloads, SortedMap.values, List.flatMap_map, List.pairwise_flatMap]
  constructor
  · intro e he
    have hstored := h e.1 e.2 (SortedMap.mem_toList_iff.mp he)
    rw [SortedMap.values, List.pairwise_map]
    refine e.2.workloads.sorted.imp_of_mem fun {a b} ha hb hlt ↦ ?_
    rw [hstored.key_eq (SortedMap.mem_toList_iff.mp ha),
      hstored.key_eq (SortedMap.mem_toList_iff.mp hb), WorkloadKey.compare_eq_lt_iff]
    exact Or.inr ⟨rfl, hlt⟩
  · have hns : ∀ e ∈ t.namespaces.toList, ∀ w ∈ e.2.workloads.values, w.key.ns = e.1 := by
      intro e he w hw
      obtain ⟨pod, hpod⟩ := SortedMap.mem_values_iff.mp hw
      rw [(h e.1 e.2 (SortedMap.mem_toList_iff.mp he)).key_eq hpod]
    refine t.namespaces.sorted.imp_of_mem fun {a b} ha hb hlt v hv w hw ↦ ?_
    rw [WorkloadKey.compare_eq_lt_iff, hns a ha v hv, hns b hb w hw]
    exact Or.inl hlt

theorem Keyed.nodup_workloads (h : t.Keyed) : t.workloads.Nodup := by
  refine h.sorted_workloads.imp fun {v w} hlt heq ↦ ?_
  simp [heq] at hlt

/-- Namespaces carry the names by which they are listed. -/
theorem Keyed.map_name_namespaces (h : t.Keyed) :
    t.namespaces.values.map (·.name) = t.namespaces.keys := by
  rw [SortedMap.values, SortedMap.keys, List.map_map]
  exact List.map_congr_left fun e he ↦ (h e.1 e.2 (SortedMap.mem_toList_iff.mp he)).name_eq

/-- A workload is in a namespace of the topology. -/
theorem Keyed.exists_namespace (h : t.Keyed) {w : Workload} (hw : w ∈ t.workloads) :
    ∃ n ∈ t.namespaces.values, n.name = w.key.ns := by
  obtain ⟨n, hn, -⟩ := workload?_eq_some_iff.mp (h.mem_workloads_iff.mp hw)
  exact ⟨n, SortedMap.mem_values_iff.mpr ⟨w.key.ns, hn⟩, (h _ n hn).name_eq⟩

/-- An endpoint is a workload with the labels of the namespace that it is in. -/
theorem endpoint_eq_ok_iff {key : WorkloadKey} {e : Endpoint} :
    t.endpoint key = .ok e ↔
      ∃ ns, t.namespaces.get? key.ns = some ns ∧ ns.workloads.get? key.name = some e.workload ∧
        e.namespaceLabels = ns.labels := by
  rw [endpoint]
  constructor
  · intro h
    split at h
    · exact absurd h (by simp)
    · rename_i ns hns
      split at h
      · exact absurd h (by simp)
      · rename_i w hw
        obtain rfl := Except.ok.inj h
        exact ⟨ns, hns, hw, rfl⟩
  · rintro ⟨ns, hns, hw, hlabels⟩
    rw [hns]
    simp only [hw, ← hlabels]

theorem Keyed.endpoint_eq_ok (h : t.Keyed) {w : Workload} (hw : w ∈ t.workloads) :
    ∃ labels, t.endpoint w.key = .ok ⟨w, labels⟩ ∧
      labels.get? namespaceNameKey = some w.key.ns := by
  obtain ⟨ns, hns, hpod⟩ := workload?_eq_some_iff.mp (h.mem_workloads_iff.mp hw)
  exact ⟨ns.labels, endpoint_eq_ok_iff.mpr ⟨ns, hns, hpod, rfl⟩, (h _ ns hns).nameLabel⟩

theorem Keyed.mem_workloads_of_endpoint (h : t.Keyed) {key : WorkloadKey} {e : Endpoint}
    (he : t.endpoint key = .ok e) : e.workload ∈ t.workloads ∧ e.workload.key = key := by
  obtain ⟨ns, hns, hpod, -⟩ := endpoint_eq_ok_iff.mp he
  have hw : t.workload? key = some e.workload := workload?_eq_some_iff.mpr ⟨ns, hns, hpod⟩
  exact ⟨mem_workloads_iff_exists.mpr ⟨key, hw⟩, h.key_eq hw⟩

/-- The labels of an endpoint name the namespace of its workload. -/
theorem Keyed.nameLabel_of_endpoint (h : t.Keyed) {key : WorkloadKey} {e : Endpoint}
    (he : t.endpoint key = .ok e) :
    e.namespaceLabels.get? namespaceNameKey = some e.workload.key.ns := by
  obtain ⟨ns, hns, -, hlabels⟩ := endpoint_eq_ok_iff.mp he
  rw [hlabels, (h.mem_workloads_of_endpoint he).2, (h _ ns hns).nameLabel]

/-! ## Conventional models -/

section Conventional

/-- The workloads of a namespace have a property. -/
def Houses (P : Workload → Prop) (ns : Namespace) : Prop :=
  ∀ pod w, ns.workloads.get? pod = some w → P w

variable {P : Workload → Prop} {ports : List ServicePort}
  (h : ∀ ns pod, P ⟨⟨ns, pod⟩, SortedMap.ofList [("pod", pod)], none, ports.map Container.serving⟩)
include h

theorem houses_populate {ns : Namespace} (hns : Houses P ns) (pods : List String) :
    Houses P (populate ns pods ports) := by
  induction pods generalizing ns with
  | nil => exact hns
  | cons pod pods ih =>
    have hstep : Houses P { ns with
        workloads := ns.workloads.insert pod
          { key := ⟨ns.name, pod⟩
            labels := SortedMap.ofList [("pod", pod)]
            address := none
            containers := ports.map Container.serving } } :=
      SortedMap.forall_get?_insert hns (h ns.name pod)
    exact ih hstep

/-- What holds of every pod that a conventional model makes holds of all its workloads. -/
theorem forall_workloads_conventional (namespaces pods : List String) :
    ∀ w ∈ (conventional namespaces pods ports).workloads, P w := by
  suffices hfold : ∀ t : Topology, (∀ name ns, t.namespaces.get? name = some ns → Houses P ns) →
      ∀ name ns, (namespaces.foldl (fun t name ↦
        let ns := (t.namespaces.get? name).getD
          (Namespace.new name (SortedMap.ofList [("ns", name)]))
        ⟨t.namespaces.insert name (populate ns pods ports)⟩) t).namespaces.get? name = some ns →
          Houses P ns by
    intro w hw
    obtain ⟨key, hkey⟩ := mem_workloads_iff_exists.mp hw
    obtain ⟨ns, hns, hpod⟩ := workload?_eq_some_iff.mp hkey
    exact hfold .empty (fun name ns hns ↦ absurd hns (by simp [Topology.empty])) _ ns hns _ w hpod
  induction namespaces with
  | nil => exact fun t ht ↦ ht
  | cons name namespaces ih =>
    intro t ht
    rw [List.foldl_cons]
    refine ih _ (SortedMap.forall_get?_insert ht (houses_populate h ?_ pods))
    cases hns : t.namespaces.get? name with
    | none =>
      intro pod w hw
      simp [Namespace.new] at hw
    | some ns => exact ht name ns hns

end Conventional

/-- In a conventional model a pod has the one label that tells it from the others. -/
theorem labels_conventional {namespaces pods : List String} {ports : List ServicePort}
    {w : Workload} (hw : w ∈ (conventional namespaces pods ports).workloads) :
    w.labels.toList = [("pod", w.key.name)] :=
  forall_workloads_conventional (P := fun w ↦ w.labels.toList = [("pod", w.key.name)])
    (fun _ _ ↦ rfl) namespaces pods w hw

end Topology

end Reachability
