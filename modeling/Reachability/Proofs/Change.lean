import Reachability.Proofs.Topology

/-!
# Changes to a topology

A topology is changed by requests, each of which is granted or refused. A refused request leaves the
topology as it is (`Topology.ask`), so a history is any list of requests, and the topologies that a
history can lead to are those that can be built (`Beginning.after_built`).

What is promised of such a topology is `Topology.Consistent`: the two nested maps, the list of all
workloads and the look-ups by key are four views of one and the same thing. A request is refused
exactly if granting it would break that, by storing two things under one name or by storing
something where there is nothing to store it in.
-/

namespace Reachability

/-! ## Requests -/

/-- A change to ask for. -/
inductive Change where
  | addNamespace (name : String) (labels : Labels)
  | addWorkload (w : Workload)
  | setAddress (key : WorkloadKey) (a : Address)

namespace Topology

/-- The topology with a change, or the reason for which there is none. -/
def change (t : Topology) : Change → Except Error Topology
  | .addNamespace name labels => t.addNamespace name labels
  | .addWorkload w => t.addWorkload w
  | .setAddress key a => t.setAddress key a

/-- Asks for a change. Gives the topology that there is afterwards, and the answer. -/
def ask (t : Topology) (c : Change) : Topology × Except Error Unit :=
  match t.change c with
  | .ok t' => (t', .ok ())
  | .error e => (t, .error e)

/-- The topology after some requests, some of which may have been refused. -/
def after (t : Topology) (changes : List Change) : Topology :=
  changes.foldl (fun t c ↦ (t.ask c).1) t

/-- The change would store two things under one name, or something in a place that does not
exist. -/
def Forbids (t : Topology) (e : Error) : Change → Prop
  | .addNamespace name _ => e = .duplicateNamespace name ∧ name ∈ t.namespaces.keys
  | .addWorkload w =>
    e = .unknownNamespace w.key.ns ∧ w.key.ns ∉ t.namespaces.keys ∨
      e = .duplicateWorkload w.key ∧ ∃ v ∈ t.workloads, v.key = w.key
  | .setAddress key _ => e = .unknownWorkload key ∧ ∀ v ∈ t.workloads, v.key ≠ key

theorem ask_eq_error_iff {t t' : Topology} {c : Change} {e : Error} :
    t.ask c = (t', .error e) ↔ t.change c = .error e ∧ t' = t := by
  rw [ask]
  cases t.change c with
  | ok u => simp
  | error d => simp [and_comm, eq_comm]

theorem ask_eq_ok_iff {t t' : Topology} {c : Change} :
    t.ask c = (t', .ok ()) ↔ t.change c = .ok t' := by
  rw [ask]
  cases t.change c with
  | ok u => simp
  | error d => simp

/-! ## Refusals -/

section Refusals

variable {t : Topology} {e : Error}

theorem exists_key_eq_iff (ht : t.Keyed) {key : WorkloadKey} :
    (∃ v ∈ t.workloads, v.key = key) ↔ (t.workload? key).isSome := by
  rw [Option.isSome_iff_exists]
  constructor
  · rintro ⟨v, hv, rfl⟩
    exact ⟨v, ht.mem_workloads_iff.mp hv⟩
  · rintro ⟨v, hv⟩
    exact ⟨v, mem_workloads_iff_exists.mpr ⟨key, hv⟩, ht.key_eq hv⟩

theorem addNamespace_eq_error_iff {name : String} {labels : Labels} :
    t.addNamespace name labels = .error e ↔
      e = .duplicateNamespace name ∧ name ∈ t.namespaces.keys := by
  rw [addNamespace, SortedMap.mem_keys_iff, SortedMap.contains]
  cases t.namespaces.get? name with
  | none => simp
  | some ns => simp [eq_comm]

theorem addWorkload_eq_error_iff (ht : t.Keyed) {w : Workload} :
    t.addWorkload w = .error e ↔
      e = .unknownNamespace w.key.ns ∧ w.key.ns ∉ t.namespaces.keys ∨
        e = .duplicateWorkload w.key ∧ ∃ v ∈ t.workloads, v.key = w.key := by
  rw [exists_key_eq_iff ht, SortedMap.mem_keys_iff, addWorkload, workload?]
  cases t.namespaces.get? w.key.ns with
  | none => simp [eq_comm]
  | some ns =>
    by_cases hpod : (ns.workloads.get? w.key.name).isSome
    · simp [SortedMap.contains, hpod, eq_comm]
    · simp [SortedMap.contains, hpod]

theorem setAddress_eq_error_iff (ht : t.Keyed) {key : WorkloadKey} {a : Address} :
    t.setAddress key a = .error e ↔
      e = .unknownWorkload key ∧ ∀ v ∈ t.workloads, v.key ≠ key := by
  have hnone : (∀ v ∈ t.workloads, v.key ≠ key) ↔ t.workload? key = none := by
    rw [← Option.not_isSome_iff_eq_none, ← exists_key_eq_iff ht]
    push Not
    rfl
  rw [hnone, setAddress, workload?]
  cases t.namespaces.get? key.ns with
  | none => simp [eq_comm]
  | some ns =>
    cases hpod : ns.workloads.get? key.name with
    | none => simp [hpod, eq_comm]
    | some v => simp [hpod]

theorem change_eq_error_iff (ht : t.Keyed) {c : Change} :
    t.change c = .error e ↔ t.Forbids e c := by
  cases c with
  | addNamespace name labels => exact addNamespace_eq_error_iff
  | addWorkload w => exact addWorkload_eq_error_iff ht
  | setAddress key a => exact setAddress_eq_error_iff ht

end Refusals

/-! ## Histories -/

/-- One request, granted or not, leads to a topology that can be built. -/
theorem Built.ask {t : Topology} (h : t.Built) (c : Change) : (t.ask c).1.Built := by
  rw [Topology.ask]
  cases hchange : t.change c with
  | error e => exact h
  | ok t' =>
    cases c with
    | addNamespace name labels => exact h.addNamespace hchange
    | addWorkload w => exact h.addWorkload hchange
    | setAddress key a => exact h.setAddress hchange

theorem Built.after {t : Topology} (h : t.Built) (changes : List Change) :
    (t.after changes).Built := by
  induction changes generalizing t with
  | nil => exact h
  | cons c changes ih => exact ih (h.ask c)

/-! ## The views of a topology -/

/-- The maps of a topology, the list of its workloads and the look-ups by key agree. -/
structure Consistent (t : Topology) : Prop where
  /-- Namespaces and workloads are stored under the names that they carry. -/
  keyed : t.Keyed
  /-- Workloads are listed in strictly increasing order of their keys, so each of them once. -/
  sorted : t.workloads.Pairwise fun v w ↦ compare v.key w.key = .lt
  /-- What is listed is what is stored. -/
  mem_workloads_iff : ∀ w, w ∈ t.workloads ↔
    ∃ name ns pod, t.namespaces.get? name = some ns ∧ ns.workloads.get? pod = some w
  /-- A key finds the listed workload that carries it. -/
  workload?_iff : ∀ key w, t.workload? key = some w ↔ w ∈ t.workloads ∧ w.key = key
  /-- An endpoint is found in the same way, and has the labels of the namespace. -/
  endpoint_iff : ∀ key e, t.endpoint key = .ok e ↔
    e.workload ∈ t.workloads ∧ e.workload.key = key ∧
      (t.namespaces.get? key.ns).map Namespace.labels = some e.namespaceLabels

theorem Keyed.consistent {t : Topology} (h : t.Keyed) : t.Consistent where
  keyed := h
  sorted := h.sorted_workloads
  mem_workloads_iff w := by
    rw [mem_workloads_iff_exists]
    constructor
    · rintro ⟨key, hw⟩
      obtain ⟨ns, hns, hpod⟩ := workload?_eq_some_iff.mp hw
      exact ⟨key.ns, ns, key.name, hns, hpod⟩
    · rintro ⟨name, ns, pod, hns, hpod⟩
      exact ⟨⟨name, pod⟩, workload?_eq_some_iff.mpr ⟨ns, hns, hpod⟩⟩
  workload?_iff key w := by
    constructor
    · exact fun hw ↦ ⟨mem_workloads_iff_exists.mpr ⟨key, hw⟩, h.key_eq hw⟩
    · rintro ⟨hw, rfl⟩
      exact h.mem_workloads_iff.mp hw
  endpoint_iff key e := by
    rw [endpoint_eq_ok_iff]
    constructor
    · rintro ⟨ns, hns, hpod, hlabels⟩
      have hw := workload?_eq_some_iff.mpr ⟨ns, hns, hpod⟩
      exact ⟨mem_workloads_iff_exists.mpr ⟨key, hw⟩, h.key_eq hw, by rw [hns, hlabels]; rfl⟩
    · rintro ⟨hw, rfl, hlabels⟩
      obtain ⟨ns, hns, hpod⟩ := workload?_eq_some_iff.mp (h.mem_workloads_iff.mp hw)
      rw [hns, Option.map_some, Option.some.injEq] at hlabels
      exact ⟨ns, hns, hpod, hlabels.symm⟩

/-! ## Assigning an address -/

/-- Two topologies with the same namespaces and labels, and the same workloads but for the address
of the one with a key. -/
structure Readdressed (t t' : Topology) (key : WorkloadKey) (a : Address) : Prop where
  namespaces : ∀ name, (t'.namespaces.get? name).map (fun ns ↦ (ns.name, ns.labels)) =
    (t.namespaces.get? name).map fun ns ↦ (ns.name, ns.labels)
  self : t'.workload? key = (t.workload? key).map fun w ↦ { w with address := some a }
  others : ∀ k, k ≠ key → t'.workload? k = t.workload? k

theorem readdressed_setAddress {t t' : Topology} {key : WorkloadKey} {a : Address}
    (h : t.setAddress key a = .ok t') : t.Readdressed t' key a := by
  obtain ⟨ns, w, hns, hw, rfl⟩ := setAddress_eq_ok h
  refine ⟨fun name ↦ ?_, ?_, fun k hk ↦ ?_⟩
  · by_cases hname : name = key.ns
    · rw [hname, SortedMap.get?_insert_self, hns]
      rfl
    · rw [SortedMap.get?_insert_of_ne _ hname]
  · rw [workload?, SortedMap.get?_insert_self, workload?, hns]
    simp only [Option.bind_eq_bind, Option.bind_some, SortedMap.get?_insert_self, hw,
      Option.map_some]
  · rw [workload?, workload?]
    by_cases hsame : k.ns = key.ns
    · -- within the namespace that is written, the name tells the workloads apart
      have hname : k.name ≠ key.name := fun hname ↦ hk (by cases k; cases key; simp_all)
      rw [hsame, SortedMap.get?_insert_self, hns]
      exact SortedMap.get?_insert_of_ne _ hname _
    · rw [SortedMap.get?_insert_of_ne _ hsame]

/-! ## Missing addresses -/

theorem requireAddresses_eq_ok_iff {t : Topology} :
    t.requireAddresses = .ok () ↔ ∀ w ∈ t.workloads, w.address.isSome := by
  rw [requireAddresses]
  cases hfind : t.workloads.find? (·.address.isNone) with
  | none => simpa [List.find?_eq_none, Option.isSome_iff_ne_none] using hfind
  | some w =>
    have hmem := List.mem_of_find?_eq_some hfind
    have hnone := List.find?_some hfind
    simp only [reduceCtorEq, false_iff]
    intro h
    have hsome := h w hmem
    rw [Option.isNone_iff_eq_none.mp hnone] at hsome
    exact absurd hsome (by simp)

theorem requireAddresses_eq_error_iff {t : Topology} {e : Error} :
    t.requireAddresses = .error e ↔ ∃ before w after, t.workloads = before ++ w :: after ∧
      (∀ v ∈ before, v.address.isSome) ∧ w.address = none ∧ e = .missingAddress w.key := by
  rw [requireAddresses]
  cases hfind : t.workloads.find? (·.address.isNone) with
  | none =>
    simp only [reduceCtorEq, false_iff]
    rintro ⟨before, w, after, hsplit, -, hnone, -⟩
    have hw : w ∈ t.workloads := by simp [hsplit]
    exact absurd (List.find?_eq_none.mp hfind w hw) (by simp [hnone])
  | some w =>
    obtain ⟨hnone, before, after, hsplit, hbefore⟩ := List.find?_eq_some_iff_append.mp hfind
    rw [Except.error.injEq]
    constructor
    · rintro rfl
      exact ⟨before, w, after, hsplit, fun v hv ↦ by simpa using hbefore v hv,
        Option.isNone_iff_eq_none.mp hnone, rfl⟩
    · -- the first workload without an address is the one that is found
      rintro ⟨before', w', after', hsplit', hbefore', hnone', rfl⟩
      have hfind' : t.workloads.find? (·.address.isNone) = some w' := by
        rw [hsplit', List.find?_append, List.find?_eq_none.mpr fun v hv ↦ by
          simp [Option.isSome_iff_ne_none.mp (hbefore' v hv)]]
        simp [hnone']
      rw [Option.some.inj (hfind.symm.trans hfind')]

end Topology

/-! ## What requests keep -/

/-- A topology to begin with. -/
inductive Beginning where
  | empty
  | conventional (namespaces pods : List String) (ports : List ServicePort)

namespace Beginning

/-- The topology of a beginning. -/
def topology : Beginning → Topology
  | empty => .empty
  | conventional namespaces pods ports => .conventional namespaces pods ports

/-- The topology after requests, from a beginning. -/
def after (b : Beginning) (changes : List Change) : Topology := b.topology.after changes

theorem after_built (b : Beginning) (changes : List Change) : (b.after changes).Built := by
  refine Topology.Built.after ?_ changes
  cases b with
  | empty => exact .empty
  | conventional namespaces pods ports => exact .conventional namespaces pods ports

/-- **Requests keep a topology consistent, and a refused one changes nothing.** Whatever has been
asked for before, a request is either forbidden, in which case the topology stays and the answer
says why, or it is granted. Granting an address changes that address only. -/
theorem after_consistent (b : Beginning) (changes : List Change) {t : Topology}
    (ht : t = b.after changes) :
    t.Consistent ∧
      (∀ c e t', t.ask c = (t', .error e) ↔ t.Forbids e c ∧ t' = t) ∧
      (∀ c, (∃ e, t.Forbids e c) ∨ ∃ t', t.ask c = (t', .ok ()) ∧ t'.Consistent) ∧
      (∀ key a t', t.ask (.setAddress key a) = (t', .ok ()) → t.Readdressed t' key a) ∧
      (t.requireAddresses = .ok () ↔ ∀ w ∈ t.workloads, w.address.isSome) ∧
      ∀ e, t.requireAddresses = .error e ↔
        ∃ before w after, t.workloads = before ++ w :: after ∧
          (∀ v ∈ before, v.address.isSome) ∧ w.address = none ∧ e = .missingAddress w.key := by
  have hbuilt : t.Built := ht ▸ b.after_built changes
  have hkeyed := hbuilt.keyed
  refine ⟨hkeyed.consistent, fun c e t' ↦ ?_, fun c ↦ ?_, fun key a t' h ↦ ?_,
    Topology.requireAddresses_eq_ok_iff, fun e ↦ Topology.requireAddresses_eq_error_iff⟩
  · rw [Topology.ask_eq_error_iff, Topology.change_eq_error_iff hkeyed]
  · cases hchange : t.change c with
    | error e => exact Or.inl ⟨e, (Topology.change_eq_error_iff hkeyed).mp hchange⟩
    | ok t' =>
      have hask := Topology.ask_eq_ok_iff.mpr hchange
      have hnext : t'.Built := by
        have hstep := hbuilt.ask c
        rwa [hask] at hstep
      exact Or.inr ⟨t', hask, hnext.keyed.consistent⟩
  · exact Topology.readdressed_setAddress (Topology.ask_eq_ok_iff.mp h)

/-- Requests of each kind, of which the second one of each is refused. The labels that are asked for
try to give the namespace another name. -/
def someChanges : List Change :=
  [.addNamespace "y" (SortedMap.ofList [(namespaceNameKey, "z")]), .addNamespace "y" ∅,
    .addWorkload ⟨⟨"y", "c"⟩, ∅, none, []⟩, .addWorkload ⟨⟨"z", "c"⟩, ∅, none, []⟩,
    .setAddress ⟨"x", "a"⟩ (.v4 0x0A000001#32), .setAddress ⟨"z", "c"⟩ (.v4 0x0A000001#32)]

/-- In a model that lists a namespace twice, the pod without an address is found after refused
requests too, and giving it one is a change of that address. -/
theorem after_consistent_someChanges :
    ∃ t, t = (conventional ["x", "x"] ["a"] []).after someChanges ∧ t.Consistent ∧
      t.requireAddresses = .error (.missingAddress ⟨"y", "c"⟩) ∧
      t.ask (.addWorkload ⟨⟨"z", "c"⟩, ∅, none, []⟩) = (t, .error (.unknownNamespace "z")) ∧
      ∃ t', t.ask (.setAddress ⟨"y", "c"⟩ (.v4 0x0A000002#32)) = (t', .ok ()) ∧
        t.Readdressed t' ⟨"y", "c"⟩ (.v4 0x0A000002#32) := by
  obtain ⟨hconsistent, herror, -, haddress, -, hmissing⟩ :=
    after_consistent (conventional ["x", "x"] ["a"] []) someChanges rfl
  refine ⟨_, rfl, hconsistent, ?_, (herror _ _ _).mpr ⟨Or.inl ⟨rfl, by decide +kernel⟩, rfl⟩, _,
    ?_, haddress _ _ _ rfl⟩
  · decide +kernel
  · rfl

end Beginning

end Reachability
