import Reachability.Proofs.Resources

/-!
# Applying in order

A topology is applied as a sequence of resources (`Cluster.resources`) in which each resource comes
after those that it needs. What is sent of a sequence does not depend on what the resources are:
however the requests end (`Cluster.Ends`), they are those for a first part of the sequence, and
all of that part but its last resource was accepted. The two together say that whatever a resource
needs was accepted before the resource itself is sent.

An application fails in two ways. A request that is refused is the last one sent. A request that
cannot be made, because the object has no name or its name may not stand in a target, is not sent at
all.
-/

namespace Reachability.Cluster

/-! ## Resources -/

/-- What one request applies. -/
inductive Resource where
  | ns (ns : Namespace)
  | pod (w : Workload)
  | service (w : Workload)

namespace Resource

/-- The step that applies the resource. -/
def step : Resource → RequestStep
  | ns n => namespaceStep n
  | pod w => podStep w
  | service w => serviceStep w

/-- The complaint that names the resource. -/
def complaint : Resource → String
  | ns n => s!"failed to apply namespace {n.name}"
  | pod w => s!"failed to apply pod {w.key}"
  | service w => s!"failed to apply service for {w.key}"

/-- What the resource needs is among those before it: the namespace that it is in, and the pod that
a service is for. -/
def Follows (before : List Resource) : Resource → Prop
  | ns _ => True
  | pod w => ∃ n, ns n ∈ before ∧ n.name = w.key.ns
  | service w => (∃ n, ns n ∈ before ∧ n.name = w.key.ns) ∧ pod w ∈ before

/-- The request is the one for the resource. -/
def Sends (x : Resource) (r : Request) : Prop := x.step.request = .ok r

theorem complaint_step (x : Resource) : x.step.complaint = x.complaint := by cases x <;> rfl

end Resource

/-- The resources of a topology, in the order in which they are applied. -/
def resources (t : Topology) : List Resource :=
  t.namespaces.values.map .ns ++ t.workloads.flatMap fun w ↦ [.pod w, .service w]

theorem applySteps_eq_map (t : Topology) : applySteps t = (resources t).map Resource.step := by
  simp only [applySteps, resources, List.map_append, List.map_map, List.map_flatMap]
  rfl

/-- The element is after all of a list that it is not in. -/
theorem exists_before_of_not_mem {α : Type} {x : α} {l l' before after : List α} (hx : x ∉ l)
    (h : l ++ l' = before ++ x :: after) : ∃ mid, before = l ++ mid ∧ l' = mid ++ x :: after := by
  rcases List.append_eq_append_iff.mp h with ⟨mid, hbefore, hl'⟩ | ⟨mid, hl, hrest⟩
  · exact ⟨mid, hbefore, hl'⟩
  · cases mid with
    | nil => exact ⟨[], by simpa using hl.symm, by simpa using hrest.symm⟩
    | cons y mid =>
      obtain ⟨rfl, -⟩ := List.cons.inj hrest
      exact absurd (hl ▸ List.mem_append_right before List.mem_cons_self) hx

/-- Among the pods and services of workloads, a service comes after its pod. -/
theorem pod_mem_of_service {w : Workload} {workloads : List Workload} {before after : List Resource}
    (h : (workloads.flatMap fun w ↦ [Resource.pod w, .service w]) = before ++ .service w :: after) :
    .pod w ∈ before := by
  induction workloads generalizing before with
  | nil => simp at h
  | cons v workloads ih =>
    rw [List.flatMap_cons] at h
    match before, h with
    | [], h => exact absurd (List.cons.inj h).1 (by simp)
    | [x], h =>
      obtain ⟨rfl, hrest⟩ := List.cons.inj h
      obtain ⟨hservice, -⟩ := List.cons.inj hrest
      rw [Resource.service.inj hservice]
      exact List.mem_singleton_self _
    | x :: y :: before, h =>
      obtain ⟨-, hrest⟩ := List.cons.inj h
      obtain ⟨-, hrest⟩ := List.cons.inj hrest
      exact List.mem_cons_of_mem x (List.mem_cons_of_mem y (ih hrest))

section Resources

variable {t : Topology}

theorem ns_mem_resources_iff {n : Namespace} :
    .ns n ∈ resources t ↔ n ∈ t.namespaces.values := by
  simp [resources]

theorem pod_mem_resources_iff {w : Workload} : .pod w ∈ resources t ↔ w ∈ t.workloads := by
  simp [resources]

theorem service_mem_resources_iff {w : Workload} : .service w ∈ resources t ↔ w ∈ t.workloads := by
  simp [resources]

/-- Every resource comes after those that it needs. -/
theorem follows_of_split (ht : t.Keyed) {before after : List Resource} {x : Resource}
    (h : resources t = before ++ x :: after) : x.Follows before := by
  have hmem : x ∈ resources t := h ▸ List.mem_append_right before List.mem_cons_self
  have hneeds : ∀ w ∈ t.workloads, (∀ n : Namespace, x ≠ .ns n) →
      ∃ n, .ns n ∈ before ∧ n.name = w.key.ns := by
    intro w hw hx
    obtain ⟨mid, rfl, -⟩ := exists_before_of_not_mem (fun hmem ↦ by
      obtain ⟨n, -, rfl⟩ := List.mem_map.mp hmem
      exact hx n rfl) h
    obtain ⟨n, hn, hname⟩ := ht.exists_namespace hw
    exact ⟨n, List.mem_append_left mid (List.mem_map_of_mem hn), hname⟩
  cases x with
  | ns n => trivial
  | pod w => exact hneeds w (pod_mem_resources_iff.mp hmem) (by simp)
  | service w =>
    refine ⟨hneeds w (service_mem_resources_iff.mp hmem) (by simp), ?_⟩
    obtain ⟨mid, rfl, hpods⟩ := exists_before_of_not_mem (by simp) h
    exact List.mem_append_right _ (pod_mem_of_service hpods)

/-- No resource comes twice. -/
theorem nodup_resources (ht : t.Keyed) : (resources t).Nodup := by
  have hnamespaces : t.namespaces.values.Nodup :=
    List.Nodup.of_map (·.name) (ht.map_name_namespaces ▸ t.namespaces.nodup_keys)
  refine List.nodup_append.mpr ⟨hnamespaces.map fun _ _ h ↦ Resource.ns.inj h, ?_, ?_⟩
  · refine List.nodup_flatMap.mpr ⟨fun w _ ↦ by simp, ht.nodup_workloads.imp fun hne x hx hx' ↦ ?_⟩
    simp only [List.mem_cons, List.not_mem_nil, or_false] at hx hx'
    rcases hx with rfl | rfl <;> simp_all
  · rintro x hx y hy rfl
    obtain ⟨n, -, rfl⟩ := List.mem_map.mp hx
    simp at hy

end Resources

/-! ## Sending -/

/-- How sending resources ends, counted from a first request: those in `sent` were sent, and those
in `rest` were not. -/
inductive Ends (accepts : Nat → Bool) (first : Nat) :
    List Resource → List Resource → Except String Unit → Prop
  /-- Everything was sent and accepted. -/
  | finished {sent : List Resource} (accepted : ∀ i < sent.length, accepts (first + i)) :
      Ends accepts first sent [] (.ok ())
  /-- The last resource that was sent was refused. -/
  | refused {before rest : List Resource} {x : Resource}
      (accepted : ∀ i < before.length, accepts (first + i))
      (refused : accepts (first + before.length) = false) :
      Ends accepts first (before ++ [x]) rest (.error x.complaint)
  /-- There is no request for the next resource. -/
  | unmade {sent rest : List Resource} {x : Resource} {e : RequestError}
      (accepted : ∀ i < sent.length, accepts (first + i)) (unmade : x.step.request = .error e) :
      Ends accepts first sent (x :: rest) (.error x.complaint)

theorem forall_accepts_succ {accepts : Nat → Bool} {first count : Nat} (h : accepts first)
    (hrest : ∀ i < count, accepts (first + 1 + i)) : ∀ i < count + 1, accepts (first + i) := by
  intro i hi
  cases i with
  | zero => exact h
  | succ i =>
    rw [Nat.add_comm i 1, ← Nat.add_assoc]
    exact hrest i (by omega)

/-- One more resource in front that is accepted changes nothing of the end. -/
theorem Ends.cons {accepts : Nat → Bool} {first : Nat} {sent rest : List Resource}
    {result : Except String Unit} (h : accepts first)
    (hends : Ends accepts (first + 1) sent rest result) (y : Resource) :
    Ends accepts first (y :: sent) rest result := by
  cases hends with
  | finished accepted => exact .finished (forall_accepts_succ h accepted)
  | @refused before _ x accepted refused =>
    have hlast : accepts (first + (y :: before).length) = false := by
      rw [List.length_cons, Nat.add_comm before.length 1, ← Nat.add_assoc]
      exact refused
    have hbefore : ∀ i < (y :: before).length, accepts (first + i) := forall_accepts_succ h accepted
    exact .refused hbefore hlast
  | unmade accepted unmade => exact .unmade (forall_accepts_succ h accepted) unmade

/-- The requests that are sent are those for a first part of the resources. -/
theorem exists_ends (accepts : Nat → Bool) (first : Nat) (xs : List Resource) :
    ∃ sent rest, xs = sent ++ rest ∧
      List.Forall₂ Resource.Sends sent (sendAll accepts first (xs.map Resource.step)).1 ∧
      Ends accepts first sent rest (sendAll accepts first (xs.map Resource.step)).2 := by
  induction xs generalizing first with
  | nil => exact ⟨[], [], rfl, .nil, .finished (by simp)⟩
  | cons x xs ih =>
    rw [List.map_cons, sendAll]
    cases hx : x.step.request with
    | error e =>
      rw [x.complaint_step]
      exact ⟨[], x :: xs, rfl, .nil, .unmade (by simp) hx⟩
    | ok r =>
      cases haccepts : accepts first with
      | true =>
        obtain ⟨sent, rest, rfl, hsent, hends⟩ := ih (first + 1)
        exact ⟨x :: sent, rest, rfl, .cons hx hsent, hends.cons haccepts x⟩
      | false =>
        rw [x.complaint_step]
        have hends : Ends accepts first ([] ++ [x]) xs (.error x.complaint) :=
          .refused (by simp) haccepts
        exact ⟨[x], xs, rfl, .cons hx .nil, hends⟩

/-- All that was sent, but for the last request, was accepted. -/
theorem Ends.accepted_of_lt {accepts : Nat → Bool} {sent rest : List Resource}
    {result : Except String Unit} (h : Ends accepts 0 sent rest result) {i : Nat}
    (hi : i + 1 < sent.length) : accepts i := by
  rw [← Nat.zero_add i]
  cases h with
  | finished accepted => exact accepted i (by omega)
  | @refused before _ _ accepted _ =>
    rw [List.length_append, List.length_singleton] at hi
    exact accepted i (by omega)
  | unmade accepted _ => exact accepted i (by omega)

theorem Ends.eq_ok_iff {accepts : Nat → Bool} {sent rest : List Resource}
    {result : Except String Unit} (h : Ends accepts 0 sent rest result) :
    result = .ok () ↔ rest = [] ∧ ∀ i < sent.length, accepts i := by
  cases h with
  | finished accepted => simpa using accepted
  | @refused before rest x accepted refused =>
    refine ⟨fun h ↦ absurd h (by simp), fun ⟨_, hall⟩ ↦ ?_⟩
    rw [Nat.zero_add, ← Bool.not_eq_true] at refused
    exact absurd (hall before.length (by simp)) refused
  | unmade => simp

/-! ## Applying a topology -/

/-- What applying a topology amounts to: `sent` are the resources for which requests were sent. -/
structure AppliedInOrder (t : Topology) (accepts : Nat → Bool) (sent rest : List Resource)
    (requests : List Request) (result : Except String Unit) : Prop where
  /-- The requests are those for a first part of the resources. -/
  split : resources t = sent ++ rest
  sends : List.Forall₂ Resource.Sends sent requests
  ok_iff : result = .ok () ↔ rest = [] ∧ ∀ i < sent.length, accepts i
  /-- A failure names the resource that was sent last and refused, or the next one, for which there
  is no request. -/
  failed : ∀ complaint, result = .error complaint → ∃ x : Resource, complaint = x.complaint ∧
    ((∃ before, sent = before ++ [x] ∧ (∀ i < before.length, accepts i) ∧
        accepts before.length = false) ∨
      (∃ after, rest = x :: after ∧ (∀ i < sent.length, accepts i) ∧
        ∃ e, x.step.request = .error e))
  /-- Before a resource is sent, all before it was accepted, and among this is what it needs. -/
  ordered : ∀ before x after, sent = before ++ x :: after →
    (∀ i < before.length, accepts i) ∧ x.Follows before
  /-- On success every namespace, pod and service was sent, and none twice. -/
  once : result = .ok () → sent.Nodup ∧ (∀ n ∈ t.namespaces.values, .ns n ∈ sent) ∧
    ∀ w ∈ t.workloads, .pod w ∈ sent ∧ .service w ∈ sent

/-- **Resources are applied in order, up to the first failure.** Namespaces come first, in the order
of their names, and then for each workload in the order of keys its pod and its service. What is
sent is a first part of this sequence, and it is all of it, every request being accepted, if and
only if applying succeeds. -/
theorem apply_inOrder {t : Topology} (ht : t.Built) (accepts : Nat → Bool) :
    ((t.namespaces.values.map (·.name)).Pairwise fun a b ↦ compare a b = .lt) ∧
      ((t.workloads.map (·.key)).Pairwise fun a b ↦ compare a b = .lt) ∧
      ∃ sent rest, AppliedInOrder t accepts sent rest (sendAll accepts 0 (applySteps t)).1
        (sendAll accepts 0 (applySteps t)).2 := by
  refine ⟨?_, List.pairwise_map.mpr ht.keyed.sorted_workloads, ?_⟩
  · rw [ht.keyed.map_name_namespaces]
    exact t.namespaces.sorted_keys
  obtain ⟨sent, rest, hsplit, hsends, hends⟩ := exists_ends accepts 0 (resources t)
  rw [← applySteps_eq_map] at hsends hends
  refine ⟨sent, rest, hsplit, hsends, hends.eq_ok_iff, fun complaint hfailed ↦ ?_,
    fun before x after hsent ↦ ⟨fun i hi ↦ ?_, ?_⟩, fun hok ↦ ?_⟩
  · rw [hfailed] at hends
    cases hends with
    | @refused before _ x accepted refused =>
      simp only [Nat.zero_add] at accepted refused
      exact ⟨x, rfl, Or.inl ⟨before, rfl, accepted, refused⟩⟩
    | @unmade _ after x e accepted unmade =>
      simp only [Nat.zero_add] at accepted
      exact ⟨x, rfl, Or.inr ⟨after, rfl, accepted, e, unmade⟩⟩
  · refine hends.accepted_of_lt ?_
    rw [hsent, List.length_append, List.length_cons]
    omega
  · have hplace : resources t = before ++ x :: (after ++ rest) := by
      rw [hsplit, hsent, List.append_assoc, List.cons_append]
    exact follows_of_split ht.keyed hplace
  · obtain ⟨rfl, -⟩ := hends.eq_ok_iff.mp hok
    rw [List.append_nil] at hsplit
    subst hsplit
    exact ⟨nodup_resources ht.keyed, fun n ↦ ns_mem_resources_iff.mpr,
      fun w hw ↦ ⟨pod_mem_resources_iff.mpr hw, service_mem_resources_iff.mpr hw⟩⟩

/-- One pod in one namespace, which serves a port. -/
def lonePod : Topology := .conventional ["x"] ["a"] [⟨.tcp, 80⟩]

theorem built_lonePod : lonePod.Built := .conventional ["x"] ["a"] [⟨.tcp, 80⟩]

/-- If the pod is refused, its service is not sent. -/
theorem apply_inOrder_lonePod : lonePod.Built ∧ ∃ requests sent rest,
    sendAll (· != 1) 0 (applySteps lonePod) = (requests, .error "failed to apply pod x/a") ∧
      AppliedInOrder lonePod (· != 1) sent rest requests (.error "failed to apply pod x/a") ∧
      sent.length = 2 ∧ (resources lonePod).length = 3 := by
  have heval : (sendAll (· != 1) 0 (applySteps lonePod)).2 = .error "failed to apply pod x/a" ∧
      (sendAll (· != 1) 0 (applySteps lonePod)).1.length = 2 := by decide +kernel
  obtain ⟨-, -, sent, rest, happlied⟩ := apply_inOrder built_lonePod (· != 1)
  generalize sendAll (· != 1) 0 (applySteps lonePod) = answer at heval happlied
  obtain ⟨requests, result⟩ := answer
  obtain ⟨rfl, hlength⟩ : result = _ ∧ requests.length = 2 := heval
  exact ⟨built_lonePod, requests, sent, rest, rfl, happlied, happlied.sends.length_eq.trans hlength,
    by decide +kernel⟩

/-- A topology whose only namespace has no name. -/
def nameless : Topology where
  namespaces := SortedMap.ofList [("", Namespace.new "" ∅)]

/-- **Sending everything is not enough, and nothing need be refused.** If only the last request is
refused, everything was sent, and yet applying fails. If a namespace has no name, nothing is sent or
refused, and yet applying fails. -/
theorem apply_lastRefused :
    (lonePod.Built ∧ ∃ requests,
      sendAll (· != 2) 0 (applySteps lonePod) =
        (requests, .error "failed to apply service for x/a") ∧
      List.Forall₂ Resource.Sends (resources lonePod) requests) ∧
    (nameless.Built ∧ resources nameless = [.ns (Namespace.new "" ∅)] ∧
      sendAll (fun _ ↦ true) 0 (applySteps nameless) =
        ([], .error "failed to apply namespace ")) := by
  constructor
  · have heval : (sendAll (· != 2) 0 (applySteps lonePod)).2 =
          .error "failed to apply service for x/a" ∧
        (sendAll (· != 2) 0 (applySteps lonePod)).1.length = (resources lonePod).length := by
      decide +kernel
    obtain ⟨sent, rest, hsplit, hsends, -⟩ := exists_ends (· != 2) 0 (resources lonePod)
    rw [← applySteps_eq_map] at hsends
    generalize sendAll (· != 2) 0 (applySteps lonePod) = answer at heval hsends
    obtain ⟨requests, result⟩ := answer
    obtain ⟨rfl, hlength⟩ : result = _ ∧ requests.length = _ := heval
    -- as many requests as resources, so none is left
    have hrest : rest = [] := by
      rw [← hsends.length_eq, hsplit, List.length_append] at hlength
      exact List.length_eq_zero_iff.mp (by omega)
    rw [hrest, List.append_nil] at hsplit
    exact ⟨built_lonePod, requests, rfl, hsplit ▸ hsends⟩
  · have hbuilt : Topology.empty.addNamespace "" ∅ = .ok nameless := by decide +kernel
    exact ⟨.addNamespace .empty hbuilt, rfl, rfl⟩

end Reachability.Cluster
