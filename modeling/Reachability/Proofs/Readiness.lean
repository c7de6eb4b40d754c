import Reachability.Cluster.Readiness
import Reachability.Proofs.Change

/-!
# Waiting for pods

Waiting for the workloads of a topology is a walk along their list, which records an address at each
of them and stops at the first one that fails. While it walks, the topology is the one that there
was, with the reported addresses of the workloads that were passed (`Topology.relocate`): this is
the invariant, and it is kept because a key belongs to one workload only (`Topology.Keyed`), so that
recording an address reaches that workload and no other.

What a cluster has to report about a pod for each answer is said without the order of the checks
(`PodHistory.Answers`). The pod is looked at twice, and it is the second look whose address is
recorded, and which may fail although the first one did not.
-/

namespace Reachability

/-! ## Answers about a pod -/

namespace PodHistory

/-- The pod is looked for, and it is seen to be ready before the time is up. -/
structure SeenReady (h : PodHistory) (limit : Duration) (key : WorkloadKey) : Prop where
  request : ∃ r, listRequest key = .ok r
  limit : limit.nanoseconds ≠ 0
  seen : ∃ first, h.first = .ok first ∧ ∃ s, (first = some s ∨ s ∈ h.later) ∧ s.isReady

/-- What waiting for a pod ends with, by what the cluster reports about it. -/
inductive Answers (h : PodHistory) (limit : Duration) (key : WorkloadKey) :
    Except String Address → Prop
  /-- The pod cannot be looked for. -/
  | unwatched (fails : (∀ r, listRequest key ≠ .ok r) ∨
      limit.nanoseconds ≠ 0 ∧ h.first = .error ()) :
      Answers h limit key (.error s!"failed to watch pod {key}")
  /-- The pod is not seen to be ready in time. -/
  | late (request : ∃ r, listRequest key = .ok r) (never : limit.nanoseconds = 0 ∨
      ∃ first, h.first = .ok first ∧ ∀ s, first = some s ∨ s ∈ h.later → ¬s.isReady) :
      Answers h limit key (.error s!"timed out waiting for pod {key} to be ready")
  /-- The pod was ready, but cannot be fetched. -/
  | gone (ready : h.SeenReady limit key)
      (fails : (∀ r, getRequest key ≠ .ok r) ∨ h.final = none) :
      Answers h limit key (.error s!"failed to get pod {key}")
  /-- The pod was ready, but has no address when it is fetched. -/
  | withoutAddress (ready : h.SeenReady limit key) (request : ∃ r, getRequest key = .ok r)
      {s : PodStatus} (final : h.final = some s) (address : s.address? = none) :
      Answers h limit key (.error s!"pod {key} has no IP")
  /-- The pod was ready, and has an address when it is fetched. -/
  | ready (ready : h.SeenReady limit key) (request : ∃ r, getRequest key = .ok r)
      {s : PodStatus} (final : h.final = some s) {a : Address} (address : s.address? = some a) :
      Answers h limit key (.ok a)

/-- The address of the pod when it is fetched. -/
def reported (h : PodHistory) : Option Address := h.final.bind (·.address?)

variable {h : PodHistory} {limit : Duration} {key : WorkloadKey}

theorem becomesReady_iff {first : Option PodStatus} :
    h.becomesReady first ↔ ∃ s, (first = some s ∨ s ∈ h.later) ∧ s.isReady := by
  rw [becomesReady, Bool.or_eq_true, Option.any_eq_true, List.any_eq_true]
  simp only [or_and_right, exists_or]

theorem answers_finalAddress (hready : h.SeenReady limit key) :
    h.Answers limit key (h.finalAddress key) := by
  rw [finalAddress]
  cases hget : getRequest key with
  | error e => exact .gone hready (Or.inl (by simp [hget]))
  | ok r =>
    cases hfinal : h.final with
    | none => exact .gone hready (Or.inr hfinal)
    | some s =>
      cases haddress : s.address? with
      | none => simpa only [haddress] using .withoutAddress hready ⟨r, hget⟩ hfinal haddress
      | some a => simpa only [haddress] using .ready hready ⟨r, hget⟩ hfinal haddress

theorem answers_readyAddress (h : PodHistory) (limit : Duration) (key : WorkloadKey) :
    h.Answers limit key (h.readyAddress limit key) := by
  rw [readyAddress, awaitReady]
  cases hlist : listRequest key with
  | error e => exact .unwatched (Or.inl (by simp [hlist]))
  | ok r =>
    by_cases hlimit : limit.nanoseconds = 0
    · simp only [hlimit, if_true, error_bind]
      exact .late ⟨r, hlist⟩ (Or.inl hlimit)
    · simp only [hlimit, if_false]
      cases hfirst : h.first with
      | error e => exact .unwatched (Or.inr ⟨hlimit, hfirst⟩)
      | ok first =>
        by_cases hready : h.becomesReady first
        · simp only [hready, if_true, ok_bind]
          exact answers_finalAddress ⟨⟨r, hlist⟩, hlimit, first, hfirst, becomesReady_iff.mp hready⟩
        · simp only [hready]
          rw [becomesReady_iff] at hready
          exact .late ⟨r, hlist⟩ (Or.inr ⟨first, hfirst, fun s hs hs' ↦ hready ⟨s, hs, hs'⟩⟩)

theorem SeenReady.awaitReady_eq (hready : h.SeenReady limit key) :
    h.awaitReady limit key = .ok () := by
  obtain ⟨⟨r, hlist⟩, hlimit, first, hfirst, hseen⟩ := hready
  rw [awaitReady, hlist, hfirst]
  simp only [hlimit, if_false, becomesReady_iff.mpr hseen, if_true]

theorem Answers.readyAddress_eq {answer : Except String Address}
    (h' : h.Answers limit key answer) : h.readyAddress limit key = answer := by
  rw [readyAddress]
  cases h' with
  | unwatched fails =>
    rw [awaitReady]
    cases hlist : listRequest key with
    | error e => rfl
    | ok r =>
      obtain ⟨hlimit, hfirst⟩ := fails.resolve_left fun hnot ↦ hnot r hlist
      simp only [hlimit, if_false, hfirst, error_bind]
  | late request never =>
    obtain ⟨r, hlist⟩ := request
    rw [awaitReady, hlist]
    rcases never with hlimit | ⟨first, hfirst, hnever⟩
    · simp only [hlimit, if_true, error_bind]
    · have hnot : ¬h.becomesReady first := fun hready ↦ by
        obtain ⟨s, hs, hready⟩ := becomesReady_iff.mp hready
        exact hnever s hs hready
      simp only [hfirst, hnot]
      split <;> rfl
  | gone ready fails =>
    rw [ready.awaitReady_eq, ok_bind, finalAddress]
    cases hget : getRequest key with
    | error e => rfl
    | ok r => rw [fails.resolve_left fun hnot ↦ hnot r hget]
  | withoutAddress ready request final address =>
    obtain ⟨r, hget⟩ := request
    rw [ready.awaitReady_eq, ok_bind, finalAddress, hget, final]
    simp only [address]
  | ready ready request final address =>
    obtain ⟨r, hget⟩ := request
    rw [ready.awaitReady_eq, ok_bind, finalAddress, hget, final]
    simp only [address]

theorem answers_iff {answer : Except String Address} :
    h.Answers limit key answer ↔ h.readyAddress limit key = answer := by
  refine ⟨Answers.readyAddress_eq, ?_⟩
  rintro rfl
  exact h.answers_readyAddress limit key

theorem Answers.reported_eq {a : Address} (h' : h.Answers limit key (.ok a)) :
    h.reported = some a := by
  cases h' with
  | ready _ _ final address => rw [reported, final, Option.bind_some, address]

theorem head?_toList_append {p s : String} {c : Char} (h : p.toList.head? = some c) :
    (p ++ s).toList.head? = some c := by
  rw [String.toList_append, List.head?_append, h, Option.some_or]

/-- No answer about a pod is that there is no such workload. -/
theorem Answers.ne_unknownWorkload {complaint : String}
    (h' : h.Answers limit key (.error complaint)) (other : WorkloadKey) :
    complaint ≠ (Error.unknownWorkload other).message := by
  -- the first letters are enough to tell the messages apart
  have hfirst : ∃ c ∈ ['f', 't', 'p'], complaint.toList.head? = some c := by
    cases h' with
    | unwatched => exact ⟨'f', by decide, head?_toList_append (by decide)⟩
    | late => exact ⟨'t', by decide, head?_toList_append (head?_toList_append (by decide))⟩
    | gone => exact ⟨'f', by decide, head?_toList_append (by decide)⟩
    | withoutAddress =>
      exact ⟨'p', by decide, head?_toList_append (head?_toList_append (by decide))⟩
  have hother : (Error.unknownWorkload other).message.toList.head? = some 'w' :=
    head?_toList_append (head?_toList_append (p := "workload ") (by decide))
  rintro rfl
  obtain ⟨c, hc, hhead⟩ := hfirst
  rw [hother, Option.some.injEq] at hhead
  exact absurd (hhead ▸ hc) (by decide)

end PodHistory

/-! ## Topologies with other addresses -/

/-- The workload with another address. -/
def Workload.relocate (address : Workload → Option Address) (w : Workload) : Workload :=
  { w with address := address w }

/-- The namespace with other addresses of its workloads. -/
def Namespace.relocate (address : Workload → Option Address) (ns : Namespace) : Namespace :=
  { ns with workloads := ns.workloads.mapValues (·.relocate address) }

namespace Topology

/-- The topology with other addresses of its workloads, and with everything else as it is. -/
def relocate (t : Topology) (address : Workload → Option Address) : Topology :=
  ⟨t.namespaces.mapValues (·.relocate address)⟩

variable {t : Topology} {f g : Workload → Option Address}

@[simp] theorem relocate_address (t : Topology) : t.relocate Workload.address = t := by
  simp [relocate, Namespace.relocate, Workload.relocate]

theorem workloads_relocate (t : Topology) (f : Workload → Option Address) :
    (t.relocate f).workloads = t.workloads.map (·.relocate f) := by
  rw [workloads, relocate, SortedMap.values_mapValues, List.flatMap_map, workloads,
    List.map_flatMap]
  simp only [Namespace.relocate, SortedMap.values_mapValues]

theorem mem_workloads_of_get? {name pod : String} {ns : Namespace} {w : Workload}
    (hns : t.namespaces.get? name = some ns) (hw : ns.workloads.get? pod = some w) :
    w ∈ t.workloads :=
  mem_workloads_iff_exists.mpr ⟨⟨name, pod⟩, workload?_eq_some_iff.mpr ⟨ns, hns, hw⟩⟩

/-- Only the addresses of the workloads matter. -/
theorem relocate_congr (h : ∀ w ∈ t.workloads, f w = g w) : t.relocate f = t.relocate g := by
  refine congrArg Topology.mk (SortedMap.mapValues_congr fun name ns hns ↦ ?_)
  have hworkloads : ns.workloads.mapValues (·.relocate f) =
      ns.workloads.mapValues (·.relocate g) := by
    refine SortedMap.mapValues_congr fun pod w hw ↦ ?_
    rw [Workload.relocate, Workload.relocate, h w (mem_workloads_of_get? hns hw)]
  rw [Namespace.relocate, Namespace.relocate, hworkloads]

/-- Assigning an address reaches the workload with the key, and no other. -/
theorem Keyed.setAddress_relocate (ht : t.Keyed) {w : Workload} (hw : w ∈ t.workloads)
    (a : Address) (hf : f w = some a) (hg : ∀ v ∈ t.workloads, v ≠ w → g v = f v) :
    (t.relocate g).setAddress w.key a = .ok (t.relocate f) := by
  obtain ⟨ns, hns, hpod⟩ := workload?_eq_some_iff.mp (ht.mem_workloads_iff.mp hw)
  -- what is stored elsewhere has another key, so it is another workload
  have hothers : ∀ {name pod ns' v}, t.namespaces.get? name = some ns' →
      ns'.workloads.get? pod = some v → (⟨name, pod⟩ : WorkloadKey) ≠ w.key →
      v.relocate g = v.relocate f := by
    intro name pod ns' v hns' hv hne
    have hvw : v ≠ w := by
      rintro rfl
      exact hne ((ht name ns' hns').key_eq hv).symm
    rw [Workload.relocate, Workload.relocate, hg v (mem_workloads_of_get? hns' hv) hvw]
  have hworkloads : (ns.workloads.mapValues (·.relocate g)).insert w.key.name (w.relocate f) =
      ns.workloads.mapValues (·.relocate f) :=
    SortedMap.insert_mapValues _ (·.relocate f) hpod fun pod v hv hne ↦
      hothers hns hv fun heq ↦ hne (congrArg WorkloadKey.name heq)
  have hnamespaces : (t.namespaces.mapValues (·.relocate g)).insert w.key.ns (ns.relocate f) =
      t.namespaces.mapValues (·.relocate f) := by
    refine SortedMap.insert_mapValues _ (·.relocate f) hns fun name ns' hns' hne ↦ ?_
    have hsame : ns'.workloads.mapValues (·.relocate g) = ns'.workloads.mapValues (·.relocate f) :=
      SortedMap.mapValues_congr fun pod v hv ↦
        hothers hns' hv fun heq ↦ hne (congrArg WorkloadKey.ns heq)
    rw [Namespace.relocate, Namespace.relocate, hsame]
  have hself : w.relocate f = { w.relocate g with address := some a } := by
    rw [Workload.relocate, hf]
    rfl
  rw [setAddress, relocate, relocate, SortedMap.get?_mapValues, hns, ← hnamespaces,
    Namespace.relocate, ← hworkloads, hself]
  simp only [Option.map_some, Namespace.relocate, SortedMap.get?_mapValues, hpod]

/-! ## The walk -/

section Walk

variable {limit : Duration} {history : WorkloadKey → PodHistory}

/-- Waiting for the pod of a workload gives an address. -/
def Answered (limit : Duration) (history : WorkloadKey → PodHistory) (w : Workload) : Prop :=
  ∃ a, (history w.key).Answers limit w.key (.ok a)

/-- The address of a workload when those before it have been passed. -/
def progress (history : WorkloadKey → PodHistory) (passed : List Workload) (w : Workload) :
    Option Address :=
  if w ∈ passed then (history w.key).reported else w.address

/-- Passing a workload records its address. -/
theorem Keyed.awaitEach_cons (ht : t.Keyed) {w : Workload} (hw : w ∈ t.workloads) {a : Address}
    (ha : (history w.key).Answers limit w.key (.ok a)) (passed : List Workload)
    (keys : List WorkloadKey) :
    (t.relocate (progress history passed)).awaitEach limit history (w.key :: keys) =
      (t.relocate (progress history (passed ++ [w]))).awaitEach limit history keys := by
  have hset : (t.relocate (progress history passed)).setAddress w.key a =
      .ok (t.relocate (progress history (passed ++ [w]))) := by
    refine ht.setAddress_relocate hw a ?_ fun v _ hne ↦ ?_
    · rw [progress, if_pos (by simp), ha.reported_eq]
    · simp [progress, hne]
  rw [awaitEach, ha.readyAddress_eq]
  simp only [hset]

/-- Passing workloads records their addresses. -/
theorem Keyed.awaitEach_append (ht : t.Keyed) {before : List Workload}
    (h : ∀ w ∈ before, w ∈ t.workloads ∧ Answered limit history w)
    (passed : List Workload) (keys : List WorkloadKey) :
    (t.relocate (progress history passed)).awaitEach limit history
        (before.map (·.key) ++ keys) =
      (t.relocate (progress history (passed ++ before))).awaitEach limit history keys := by
  -- each step passes one more workload, so the claim is about any workloads passed before
  induction before generalizing passed with
  | nil => simp
  | cons w before ih =>
    obtain ⟨⟨hw, a, ha⟩, hbefore⟩ := List.forall_mem_cons.mp h
    rw [List.map_cons, List.cons_append, ht.awaitEach_cons hw ha, ih hbefore, List.append_assoc,
      List.singleton_append]

/-- Waiting for a topology passes the first workloads if these are answered with addresses. -/
theorem Keyed.awaitAddresses_append (ht : t.Keyed) {before after : List Workload}
    (hsplit : t.workloads = before ++ after)
    (h : ∀ w ∈ before, Answered limit history w) :
    t.awaitAddresses limit history =
      (t.relocate (progress history before)).awaitEach limit history (after.map (·.key)) := by
  have hstart : t.relocate (progress history []) = t := by
    refine (relocate_congr fun w _ ↦ ?_).trans t.relocate_address
    rw [progress, if_neg List.not_mem_nil]
  have hmem : ∀ w ∈ before, w ∈ t.workloads := fun w hw ↦ by simp [hsplit, hw]
  have hwalk := ht.awaitEach_append (fun w hw ↦ ⟨hmem w hw, h w hw⟩) [] (after.map (·.key))
  rw [hstart, List.nil_append, ← List.map_append, ← hsplit] at hwalk
  exact hwalk

theorem Keyed.awaitAddresses_eq_ok (ht : t.Keyed)
    (h : ∀ w ∈ t.workloads, Answered limit history w) :
    t.awaitAddresses limit history = (t.relocate fun w ↦ (history w.key).reported, .ok ()) := by
  have hall : t.relocate (progress history t.workloads) =
      t.relocate fun w ↦ (history w.key).reported :=
    relocate_congr fun w hw ↦ by rw [progress, if_pos hw]
  rw [ht.awaitAddresses_append (List.append_nil _).symm h, hall]
  rfl

theorem Keyed.awaitAddresses_eq_error (ht : t.Keyed) {before after : List Workload} {w : Workload}
    (hsplit : t.workloads = before ++ w :: after)
    (h : ∀ v ∈ before, Answered limit history v) {complaint : String}
    (hw : (history w.key).Answers limit w.key (.error complaint)) :
    t.awaitAddresses limit history =
      (t.relocate (progress history before), .error complaint) := by
  rw [ht.awaitAddresses_append hsplit h, List.map_cons, awaitEach, hw.readyAddress_eq]

/-- Either every pod is answered with an address, or there is a first one that is not. -/
theorem answered_or_stops (t : Topology) (limit : Duration) (history : WorkloadKey → PodHistory) :
    (∀ w ∈ t.workloads, Answered limit history w) ∨
      ∃ before w after complaint, t.workloads = before ++ w :: after ∧
        (∀ v ∈ before, Answered limit history v) ∧
        (history w.key).Answers limit w.key (.error complaint) := by
  rcases forall_or_meets_not (Answered limit history) t.workloads with
    h | ⟨before, w, after, hsplit, hbefore, hw⟩
  · exact Or.inl h
  · have hanswers := (history w.key).answers_readyAddress limit w.key
    cases hready : (history w.key).readyAddress limit w.key with
    | ok a => exact absurd ⟨a, hready ▸ hanswers⟩ hw
    | error complaint =>
      exact Or.inr ⟨before, w, after, complaint, hsplit, hbefore, hready ▸ hanswers⟩

theorem Keyed.awaitAddresses_eq_ok_iff (ht : t.Keyed) {t' : Topology} :
    t.awaitAddresses limit history = (t', .ok ()) ↔
      (∀ w ∈ t.workloads, Answered limit history w) ∧
        t' = t.relocate fun w ↦ (history w.key).reported := by
  constructor
  · intro hrun
    rcases t.answered_or_stops limit history with
      h | ⟨before, w, after, complaint, hsplit, hbefore, hw⟩
    · rw [ht.awaitAddresses_eq_ok h] at hrun
      exact ⟨h, (congrArg Prod.fst hrun).symm⟩
    · rw [ht.awaitAddresses_eq_error hsplit hbefore hw] at hrun
      exact absurd (congrArg Prod.snd hrun) (by simp)
  · rintro ⟨h, rfl⟩
    exact ht.awaitAddresses_eq_ok h

theorem Keyed.awaitAddresses_eq_error_iff (ht : t.Keyed) {t' : Topology} {complaint : String} :
    t.awaitAddresses limit history = (t', .error complaint) ↔
      ∃ before w after, t.workloads = before ++ w :: after ∧
        (∀ v ∈ before, Answered limit history v) ∧
        (history w.key).Answers limit w.key (.error complaint) ∧
        t' = t.relocate (progress history before) := by
  constructor
  · intro hrun
    rcases t.answered_or_stops limit history with
      h | ⟨before, w, after, reason, hsplit, hbefore, hw⟩
    · rw [ht.awaitAddresses_eq_ok h] at hrun
      exact absurd (congrArg Prod.snd hrun) (by simp)
    · rw [ht.awaitAddresses_eq_error hsplit hbefore hw] at hrun
      obtain rfl : reason = complaint := Except.error.inj (congrArg Prod.snd hrun)
      exact ⟨before, w, after, hsplit, hbefore, hw, (congrArg Prod.fst hrun).symm⟩
  · rintro ⟨before, w, after, hsplit, hbefore, hw, rfl⟩
    exact ht.awaitAddresses_eq_error hsplit hbefore hw

/-- **Waiting records addresses only, in order, and stops at the first failure.** It succeeds if
and only if the pod of every workload gives an address, and then these are the addresses of the
topology, so none is missing. It fails if and only if some pod does not, with the complaint about
the first such pod, and never about a workload that would not exist. Then the workloads before it
have the addresses of their pods, and everything else is as it was. -/
theorem awaitAddresses_exact (ht : t.Built) (limit : Duration)
    (history : WorkloadKey → PodHistory) :
    (∀ t', t.awaitAddresses limit history = (t', .ok ()) ↔
      (∀ w ∈ t.workloads, Answered limit history w) ∧
        t' = t.relocate fun w ↦ (history w.key).reported) ∧
    (∀ t' complaint, t.awaitAddresses limit history = (t', .error complaint) ↔
      ∃ before w after, t.workloads = before ++ w :: after ∧
        (∀ v ∈ before, Answered limit history v) ∧
        (history w.key).Answers limit w.key (.error complaint) ∧
        t' = t.relocate fun v ↦ if v ∈ before then (history v.key).reported else v.address) ∧
    (∀ t', t.awaitAddresses limit history = (t', .ok ()) → t'.requireAddresses = .ok ()) ∧
    ∀ t' complaint key, t.awaitAddresses limit history = (t', .error complaint) →
      complaint ≠ (Error.unknownWorkload key).message := by
  refine ⟨fun t' ↦ ht.keyed.awaitAddresses_eq_ok_iff,
    fun t' complaint ↦ ht.keyed.awaitAddresses_eq_error_iff, fun t' hrun ↦ ?_,
    fun t' complaint key hrun ↦ ?_⟩
  · obtain ⟨hanswered, rfl⟩ := ht.keyed.awaitAddresses_eq_ok_iff.mp hrun
    rw [requireAddresses_eq_ok_iff, workloads_relocate]
    intro w' hw'
    obtain ⟨w, hw, rfl⟩ := List.mem_map.mp hw'
    obtain ⟨a, ha⟩ := hanswered w hw
    rw [Workload.relocate, ha.reported_eq]
    rfl
  · obtain ⟨before, w, after, -, -, hw, -⟩ := ht.keyed.awaitAddresses_eq_error_iff.mp hrun
    exact hw.ne_unknownWorkload key

/-- What a cluster reports about a pod that is ready at first sight. It may have another address, or
none, when it is fetched. -/
def readyAt (address : String) (final : Option String) : PodHistory :=
  let status (address : Option String) : PodStatus := ⟨address, [⟨"Ready", "True"⟩]⟩
  ⟨.ok (some (status (some address))), [], some (status final)⟩

/-- A pod that has got another address when it is fetched has that one in the end. A pod that has
lost it has none, and stops the walk. -/
theorem awaitAddresses_exact_pair :
    let history (final : Option String) (key : WorkloadKey) : PodHistory :=
      if key.name = "a" then readyAt "10.0.0.9" (some "10.0.0.1") else readyAt "10.0.0.2" final
    (∃ t', pair.awaitAddresses (.ofSeconds 1) (history (some "10.0.0.2")) = (t', .ok ()) ∧
      t'.requireAddresses = .ok ()) ∧
    ∃ t', pair.awaitAddresses (.ofSeconds 1) (history none) = (t', .error "pod x/b has no IP") ∧
      t'.workloads.map (·.address) = [some (.v4 0x0A000001#32), none] := by
  intro history
  have hbuilt : pair.Built := .conventional ["x"] ["a", "b"] [⟨.tcp, 80⟩]
  have hpair : pair.workloads = [pairPod "a", pairPod "b"] := by decide +kernel
  have ha : ∀ final, (history final (pairPod "a").key).Answers (.ofSeconds 1) (pairPod "a").key
      (.ok (.v4 0x0A000001#32)) := by
    intro final
    rw [show history final (pairPod "a").key = readyAt "10.0.0.9" (some "10.0.0.1") from if_pos rfl]
    exact PodHistory.answers_iff.mpr (by decide +kernel)
  constructor
  · obtain ⟨hok, -, hrequire, -⟩ :=
      awaitAddresses_exact hbuilt (.ofSeconds 1) (history (some "10.0.0.2"))
    have hb : (history (some "10.0.0.2") (pairPod "b").key).Answers (.ofSeconds 1)
        (pairPod "b").key (.ok (.v4 0x0A000002#32)) :=
      PodHistory.answers_iff.mpr (by decide +kernel)
    have hrun := (hok _).mpr ⟨by simpa [hpair] using ⟨⟨_, ha _⟩, ⟨_, hb⟩⟩, rfl⟩
    exact ⟨_, hrun, hrequire _ hrun⟩
  · obtain ⟨-, herror, -⟩ := awaitAddresses_exact hbuilt (.ofSeconds 1) (history none)
    have hb : (history none (pairPod "b").key).Answers (.ofSeconds 1) (pairPod "b").key
        (.error "pod x/b has no IP") := PodHistory.answers_iff.mpr (by decide +kernel)
    have hrun := (herror _ _).mpr ⟨[pairPod "a"], pairPod "b", [], hpair,
      by simpa using ⟨_, ha none⟩, hb, rfl⟩
    exact ⟨_, hrun, by decide +kernel⟩

end Walk

end Topology

end Reachability
