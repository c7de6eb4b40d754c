import Reachability.Proofs.Job

/-!
# All probes, and none twice

What an enumeration of jobs consists of, as lists over the pairs of workloads: a job for each
declared port that is asked for (`ProbeConfig.asked`), and for a single configured port also what is
set aside. A configured port, by number or by name, picks the first declaration that answers to it,
so that the two ways to resolve a port become one (`ContainerPort.answers`).

Jobs are told apart by their flows. Two pairs of workloads never share a flow, because workloads are
listed in the order of their keys; so a flow can be repeated only within one destination, by a port
that is declared twice.
-/

namespace Reachability

/-! ## Declarations -/

/-- The declaration is one that a reference and a protocol pick. -/
def ContainerPort.answers (p : ContainerPort) (port : PortRef) (protocol : Protocol) : Bool :=
  p.protocol == protocol && match port with
    | .number n => p.number == n
    | .name name => p.name == some name

/-- The workload has a declaration that a reference and a protocol pick. -/
def Workload.declares (w : Workload) (port : PortRef) (protocol : Protocol) : Bool :=
  w.ports.any (·.answers port protocol)

theorem Workload.isSome_find?_ports {w : Workload} {port : PortRef} {protocol : Protocol} :
    (w.ports.find? (·.answers port protocol)).isSome = w.declares port protocol := by
  rw [declares, Bool.eq_iff_iff, List.find?_isSome, List.any_eq_true]

theorem Workload.isSome_resolveNumbered {w : Workload} {n : UInt16} {protocol : Protocol} :
    (w.resolveNumbered n protocol).isSome = w.declares (.number n) protocol := by
  rw [← isSome_find?_ports]
  rfl

theorem Workload.isSome_resolveNamed {w : Workload} {name : String} {protocol : Protocol} :
    (w.resolveNamed name protocol).isSome = w.declares (.name name) protocol := by
  rw [resolveNamed, Option.isSome_map, ← isSome_find?_ports]
  rfl

namespace ProbeConfig

variable (config : ProbeConfig)

/-- The declarations of a destination for which there are jobs: all of them, or the first that the
configured reference picks. -/
def asked (destination : Workload) : List ContainerPort :=
  match config.ports with
  | .all => destination.ports
  | .single port protocol => (destination.ports.find? (·.answers port protocol)).toList

theorem requests_eq_map_asked (destination : Workload) :
    config.requests destination =
      (config.asked destination).map fun p ↦ (p.servicePort, p.name) := by
  obtain ⟨ports, mode⟩ := config
  cases ports with
  | all => rfl
  | single port protocol =>
    cases port with
    | number n =>
      simp only [requests, asked, Workload.resolveNumbered, ContainerPort.answers]
      cases hfind : destination.ports.find? fun p ↦ p.protocol == protocol && p.number == n with
      | none => rfl
      | some p =>
        have hp := List.find?_some hfind
        rw [Bool.and_eq_true, beq_iff_eq, beq_iff_eq] at hp
        obtain ⟨rfl, rfl⟩ := hp
        rfl
    | name name =>
      simp only [requests, asked, Workload.resolveNamed, ContainerPort.answers]
      cases hfind : destination.ports.find? fun p ↦
        p.protocol == protocol && p.name == some name with
      | none => rfl
      | some p =>
        have hp := List.find?_some hfind
        rw [Bool.and_eq_true, beq_iff_eq, beq_iff_eq] at hp
        obtain ⟨rfl, hname⟩ := hp
        simp [ContainerPort.servicePort, hname]

theorem probed_eq_map_asked (destination : Workload) :
    config.probed destination = (config.asked destination).map ContainerPort.servicePort := by
  rw [probed, requests_eq_map_asked, List.map_map]
  rfl

theorem mem_ports_of_mem_asked {destination : Workload} {p : ContainerPort}
    (h : p ∈ config.asked destination) : p ∈ destination.ports := by
  rw [asked] at h
  split at h
  · exact h
  · rw [Option.mem_toList] at h
    exact List.mem_of_find?_eq_some h

end ProbeConfig

/-! ## Jobs for the pairs of workloads -/

/-- The pairs of workloads, in the order of sources and then of destinations. -/
def Topology.pairs (t : Topology) : List (Workload × Workload) :=
  t.workloads.flatMap fun source ↦ t.workloads.map (source, ·)

namespace JobBuilder

variable (b : JobBuilder)

/-- The job connects two workloads on a port that the destination declares. -/
structure Makes (mode : ProbeMode) (pair : Workload × Workload) (p : ContainerPort) (j : Job) :
    Prop where
  source : j.source = .of pair.1
  destination : j.destination = .of pair.2
  host : b.host mode pair.2 = .ok j.host
  port : j.port = p.servicePort
  portName : j.portName = p.name
  timeout : j.timeout = b.timeout
  expected : j.expected = none

theorem makes_of_job {mode : ProbeMode} {pair : Workload × Workload} {p : ContainerPort} {j : Job}
    (h : b.job mode pair.1 pair.2 p.servicePort p.name = .ok j) : b.Makes mode pair p j := by
  obtain ⟨host, hhost, hj⟩ := bind_eq_ok_iff.mp h
  obtain rfl := Except.ok.inj hj
  exact ⟨rfl, rfl, hhost, rfl, rfl, rfl, rfl⟩

variable {b} {config : ProbeConfig}

theorem pairJobs_eq_ok {pair : Workload × Workload} {js : Jobs}
    (h : b.pairJobs config pair.1 pair.2 = .ok js) :
    List.Forall₂ (b.Makes config.mode pair) (config.asked pair.2) js.valid ∧
      js.unresolvedNames = config.namesAside pair.1 pair.2 ∧
      js.unresolvedNumbers = config.numbersAside pair.1 pair.2 := by
  rw [pairJobs_eq, config.requests_eq_map_asked, List.mapM_map] at h
  obtain ⟨valid, hvalid, hjs⟩ := bind_eq_ok_iff.mp h
  obtain rfl := Except.ok.inj hjs
  exact ⟨(mapM_eq_ok_iff.mp hvalid).imp fun _ _ ↦ b.makes_of_job, rfl, rfl⟩

/-- What an enumeration consists of. -/
theorem enumerate_eq_ok {t : Topology} {js : Jobs} (h : b.enumerate t config = .ok js) :
    List.Forall₂ (fun e j ↦ b.Makes config.mode e.1 e.2 j)
        (t.pairs.flatMap fun pair ↦ (config.asked pair.2).map (pair, ·)) js.valid ∧
      js.unresolvedNames = t.pairs.flatMap (fun pair ↦ config.namesAside pair.1 pair.2) ∧
      js.unresolvedNumbers = t.pairs.flatMap (fun pair ↦ config.numbersAside pair.1 pair.2) := by
  obtain ⟨parts, hparts, hjs⟩ := bind_eq_ok_iff.mp h
  obtain rfl := Except.ok.inj hjs
  have hpairs : List.Forall₂ _ t.pairs parts :=
    (mapM_eq_ok_iff.mp hparts).imp fun pair part hpart ↦ pairJobs_eq_ok hpart
  refine ⟨List.rel_flatMap hpairs fun pair part hpart ↦ ?_,
    flatMap_eq_of_forall₂ (hpairs.imp fun _ _ hpart ↦ hpart.2.1),
    flatMap_eq_of_forall₂ (hpairs.imp fun _ _ hpart ↦ hpart.2.2)⟩
  rw [List.forall₂_map_left_iff]
  exact hpart.1

/-! ## The first destination without an address -/

instance (config : ProbeConfig) : DecidablePred config.Unaddressed :=
  fun _ ↦ inferInstanceAs (Decidable (config.mode = .podAddress ∧ _ ∧ _))

theorem exists_find?_unaddressed_iff {t : Topology} :
    (∃ d, t.workloads.find? (config.Unaddressed ·) = some d) ↔
      ∃ d ∈ t.workloads, config.Unaddressed d := by
  rw [← Option.isSome_iff_exists, List.find?_isSome]
  simp only [decide_eq_true_eq]

/-- The first source is enough to find a destination without an address. -/
theorem enumerate_eq_error {t : Topology} {d : Workload}
    (h : t.workloads.find? (config.Unaddressed ·) = some d) :
    b.enumerate t config = .error (.missingAddress d.key) := by
  obtain ⟨hd, before, after, hsplit, hbefore⟩ := List.find?_eq_some_iff_append.mp h
  rw [decide_eq_true_eq] at hd
  obtain ⟨source, rest, hworkloads⟩ := List.exists_cons_of_ne_nil (List.ne_nil_of_mem
    (List.mem_of_find?_eq_some h))
  -- the pairs of the first source come first, and they already pass every destination
  have hpairs : t.pairs = t.workloads.map (source, ·) ++
      rest.flatMap fun source ↦ t.workloads.map (source, ·) :=
    congrArg (fun l ↦ l.flatMap fun source ↦ t.workloads.map (source, ·)) hworkloads
  rw [hsplit, List.map_append, List.map_cons, List.append_assoc, List.cons_append] at hpairs
  have hmapM : t.pairs.mapM (fun pair ↦ b.pairJobs config pair.1 pair.2) =
      .error (.missingAddress d.key) := by
    rw [hpairs]
    refine mapM_eq_error (fun pair hpair ↦ ?_) ?_ _
    · obtain ⟨w, hw, rfl⟩ := List.mem_map.mp hpair
      rcases b.pairJobs_cases config source w with ⟨hunaddressed, -⟩ | ⟨-, js, heq, -⟩
      · simpa [hunaddressed] using hbefore w hw
      · exact ⟨js, heq⟩
    · rcases b.pairJobs_cases config source d with ⟨-, heq⟩ | ⟨haddressed, -⟩
      · exact heq
      · exact absurd hd haddressed
  exact congrArg (· >>= _) hmapM

end JobBuilder

/-! ## Distinct flows -/

namespace ProbeConfig

variable {config : ProbeConfig}

theorem nodup_flowsBetween_iff {source destination : Workload} :
    (config.flowsBetween source destination).Nodup ↔ (config.probed destination).Nodup :=
  List.nodup_map_iff fun _ _ h ↦ congrArg Flow.port h

theorem ends_of_mem_flowsBetween {source destination : Workload} {f : Flow}
    (h : f ∈ config.flowsBetween source destination) :
    f.source = source.key ∧ f.destination = destination.key := by
  obtain ⟨port, -, rfl⟩ := List.mem_map.mp h
  exact ⟨rfl, rfl⟩

/-- A flow is repeated only if a destination is probed twice on one port. -/
theorem nodup_flows_iff {t : Topology} (ht : t.Keyed) :
    (config.flows t).Nodup ↔ ∀ w ∈ t.workloads, (config.probed w).Nodup := by
  rw [flows, List.nodup_flatMap]
  constructor
  · -- every workload is among its own sources
    rintro ⟨hsources, -⟩ w hw
    obtain ⟨hpairs, -⟩ := List.nodup_flatMap.mp (hsources w hw)
    exact nodup_flowsBetween_iff.mp (hpairs w hw)
  · intro h
    have hne : ∀ {v w : Workload}, compare v.key w.key = .lt → v.key ≠ w.key := by
      intro v w hlt heq
      simp [heq] at hlt
    refine ⟨fun source _ ↦ List.nodup_flatMap.mpr
      ⟨fun w hw ↦ nodup_flowsBetween_iff.mpr (h w hw), ?_⟩, ?_⟩
    · refine ht.sorted_workloads.imp fun hlt f hf hf' ↦ hne hlt ?_
      rw [← (ends_of_mem_flowsBetween hf).2, (ends_of_mem_flowsBetween hf').2]
    · refine ht.sorted_workloads.imp fun hlt f hf hf' ↦ hne hlt ?_
      obtain ⟨w, -, hf⟩ := List.mem_flatMap.mp hf
      obtain ⟨w', -, hf'⟩ := List.mem_flatMap.mp hf'
      rw [← (ends_of_mem_flowsBetween hf).1, (ends_of_mem_flowsBetween hf').1]

theorem nodup_probed_single (port : PortRef) (protocol : Protocol) (mode : ProbeMode)
    (w : Workload) : (probed ⟨.single port protocol, mode⟩ w).Nodup := by
  rw [probed_eq_map_asked]
  simp only [asked]
  cases w.ports.find? (·.answers port protocol) <;> simp

end ProbeConfig

/-! ## Complete enumerations -/

theorem flatMap_ite_eq_map_filter {α β : Type} (p : α → Bool) (f : α → β) (l : List α) :
    (l.flatMap fun a ↦ if p a then [] else [f a]) = (l.filter (!p ·)).map f := by
  induction l with
  | nil => rfl
  | cons a l ih =>
    rw [List.flatMap_cons, ih, List.filter_cons]
    cases p a <;> rfl

/-- At most one result for each element is a result for the elements that have one. -/
theorem forall₂_filter_isSome {α β γ : Type} {P : α → β → γ → Prop} {f : α → Option β}
    {l : List α} {results : List γ}
    (h : List.Forall₂ (fun e c ↦ P e.1 e.2 c) (l.flatMap fun a ↦ (f a).toList.map (a, ·)) results) :
    List.Forall₂ (fun a c ↦ ∃ b, f a = some b ∧ P a b c) (l.filter fun a ↦ (f a).isSome)
      results := by
  induction l generalizing results with
  | nil => exact List.forall₂_nil_left_iff.mpr (List.forall₂_nil_left_iff.mp h)
  | cons a l ih =>
    rw [List.flatMap_cons] at h
    cases hfa : f a with
    | none =>
      rw [hfa] at h
      rw [List.filter_cons_of_neg (by simp [hfa])]
      exact ih h
    | some b =>
      rw [hfa] at h
      obtain ⟨c, results, hc, hrest, rfl⟩ := List.forall₂_cons_left_iff.mp h
      rw [List.filter_cons_of_pos (by simp [hfa])]
      exact .cons ⟨b, hfa, hc⟩ (ih hrest)

theorem Topology.length_pairs (t : Topology) :
    t.pairs.length = t.workloads.length * t.workloads.length := by
  rw [pairs, List.length_flatMap]
  simp

theorem Topology.Keyed.nodup_pairs {t : Topology} (ht : t.Keyed) :
    (t.pairs.map fun pair ↦ (pair.1.key, pair.2.key)).Nodup := by
  refine (ht.nodup_workloads.product ht.nodup_workloads).map_on fun pair hpair pair' hpair' h ↦ ?_
  obtain ⟨hs, hd⟩ := JobBuilder.mem_pairs_iff.mp hpair
  obtain ⟨hs', hd'⟩ := JobBuilder.mem_pairs_iff.mp hpair'
  obtain ⟨hsource, hdestination⟩ := Prod.mk.inj h
  exact Prod.ext (ht.eq_of_key_eq hs hs' hsource) (ht.eq_of_key_eq hd hd' hdestination)

/-- The pairs that are set aside for references of a kind. -/
def Jobs.setAside (js : Jobs) : PortRef → List UnresolvedJob
  | .number _ => js.unresolvedNumbers
  | .name _ => js.unresolvedNames

/-- The pairs that are set aside for references of the other kind. -/
def Jobs.setAsideOther (js : Jobs) : PortRef → List UnresolvedJob
  | .number _ => js.unresolvedNames
  | .name _ => js.unresolvedNumbers

namespace JobBuilder

/-- The jobs are for every declared port of every destination, and nothing is set aside. -/
structure ProbesAll (b : JobBuilder) (t : Topology) (mode : ProbeMode) (js : Jobs) : Prop where
  /-- There is one job for each source, destination and declaration, in this order. -/
  valid : List.Forall₂ (fun e j ↦ b.Makes mode e.1 e.2 j)
    (t.pairs.flatMap fun pair ↦ pair.2.ports.map (pair, ·)) js.valid
  names : js.unresolvedNames = []
  numbers : js.unresolvedNumbers = []
  /-- A flow is repeated only if some workload declares a port twice. -/
  nodup_iff : (js.valid.map Job.flow).Nodup ↔
    ∀ w ∈ t.workloads, (w.ports.map ContainerPort.servicePort).Nodup

/-- The jobs are for one port of each destination that declares it, and all other pairs of workloads
are set aside. -/
structure ProbesOne (b : JobBuilder) (t : Topology) (mode : ProbeMode) (port : PortRef)
    (protocol : Protocol) (js : Jobs) : Prop where
  /-- There is one job for each pair, in order, on the first declaration that is picked. -/
  valid : List.Forall₂ (fun pair j ↦ ∃ p,
      pair.2.ports.find? (·.answers port protocol) = some p ∧ b.Makes mode pair p j)
    (t.pairs.filter (·.2.declares port protocol)) js.valid
  setAside : js.setAside port = (t.pairs.filter (!·.2.declares port protocol)).map fun pair ↦
    ⟨pair.1.key, pair.2.key, port, protocol⟩
  setAsideOther : js.setAsideOther port = []
  /-- Every pair is in one of the two lists, and it is there once. -/
  partition : (js.valid.map (·.flow.ends) ++
      (js.setAside port).map fun u ↦ (u.source, u.destination)).Perm
    (t.pairs.map fun pair ↦ (pair.1.key, pair.2.key))
  nodup_pairs : (t.pairs.map fun pair ↦ (pair.1.key, pair.2.key)).Nodup
  length_add_length : js.valid.length + (js.setAside port).length =
    t.workloads.length * t.workloads.length
  nodup : (js.valid.map Job.flow).Nodup

variable {b : JobBuilder} {t : Topology} {config : ProbeConfig} {js : Jobs}

theorem flows_eq_of_enumerate (h : b.enumerate t config = .ok js) :
    js.valid.map Job.flow = config.flows t := by
  rcases b.enumerate_cases config t with ⟨d, -, -, herror⟩ | ⟨-, js', hok, hbuilds⟩
  · exact absurd (h.symm.trans herror) (by simp)
  · obtain rfl := Except.ok.inj (h.symm.trans hok)
    exact hbuilds.flows_eq

theorem probesAll_of_enumerate (ht : t.Keyed) {mode : ProbeMode}
    (h : b.enumerate t ⟨.all, mode⟩ = .ok js) : b.ProbesAll t mode js := by
  obtain ⟨hvalid, hnames, hnumbers⟩ := enumerate_eq_ok h
  refine ⟨hvalid, ?_, ?_, ?_⟩
  · rw [hnames]
    exact List.flatMap_eq_nil_iff.mpr fun _ _ ↦ rfl
  · rw [hnumbers]
    exact List.flatMap_eq_nil_iff.mpr fun _ _ ↦ rfl
  · rw [flows_eq_of_enumerate h, ProbeConfig.nodup_flows_iff ht]
    simp only [ProbeConfig.probed_eq_map_asked, ProbeConfig.asked]

theorem setAside_of_enumerate {port : PortRef} {protocol : Protocol} {mode : ProbeMode}
    (h : b.enumerate t ⟨.single port protocol, mode⟩ = .ok js) :
    js.setAsideOther port = [] ∧
      js.setAside port = (t.pairs.filter (!·.2.declares port protocol)).map fun pair ↦
        ⟨pair.1.key, pair.2.key, port, protocol⟩ := by
  obtain ⟨-, hnames, hnumbers⟩ := enumerate_eq_ok h
  cases port with
  | number n =>
    refine ⟨hnames.trans (List.flatMap_eq_nil_iff.mpr fun _ _ ↦ rfl), hnumbers.trans ?_⟩
    simp only [ProbeConfig.numbersAside, Workload.isSome_resolveNumbered]
    exact flatMap_ite_eq_map_filter _ _ _
  | name name =>
    refine ⟨hnumbers.trans (List.flatMap_eq_nil_iff.mpr fun _ _ ↦ rfl), hnames.trans ?_⟩
    simp only [ProbeConfig.namesAside, Workload.isSome_resolveNamed]
    exact flatMap_ite_eq_map_filter _ _ _

theorem probesOne_of_enumerate (ht : t.Keyed) {port : PortRef} {protocol : Protocol}
    {mode : ProbeMode} (h : b.enumerate t ⟨.single port protocol, mode⟩ = .ok js) :
    b.ProbesOne t mode port protocol js := by
  obtain ⟨hother, haside⟩ := setAside_of_enumerate h
  have hvalid : List.Forall₂ (fun pair j ↦ ∃ p,
      pair.2.ports.find? (·.answers port protocol) = some p ∧ b.Makes mode pair p j)
      (t.pairs.filter (·.2.declares port protocol)) js.valid := by
    simp only [← Workload.isSome_find?_ports]
    exact forall₂_filter_isSome (enumerate_eq_ok h).1
  have hends : js.valid.map (·.flow.ends) =
      (t.pairs.filter (·.2.declares port protocol)).map fun pair ↦ (pair.1.key, pair.2.key) := by
    refine map_eq_of_forall₂ (hvalid.imp fun pair j hj ↦ ?_)
    obtain ⟨p, -, hmakes⟩ := hj
    rw [Job.flow, Flow.ends, hmakes.source, hmakes.destination]
    rfl
  -- jobs and what is set aside are the two halves of one filter
  have hpartition := (List.filter_append_perm (·.2.declares port protocol) t.pairs).map
    fun pair ↦ (pair.1.key, pair.2.key)
  rw [List.map_append, ← hends] at hpartition
  refine ⟨hvalid, haside, hother, ?_, ht.nodup_pairs, ?_, ?_⟩
  · rw [haside, List.map_map]
    exact hpartition
  · have hlength := hpartition.length_eq
    rw [List.length_append, List.length_map, List.length_map, List.length_map,
      t.length_pairs] at hlength
    rw [haside, List.length_map, hlength]
  · rw [flows_eq_of_enumerate h, ProbeConfig.nodup_flows_iff ht]
    exact fun w _ ↦ ProbeConfig.nodup_probed_single port protocol mode w

/-- Jobs are only for declared ports. -/
theorem declared_of_enumerate (h : b.enumerate t config = .ok js) {j : Job} (hj : j ∈ js.valid) :
    ∃ d ∈ t.workloads, d.key = j.destination.key ∧ ∃ p ∈ d.ports, p.servicePort = j.port := by
  obtain ⟨hvalid, -⟩ := enumerate_eq_ok h
  obtain ⟨e, he, hmakes⟩ := exists_of_forall₂ hvalid hj
  obtain ⟨pair, hpair, he⟩ := List.mem_flatMap.mp he
  obtain ⟨p, hp, rfl⟩ := List.mem_map.mp he
  refine ⟨pair.2, (mem_pairs_iff.mp hpair).2, ?_, p, config.mem_ports_of_mem_asked hp,
    hmakes.port.symm⟩
  rw [hmakes.destination]
  rfl

end JobBuilder

/-- **The enumeration is complete.** Building the jobs of a topology fails exactly if they are
addressed by address and some destination that is probed has none; the first such destination is
named. Otherwise the jobs are as they should be, for all ports or for a single one. -/
theorem build_enumerates {t : Topology} (ht : t.Built) (b : JobBuilder) (config : ProbeConfig) :
    ((∃ e, b.build t config none = .error e) ↔ ∃ d ∈ t.workloads, config.Unaddressed d) ∧
      (∀ e, b.build t config none = .error e ↔
        ∃ d, t.workloads.find? (config.Unaddressed ·) = some d ∧ e = .missingAddress d.key) ∧
      ∀ js, b.build t config none = .ok js →
        (config.ports = .all → b.ProbesAll t config.mode js) ∧
        (∀ port protocol, config.ports = .single port protocol →
          b.ProbesOne t config.mode port protocol js) ∧
        ∀ j ∈ js.valid, ∃ d ∈ t.workloads, d.key = j.destination.key ∧
          ∃ p ∈ d.ports, p.servicePort = j.port := by
  rw [b.build_none]
  have herror : ∀ e, b.enumerate t config = .error e ↔
      ∃ d, t.workloads.find? (config.Unaddressed ·) = some d ∧ e = .missingAddress d.key := by
    intro e
    constructor
    · intro he
      rcases b.enumerate_cases config t with ⟨d, hd, hunaddressed, -⟩ | ⟨-, js, hok, -⟩
      · obtain ⟨d, hfind⟩ := JobBuilder.exists_find?_unaddressed_iff.mpr ⟨d, hd, hunaddressed⟩
        have hfirst := JobBuilder.enumerate_eq_error (b := b) hfind
        exact ⟨d, hfind, Except.error.inj (he.symm.trans hfirst)⟩
      · exact absurd (he.symm.trans hok) (by simp)
    · rintro ⟨d, hfind, rfl⟩
      exact JobBuilder.enumerate_eq_error hfind
  refine ⟨?_, herror, fun js hjs ↦ ⟨?_, ?_, fun j ↦ JobBuilder.declared_of_enumerate hjs⟩⟩
  · rw [← JobBuilder.exists_find?_unaddressed_iff]
    constructor
    · rintro ⟨e, he⟩
      obtain ⟨d, hfind, -⟩ := (herror e).mp he
      exact ⟨d, hfind⟩
    · rintro ⟨d, hfind⟩
      exact ⟨_, (herror _).mpr ⟨d, hfind, rfl⟩⟩
  · intro hports
    obtain ⟨ports, mode⟩ := config
    subst hports
    exact JobBuilder.probesAll_of_enumerate ht.keyed hjs
  · intro port protocol hports
    obtain ⟨ports, mode⟩ := config
    subst hports
    exact JobBuilder.probesOne_of_enumerate ht.keyed hjs

/-- A pod beside those of `pair` that declares no port. -/
def silentPod : Workload := ⟨⟨"x", "c"⟩, ∅, none, []⟩

/-- `pair` when its first pod runs, with the silent pod. -/
def Topology.trio : Topology where
  namespaces := SortedMap.ofList [("x",
    { Namespace.new "x" (SortedMap.ofList [("ns", "x")]) with
      workloads := SortedMap.ofList [
        ("a", { pairPod "a" with address := some (.v4 0x0A000001#32) }),
        ("b", pairPod "b"), ("c", silentPod)] })]

theorem Topology.built_trio : trio.Built := by
  have hsteps : (do
      (← pair.setAddress ⟨"x", "a"⟩ (.v4 0x0A000001#32)).addWorkload silentPod) = .ok trio := by
    decide +kernel
  obtain ⟨t, hset, hadd⟩ := bind_eq_ok_iff.mp hsteps
  exact ((Built.conventional ["x"] ["a", "b"] [⟨.tcp, 80⟩]).setAddress hset).addWorkload hadd

/-- A builder with the usual settings. -/
def someBuilder : JobBuilder := ⟨.ofSeconds 5, "cluster.local"⟩

/-- In `trio` three pairs have nothing to connect to. By address it is the second pod that is
missed, since the silent one is not probed. -/
theorem build_enumerates_trio :
    (∃ js, someBuilder.build .trio ⟨.single (.number 80) .tcp, .serviceName⟩ none = .ok js ∧
        someBuilder.ProbesOne .trio .serviceName (.number 80) .tcp js ∧ js.valid.length = 6) ∧
      someBuilder.build .trio ⟨.all, .podAddress⟩ none =
        .error (.missingAddress ⟨"x", "b"⟩) := by
  obtain ⟨-, -, hgood⟩ := build_enumerates Topology.built_trio someBuilder
    ⟨.single (.number 80) .tcp, .serviceName⟩
  obtain ⟨-, hfails, -⟩ := build_enumerates Topology.built_trio someBuilder ⟨.all, .podAddress⟩
  have hcount : (someBuilder.build .trio ⟨.single (.number 80) .tcp, .serviceName⟩ none).map
      (·.valid.length) = .ok 6 := by decide +kernel
  have hfirst : Topology.trio.workloads.find?
      (ProbeConfig.Unaddressed ⟨.all, .podAddress⟩ ·) = some (Topology.pairPod "b") := by
    decide +kernel
  refine ⟨?_, (hfails _).mpr ⟨_, hfirst, rfl⟩⟩
  cases hbuild : someBuilder.build .trio ⟨.single (.number 80) .tcp, .serviceName⟩ none with
  | error e =>
    rw [hbuild] at hcount
    exact absurd hcount (by simp [Except.map])
  | ok js =>
    rw [hbuild] at hcount
    obtain ⟨-, hone, -⟩ := hgood js hbuild
    exact ⟨js, rfl, hone _ _ rfl, Except.ok.inj hcount⟩

end Reachability
