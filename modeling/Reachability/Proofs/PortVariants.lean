import Reachability.Proofs.Dns
import Reachability.Proofs.Numeral

/-!
# Variants of ports on conventional models

In a conventional model every pod declares every served port under a name that is made from its
number and its protocol. The catalogue makes the same name from its typical port, without looking
at a topology, and the two meet because a number can be read back from its digits
(`ServicePort.eq_of_servedName_eq`). So the named variant of a port is resolved, and it picks the
typical port and no other, as the numbered variant does.

What the variants pick is first said of destinations that serve the typical port. It becomes a
decision because the policy for a variant has a single rule, with a single matcher and for all
peers, unless one for DNS is added to it.
-/

namespace Reachability

/-! ## Names of served ports -/

namespace ServicePort

/-- The name under which a conventional model declares a port. -/
def servedName (p : ServicePort) : String := s!"serve-{p.number.toNat}-{p.protocol.lowerName}"

theorem toList_servedName (p : ServicePort) :
    p.servedName.toList = "serve-".toList ++
      (Nat.toDigits 10 p.number.toNat ++ ('-' :: p.protocol.lowerName.toList)) := by
  simp [servedName, toString, Nat.repr]

/-- Ports of one protocol are told apart by their names. -/
theorem eq_of_servedName_eq {p q : ServicePort} (hprotocol : p.protocol = q.protocol)
    (hname : p.servedName = q.servedName) : p = q := by
  have hchars := congrArg String.toList hname
  rw [toList_servedName, toList_servedName, hprotocol, List.append_cancel_left_eq,
    List.append_cancel_right_eq] at hchars
  have hnumber : p.number.toNat = q.number.toNat := Text.toDigits_injective hchars
  cases p
  cases q
  rw [mk.injEq]
  exact ⟨hprotocol, UInt16.toNat_inj.mp hnumber⟩

/-- After the first dash there is a digit, so the name is not one that starts otherwise. -/
theorem servedName_ne_missing (p : ServicePort) : p.servedName ≠ "serve-missing" := by
  intro hname
  have hchars := congrArg String.toList hname
  rw [toList_servedName, show "serve-missing".toList = "serve-".toList ++ "missing".toList from rfl,
    List.append_cancel_left_eq] at hchars
  obtain ⟨c, digits, hdigits⟩ := List.exists_cons_of_ne_nil
    (Nat.toDigits_ne_nil (n := p.number.toNat) (b := 10))
  have hdigit : c.isDigit := Text.isDigit_of_mem_toDigits (hdigits ▸ List.mem_cons_self)
  rw [hdigits, List.cons_append] at hchars
  rw [(List.cons.inj hchars).1] at hdigit
  exact absurd hdigit (by decide)

end ServicePort

/-! ## Destinations that serve ports -/

/-- The workload declares these ports as a conventional model does. -/
def Workload.ServesConventionally (w : Workload) (ports : List ServicePort) : Prop :=
  w.containers = ports.map Container.serving

theorem Topology.servesConventionally {namespaces pods : List String} {ports : List ServicePort}
    {w : Workload} (hw : w ∈ (conventional namespaces pods ports).workloads) :
    w.ServesConventionally ports :=
  forall_workloads_conventional (P := fun w ↦ w.ServesConventionally ports) (fun _ _ ↦ rfl)
    namespaces pods w hw

namespace Workload.ServesConventionally

variable {w : Workload} {ports : List ServicePort} (h : w.ServesConventionally ports)
include h

theorem ports_eq :
    w.ports = ports.map fun p ↦ ⟨some p.servedName, p.number, p.protocol⟩ := by
  have hserving : ∀ p : ServicePort, (Container.serving p).ports =
      [⟨some p.servedName, p.number, p.protocol⟩] := by
    intro p
    simp [Container.serving, ServicePort.servedName, toString, String.append_assoc]
  rw [Workload.ports, h, List.flatMap_map, List.map_eq_flatMap]
  exact List.flatMap_congr fun p _ ↦ hserving p

theorem mem_ports_iff {d : ContainerPort} :
    d ∈ w.ports ↔ ∃ p ∈ ports, (⟨some p.servedName, p.number, p.protocol⟩ : ContainerPort) = d := by
  rw [h.ports_eq, List.mem_map]

/-- A served port is found by its name. -/
theorem resolveNamed_servedName {p : ServicePort} (hp : p ∈ ports) :
    w.resolveNamed p.servedName p.protocol = some p.number := by
  have hsome : (w.ports.find? fun d ↦
      d.protocol == p.protocol && d.name == some p.servedName).isSome :=
    List.find?_isSome.mpr ⟨_, h.mem_ports_iff.mpr ⟨p, hp, rfl⟩, by simp⟩
  obtain ⟨d, hd⟩ := Option.isSome_iff_exists.mp hsome
  -- whichever declaration is found first, it is one of the same port
  obtain ⟨q, -, rfl⟩ := h.mem_ports_iff.mp (List.mem_of_find?_eq_some hd)
  have hfound := List.find?_some hd
  rw [Bool.and_eq_true, beq_iff_eq, beq_iff_eq] at hfound
  have hq : q = p := ServicePort.eq_of_servedName_eq hfound.1 (Option.some.inj hfound.2)
  rw [Workload.resolveNamed, hd, hq]
  rfl

theorem resolveNamed_missing (protocol : Protocol) :
    w.resolveNamed "serve-missing" protocol = none := by
  rw [PortMatch.resolveNamed_eq_none_iff]
  rintro d hd ⟨-, hname⟩
  obtain ⟨p, -, rfl⟩ := h.mem_ports_iff.mp hd
  exact p.servedName_ne_missing (Option.some.inj hname)

end Workload.ServesConventionally

/-! ## What the variants pick -/

namespace Catalogue

/-- The names of the variants that pick the typical port. -/
def ownNames : List String := ["numbered", "named", "protocol-only", "range"]

variable (c : Catalogue)

theorem exists_mem_ports {variant : String} (h : variant ∈ portNames) :
    ∃ v ∈ c.ports, v.1 = variant := by
  rw [← c.names_ports] at h
  exact List.mem_map.mp h

section Picks

variable {w : Workload} {ports : List ServicePort} {v : String × PortMatch}
  {port : ServicePort}

/-- The variants are about the protocol of the typical port. -/
theorem protocol_eq_of_mem_ports (hv : v ∈ c.ports)
    (h : v.2.Covers port w ∨ v.2.Dangles port w) : c.port.protocol = port.protocol := by
  simp only [Catalogue.ports, List.mem_cons, List.not_mem_nil, or_false] at hv
  rcases hv with rfl | rfl | rfl | rfl | rfl | rfl <;>
    simp only [PortMatch.Covers, PortMatch.Dangles, or_false] at h
  · exact h.1
  · exact h.elim And.left And.left
  · exact h.1
  · exact h
  · exact h.elim And.left And.left
  · exact h.1

section Served

variable (hw : w.ServesConventionally ports) (hserved : c.port ∈ ports)
include hw hserved

theorem named_covers_iff :
    (PortMatch.name c.port.protocol c.port.servedName).Covers port w ↔ port = c.port := by
  rw [PortMatch.Covers, hw.resolveNamed_servedName hserved, Option.some.injEq]
  constructor
  · rintro ⟨hprotocol, hnumber⟩
    obtain ⟨protocol, n⟩ := port
    exact (ServicePort.mk.injEq ..).mpr ⟨hprotocol.symm, hnumber.symm⟩
  · rintro rfl
    exact ⟨rfl, rfl⟩

theorem not_named_dangles :
    ¬(PortMatch.name c.port.protocol c.port.servedName).Dangles port w := by
  rintro ⟨-, hnone⟩
  rw [← PortMatch.resolveNamed_eq_none_iff, hw.resolveNamed_servedName hserved] at hnone
  exact absurd hnone (by simp)

/-- What each variant says about the typical port itself. -/
theorem covers_own (hport : c.port.number ≠ 0) (hown : port = c.port) (hv : v ∈ c.ports) :
    (v.1 ∈ ownNames → v.2.Covers port w) ∧
      (v.1 = "other-number" → ¬v.2.Covers port w ∧ ¬v.2.Dangles port w) ∧
      (v.1 = "undeclared-name" → v.2.Dangles port w) := by
  subst hown
  simp only [Catalogue.ports, List.mem_cons, List.not_mem_nil, or_false] at hv
  rcases hv with rfl | rfl | rfl | rfl | rfl | rfl
  · exact ⟨fun _ ↦ PortMatch.covers_single_iff.mpr rfl, by simp, by simp⟩
  · exact ⟨fun _ ↦ (c.named_covers_iff hw hserved).mpr rfl, by simp, by simp⟩
  · -- the number beside the typical one is another one, also where it starts over
    refine ⟨by simp [ownNames], fun _ ↦ ⟨fun h ↦ ?_, id⟩, by simp⟩
    have heq := UInt16.le_antisymm h.2.1 h.2.2
    grind
  · exact ⟨fun _ ↦ rfl, by simp, by simp⟩
  · have hnone := hw.resolveNamed_missing c.port.protocol
    refine ⟨by simp [ownNames], by simp, fun _ ↦ ⟨rfl, ?_⟩⟩
    exact PortMatch.resolveNamed_eq_none_iff.mp hnone
  · -- the range has the typical number in it, also where an end of it is not beside the number
    refine ⟨fun _ ↦ ⟨rfl, ?_, ?_⟩, by simp, by simp⟩
    · grind
    · rw [Option.getD_some]
      grind

end Served

end Picks

end Catalogue

/-! ## Rules with one port matcher -/

section OnePort

variable {d : Direction} {traffic : Traffic} {m : PortMatch} {p : Policy}

theorem Rule.allowsIn_onePort_iff :
    (⟨[], [m]⟩ : Rule).AllowsIn d traffic ↔
      m.Covers traffic.port traffic.destination.workload := by
  rw [AllowsIn, allows_nil_iff, CoversPort]
  simp

theorem Rule.undecidedIn_onePort_iff :
    (⟨[], [m]⟩ : Rule).UndecidedIn d traffic ↔
      m.Dangles traffic.port traffic.destination.workload := by
  rw [UndecidedIn, undecided_nil_iff, PortUndecided]
  simp only [List.mem_singleton, forall_eq, exists_eq_left, and_iff_right_iff_imp]
  exact PortMatch.Dangles.not_covers

theorem Rule.passedOver_onePort (h : ¬m.Covers traffic.port traffic.destination.workload) :
    (⟨[], [m]⟩ : Rule).PassedOver d traffic :=
  ⟨not_stuck_nil, mt allowsIn_onePort_iff.mp h⟩

section Governs

variable (governs : p.governs (traffic.localEnd d).workload d) (rules : p.rules d = [⟨[], [m]⟩])
include governs rules

/-- A policy with a single rule for a port allows what the matcher picks. -/
theorem Decides.of_covers (h : m.Covers traffic.port traffic.destination.workload) :
    Decides [p] d traffic (.ok ⟨.allowed, .allowedBy p.id⟩) := by
  refine .allowed ?_ Rule.not_stuck_nil (Rule.allowsIn_onePort_iff.mpr h)
  rw [inForce_single governs]
  exact ⟨[], [], [], [], rfl, rules, by simp, by simp⟩

theorem Decides.of_dangles (h : m.Dangles traffic.port traffic.destination.workload) :
    Decides [p] d traffic (.ok ⟨.unknown, .unresolvedPort⟩) := by
  refine .unresolved ?_ ?_ <;> rw [inForce_single governs]
  · simpa [rules] using Rule.passedOver_onePort h.not_covers
  · simpa [rules] using Rule.undecidedIn_onePort_iff.mpr h

theorem Decides.of_passes (hcovers : ¬m.Covers traffic.port traffic.destination.workload)
    (hdangles : ¬m.Dangles traffic.port traffic.destination.workload) :
    Decides [p] d traffic (.ok ⟨.denied, .noMatchingRule⟩) := by
  refine .noMatchingRule ?_ ?_ ?_ <;> rw [inForce_single governs]
  · simpa [rules] using Rule.passedOver_onePort hcovers
  · simpa [rules, Rule.undecidedIn_onePort_iff] using hdangles
  · simp [Policy.deniesAll, rules]

end Governs

end OnePort

/-! ## Policies for ports -/

namespace Catalogue

variable (c : Catalogue) {d : Direction} {traffic : Traffic}

/-- The policy of a family of rules with a given name. -/
def rulePolicy? (d : Direction) (name : String) : Option Policy :=
  (c.policies (.rules d)).find? (·.name == policyName d name)

/-- The policies of a family are found by their names. -/
theorem rulePolicy?_of_mem {e : Entry} (he : e ∈ c.entries (.rules d)) :
    c.rulePolicy? d e.name = some (c.ofEntry d e) := by
  have hmem : c.ofEntry d e ∈ c.policies (.rules d) := c.mem_policies_iff.mpr ⟨e, he, rfl⟩
  have hsome : (c.rulePolicy? d e.name).isSome :=
    List.find?_isSome.mpr ⟨_, hmem, beq_iff_eq.mpr (c.name_ofEntry d e)⟩
  obtain ⟨p, hp⟩ := Option.isSome_iff_exists.mp hsome
  obtain ⟨e', he', rfl⟩ := c.mem_policies_iff.mp (List.mem_of_find?_eq_some hp)
  have hname := List.find?_some hp
  rw [name_ofEntry, beq_iff_eq] at hname
  -- names are not shared, so the entry that is found is the one that was asked for
  have heq : e' = e :=
    List.inj_on_of_nodup_map (c.nodup_names d) he' he (policyName_injective d hname)
  rw [hp, heq]
  rfl

theorem portEntry_mem {v : String × PortMatch} (hv : v ∈ c.ports) :
    c.portEntry v ∈ c.entries (.rules d) :=
  c.mem_entries_rules_iff.mpr (Or.inr (Or.inr (Or.inr ⟨v, hv, rfl⟩)))

/-- All policies of a family of rules are for the typical target. -/
theorem target_of_mem_policies {p : Policy} (hp : p ∈ c.policies (.rules d)) :
    p.target = ⟨c.typicalNamespace, typicalTarget, .only d⟩ := by
  obtain ⟨e, he, rfl⟩ := c.mem_policies_iff.mp hp
  refine (c.target_ofEntry d e).trans ?_
  rcases c.mem_entries_rules_iff.mp he with rfl | rfl | ⟨v, -, rfl⟩ | ⟨v, -, rfl⟩ <;> rfl

theorem governs_of_mem_policies {p q : Policy} (hp : p ∈ c.policies (.rules d))
    (hq : q ∈ c.policies (.rules d)) (w : Workload) (d' : Direction) :
    p.governs w d' = q.governs w d' :=
  Policy.governs_of_target_eq
    ((c.target_of_mem_policies hp).trans (c.target_of_mem_policies hq).symm) w d'

theorem commonRules_eq_nil (h : d = .ingress ∨ c.allowDns = false) : c.commonRules d = [] := by
  cases d with
  | ingress => rfl
  | egress => rw [commonRules, h.resolve_left (by simp), if_neg (by simp)]

/-- A policy for a port governs what any policy of its family governs, and has one rule if none is
added for DNS. -/
theorem governs_portEntry {w : Workload} (hrules : d = .ingress ∨ c.allowDns = false)
    (htarget : ∃ p ∈ c.policies (.rules d), p.governs w d) {v : String × PortMatch}
    (hv : v ∈ c.ports) :
    (c.ofEntry d (c.portEntry v)).governs w d ∧
      (c.ofEntry d (c.portEntry v)).rules d = [⟨[], [v.2]⟩] := by
  obtain ⟨p, hp, hgoverns⟩ := htarget
  have hmem : c.ofEntry d (c.portEntry v) ∈ c.policies (.rules d) :=
    c.mem_policies_iff.mpr ⟨_, c.portEntry_mem hv, rfl⟩
  refine ⟨c.governs_of_mem_policies hp hmem w d ▸ hgoverns, ?_⟩
  rw [rules_ofEntry, c.commonRules_eq_nil hrules, List.append_nil]
  rfl

/-- Whether some rule has a property is the same for two policies if it is for their entries. -/
theorem exists_rules_ofEntry_congr {P : Rule → Prop} {e e' : Entry}
    (h : (∃ r ∈ e.rules, P r) ↔ ∃ r ∈ e'.rules, P r) (d' : Direction) :
    (∃ r ∈ (c.ofEntry d e).rules d', P r) ↔ ∃ r ∈ (c.ofEntry d e').rules d', P r := by
  by_cases hd : d' = d
  · subst hd
    simp only [rules_ofEntry, List.mem_append, or_and_right, exists_or, h]
  · rw [rules_ofEntry_of_ne c d e hd, rules_ofEntry_of_ne c d e' hd]

/-- The rules that a policy for a port can put in force are its own one and the one for DNS. -/
theorem forall_rulesInForce_portEntry {P : Rule → Prop} (hdns : P dnsRule)
    {v : String × PortMatch} (hown : P ⟨[], [v.2]⟩) (d' : Direction) :
    ∀ r ∈ rulesInForce [c.ofEntry d (c.portEntry v)] d' traffic, P r := by
  have hentry : ∀ r ∈ (c.portEntry v).rules, P r := List.forall_mem_singleton.mpr hown
  intro r hr
  obtain ⟨p, hp, -, hrule⟩ := mem_rulesInForce.mp hr
  rw [List.mem_singleton.mp hp] at hrule
  exact (c.forall_rules_ofEntry hdns).mpr hentry d' r hrule

/-- No policy for a port looks at an address. -/
theorem exists_decides_portEntry (v : String × PortMatch) (d' : Direction) :
    ∃ a, Decides [c.ofEntry d (c.portEntry v)] d' traffic (.ok a) :=
  exists_decides_ok (c.forall_rulesInForce_portEntry (P := fun r ↦ ¬r.Stuck (traffic.peerEnd d'))
    Rule.not_stuck_nil Rule.not_stuck_nil d')

/-- What the policy for a variant of the port decides about a direction of the traffic. -/
def portDecision? (t : Topology) (d : Direction) (variant : String) (d' : Direction)
    (traffic : Traffic) : Option (Except Error Decision) :=
  (c.rulePolicy? d s!"port-{variant}").map fun p ↦ (PolicyIndex.build t [p]).decide d' traffic

section Decisions

variable {t : Topology} {flow : Flow} {ports : List ServicePort} {v : String × PortMatch}
  (ht : t.Keyed) (hof : Traffic.of t flow = .ok traffic)
include ht hof

theorem portDecision?_eq_some_iff (hv : v ∈ c.ports) {d' : Direction}
    {result : Except Error Decision} :
    c.portDecision? t d v.1 d' traffic = some result ↔
      Decides [c.ofEntry d (c.portEntry v)] d' traffic result := by
  have hpolicy : c.rulePolicy? d s!"port-{v.1}" = some (c.ofEntry d (c.portEntry v)) :=
    c.rulePolicy?_of_mem (c.portEntry_mem hv)
  rw [portDecision?, hpolicy, Option.map_some, Option.some.injEq]
  exact PolicyIndex.serves_build ht _ hof d' result

/-- The name of a served port stands for its number. -/
theorem portDecision?_named (hw : traffic.destination.workload.ServesConventionally ports)
    (hserved : c.port ∈ ports) (d' : Direction) :
    ∃ a b, c.portDecision? t d "named" d' traffic = some (.ok a) ∧
      c.portDecision? t d "numbered" d' traffic = some (.ok b) ∧
      a.outcome = b.outcome ∧ a.outcome ≠ .unknown := by
  let named : String × PortMatch := ("named", .name c.port.protocol c.port.servedName)
  let numbered : String × PortMatch := ("numbered", c.typicalPort)
  have hnamed : named ∈ c.ports := List.mem_cons_of_mem _ List.mem_cons_self
  have hnumbered : numbered ∈ c.ports := List.mem_cons_self
  have hexists : ∀ v, ∃ a, Decides [c.ofEntry d (c.portEntry v)] d' traffic (.ok a) :=
    fun v ↦ c.exists_decides_portEntry v d'
  obtain ⟨a, ha⟩ := hexists named
  obtain ⟨b, hb⟩ := hexists numbered
  have hdecided : ¬(⟨[], [named.2]⟩ : Rule).UndecidedIn d' traffic := by
    rw [Rule.undecidedIn_onePort_iff]
    exact c.not_named_dangles hw hserved
  have hdecided' : ¬(⟨[], [numbered.2]⟩ : Rule).UndecidedIn d' traffic := by
    rw [Rule.undecidedIn_onePort_iff]
    exact id
  refine ⟨a, b, (c.portDecision?_eq_some_iff ht hof hnamed).mpr ha,
    (c.portDecision?_eq_some_iff ht hof hnumbered).mpr hb, ?_, ?_⟩
  · refine ha.single_outcome_eq hb ?_ ?_ ?_
    · rw [target_ofEntry, target_ofEntry]
      rfl
    · refine c.exists_rules_ofEntry_congr ?_ d'
      simp only [portEntry, typicalEntry, List.mem_singleton, exists_eq_left,
        Rule.allowsIn_onePort_iff]
      exact (c.named_covers_iff hw hserved).trans PortMatch.covers_single_iff.symm
    · refine c.exists_rules_ofEntry_congr ?_ d'
      simp only [portEntry, typicalEntry, List.mem_singleton, exists_eq_left]
      exact iff_of_false hdecided hdecided'
  · refine ha.outcome_ne_unknown ?_
    exact c.forall_rulesInForce_portEntry (P := fun r ↦ ¬r.UndecidedIn d' traffic)
      not_undecidedIn_dnsRule hdecided d'

/-! ## What the variants decide -/

section Targeted

variable (hrules : d = .ingress ∨ c.allowDns = false)
  (htarget : ∃ p ∈ c.policies (.rules d), p.governs (traffic.localEnd d).workload d)
include hrules htarget

/-- A variant decides by what it picks. -/
theorem portDecision?_of_mem (hv : v ∈ c.ports) :
    (v.2.Covers traffic.port traffic.destination.workload →
      ∃ a, c.portDecision? t d v.1 d traffic = some (.ok a) ∧ a.outcome = .allowed) ∧
    (v.2.Dangles traffic.port traffic.destination.workload →
      c.portDecision? t d v.1 d traffic = some (.ok ⟨.unknown, .unresolvedPort⟩)) ∧
    (¬v.2.Covers traffic.port traffic.destination.workload →
      ¬v.2.Dangles traffic.port traffic.destination.workload →
        c.portDecision? t d v.1 d traffic = some (.ok ⟨.denied, .noMatchingRule⟩)) := by
  obtain ⟨hgoverns, hone⟩ := c.governs_portEntry hrules htarget hv
  simp only [c.portDecision?_eq_some_iff ht hof hv]
  refine ⟨?_, ?_, ?_⟩
  · intro hcovers
    exact ⟨_, .of_covers hgoverns hone hcovers, rfl⟩
  · intro hdangles
    exact .of_dangles hgoverns hone hdangles
  · intro hcovers hdangles
    exact .of_passes hgoverns hone hcovers hdangles

/-- What the variants decide about the typical port. -/
theorem portDecision?_own (hw : traffic.destination.workload.ServesConventionally ports)
    (hserved : c.port ∈ ports) (hport : c.port.number ≠ 0) (hown : traffic.port = c.port) :
    (∀ variant ∈ ownNames,
      ∃ a, c.portDecision? t d variant d traffic = some (.ok a) ∧ a.outcome = .allowed) ∧
    c.portDecision? t d "other-number" d traffic = some (.ok ⟨.denied, .noMatchingRule⟩) ∧
    c.portDecision? t d "undeclared-name" d traffic = some (.ok ⟨.unknown, .unresolvedPort⟩) := by
  have hpicks {v : String × PortMatch} (hv : v ∈ c.ports) :=
    c.covers_own hw hserved hport hown hv
  have hdecides {v : String × PortMatch} (hv : v ∈ c.ports) :=
    c.portDecision?_of_mem ht hof hrules htarget hv
  refine ⟨?_, ?_, ?_⟩
  · intro variant hmem
    have hname : variant ∈ portNames := by
      revert variant
      decide
    obtain ⟨v, hv, rfl⟩ := c.exists_mem_ports hname
    exact (hdecides hv).1 ((hpicks hv).1 hmem)
  · obtain ⟨v, hv, hname⟩ := c.exists_mem_ports (show "other-number" ∈ portNames by decide)
    obtain ⟨hcovers, hdangles⟩ := (hpicks hv).2.1 hname
    rw [← hname]
    exact (hdecides hv).2.2 hcovers hdangles
  · obtain ⟨v, hv, hname⟩ := c.exists_mem_ports (show "undeclared-name" ∈ portNames by decide)
    rw [← hname]
    exact (hdecides hv).2.1 ((hpicks hv).2.2 hname)

/-- No variant says anything about another protocol. -/
theorem portDecision?_other (hprotocol : traffic.port.protocol ≠ c.port.protocol) :
    ∀ variant ∈ portNames,
      c.portDecision? t d variant d traffic = some (.ok ⟨.denied, .noMatchingRule⟩) := by
  intro variant hmem
  obtain ⟨v, hv, rfl⟩ := c.exists_mem_ports hmem
  apply (c.portDecision?_of_mem ht hof hrules htarget hv).2.2
  · intro hcovers
    exact hprotocol (c.protocol_eq_of_mem_ports hv (Or.inl hcovers)).symm
  · intro hdangles
    exact hprotocol (c.protocol_eq_of_mem_ports hv (Or.inr hdangles)).symm

end Targeted

end Decisions

/-- **The variants of ports mean what they say.** Let the typical port be one of those that a
conventional model serves. For the flows of this model the policy that names the port gives the
outcomes of the one that numbers it, in both directions, and never an unknown one. Where the
policies of a family govern, and no rule for DNS is added to them, four of the variants allow the
typical port, one denies it, and one names a port that is not declared; all of them deny ports of
another protocol. -/
theorem port_variants_conventional {namespaces pods : List String} {ports : List ServicePort}
    (hport : c.port.number ≠ 0) (hserved : c.port ∈ ports) {source destination : Workload}
    (hs : source ∈ (Topology.conventional namespaces pods ports).workloads)
    (hd : destination ∈ (Topology.conventional namespaces pods ports).workloads)
    (port : ServicePort) :
    let t : Topology := .conventional namespaces pods ports
    ∃ traffic, Traffic.of t ⟨source.key, destination.key, port⟩ = .ok traffic ∧
      (∀ d d', ∃ a b, c.portDecision? t d "named" d' traffic = some (.ok a) ∧
        c.portDecision? t d "numbered" d' traffic = some (.ok b) ∧
        a.outcome = b.outcome ∧ a.outcome ≠ .unknown) ∧
      ∀ d, d = .ingress ∨ c.allowDns = false →
        (∃ p ∈ c.policies (.rules d), p.governs (traffic.localEnd d).workload d) →
        (port = c.port →
          (∀ variant ∈ ["numbered", "named", "protocol-only", "range"],
            ∃ a, c.portDecision? t d variant d traffic = some (.ok a) ∧ a.outcome = .allowed) ∧
          c.portDecision? t d "other-number" d traffic = some (.ok ⟨.denied, .noMatchingRule⟩) ∧
          c.portDecision? t d "undeclared-name" d traffic =
            some (.ok ⟨.unknown, .unresolvedPort⟩)) ∧
        (port.protocol ≠ c.port.protocol → ∀ variant ∈ portNames,
          c.portDecision? t d variant d traffic = some (.ok ⟨.denied, .noMatchingRule⟩)) := by
  intro t
  have ht : t.Keyed := .conventional namespaces pods ports
  obtain ⟨traffic, hof, -, -, -, hdestination, rfl⟩ := ht.traffic_eq_ok hs hd port
  have hw : traffic.destination.workload.ServesConventionally ports := by
    rw [hdestination]
    exact Topology.servesConventionally hd
  refine ⟨traffic, hof, fun d ↦ c.portDecision?_named ht hof hw hserved, fun d hrules htarget ↦ ?_⟩
  exact ⟨c.portDecision?_own ht hof hrules htarget hw hserved hport,
    c.portDecision?_other ht hof hrules htarget⟩

/-- The last port of all, which has no next one. -/
theorem port_variants_conventional_lastPort :
    let c : Catalogue := ⟨["x"], .v4 0x0A000009#32, ⟨.tcp, 65535⟩, false⟩
    let t : Topology := .conventional ["x"] ["a", "b"] [⟨.tcp, 65535⟩]
    let flow : Flow := ⟨⟨"x", "a"⟩, ⟨"x", "b"⟩, ⟨.tcp, 65535⟩⟩
    ∃ traffic, Traffic.of t flow = .ok traffic ∧
      (∃ a, c.portDecision? t .egress "range" .egress traffic = some (.ok a) ∧
        a.outcome = .allowed) ∧
      c.portDecision? t .egress "other-number" .egress traffic =
        some (.ok ⟨.denied, .noMatchingRule⟩) ∧
      c.portDecision? t .egress "undeclared-name" .egress traffic =
        some (.ok ⟨.unknown, .unresolvedPort⟩) := by
  intro c t flow
  let pod (name : String) : Workload :=
    { Topology.pairPod name with containers := [.serving ⟨.tcp, 65535⟩] }
  have ha : pod "a" ∈ t.workloads := by decide +kernel
  have hb : pod "b" ∈ t.workloads := by decide +kernel
  obtain ⟨traffic, hof, -, hdecides⟩ := c.port_variants_conventional (by decide)
    List.mem_cons_self ha hb ⟨.tcp, 65535⟩
  have htraffic : Traffic.of t flow = .ok traffic := hof
  have hgoverns : (do
      return (c.policies (.rules .egress)).any
        (·.governs ((← Traffic.of t flow).localEnd .egress).workload .egress)) =
      Except.ok true := by decide +kernel
  rw [htraffic, ok_bind] at hgoverns
  have htarget := List.any_eq_true.mp (Except.ok.inj hgoverns)
  obtain ⟨hallowed, hother, hundeclared⟩ := (hdecides .egress (Or.inr rfl) htarget).1 rfl
  exact ⟨traffic, htraffic, hallowed "range" (by decide), hother, hundeclared⟩

end Catalogue

end Reachability
