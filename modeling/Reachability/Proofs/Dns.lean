import Reachability.Proofs.Catalogue
import Reachability.Proofs.Verdict

/-!
# Allowing DNS

The rule that a catalogue adds for DNS looks at no peer and names its ports by their numbers, so it
is never stuck, it can always tell, and what it allows is read off the port alone. Two policies that
differ in this rule therefore give the same outcome on every other port, also where there is no rule
without it: a policy that governs a workload denies by having no rules as it does by having none
that matches.
-/

namespace Reachability

/-- The port is one of the two on which names are looked up. -/
def ServicePort.IsDns (p : ServicePort) : Prop := p = ⟨.udp, 53⟩ ∨ p = ⟨.tcp, 53⟩

/-! ## The rule for DNS -/

namespace Catalogue

variable {d : Direction} {traffic : Traffic}

theorem allowsIn_dnsRule_iff : dnsRule.AllowsIn d traffic ↔ traffic.port.IsDns := by
  have hudp : (PortMatch.number .udp 53 none).Covers traffic.port traffic.destination.workload ↔
      traffic.port = ⟨.udp, 53⟩ := PortMatch.covers_single_iff (p := ⟨.udp, 53⟩)
  have htcp : (PortMatch.number .tcp 53 none).Covers traffic.port traffic.destination.workload ↔
      traffic.port = ⟨.tcp, 53⟩ := PortMatch.covers_single_iff (p := ⟨.tcp, 53⟩)
  rw [Rule.AllowsIn, dnsRule, Rule.allows_nil_iff, Rule.CoversPort, ServicePort.IsDns, ← hudp,
    ← htcp]
  simp

theorem not_undecidedIn_dnsRule : ¬dnsRule.UndecidedIn d traffic := by
  rw [Rule.UndecidedIn, dnsRule, Rule.undecided_nil_iff]
  rintro ⟨-, m, hm, hdangles⟩
  rw [List.mem_cons, List.mem_singleton] at hm
  rcases hm with rfl | rfl <;> exact hdangles

end Catalogue

/-! ## Policies with the rule -/

open PolicyIndex

/-- Between any two workloads the first policy lets DNS traffic out. For all other traffic out of a
workload the outcome is that of the second policy, and for all traffic into one the decision is. -/
def Policy.AddsDns (t : Topology) (p q : Policy) : Prop :=
  ∀ source ∈ t.workloads, ∀ destination ∈ t.workloads, ∀ port : ServicePort,
    ∃ a b : Explanation,
      (build t [p]).explainFlow t ⟨source.key, destination.key, port⟩ = .ok a ∧
      (build t [q]).explainFlow t ⟨source.key, destination.key, port⟩ = .ok b ∧
      (port.IsDns → a.egress.outcome = .allowed) ∧
      (¬port.IsDns → a.egress.outcome = b.egress.outcome) ∧
      a.ingress = b.ingress

/-- The rule is the only difference of two policies for egress. -/
theorem Policy.addsDns_of_rules {t : Topology} (ht : t.Keyed) (haddressed : t.Addressed)
    {p q : Policy} (target : p.target = q.target) (only : ¬p.target.directions.contains .ingress)
    (rules : p.rules .egress = q.rules .egress ++ [Catalogue.dnsRule]) : p.AddsDns t q := by
  intro source hs destination hd port
  obtain ⟨traffic, hof, -, -, -, -, rfl⟩ := ht.traffic_eq_ok hs hd port
  obtain ⟨a, ha, hdecides⟩ := haddressed.exists_explain ht hof [p]
  obtain ⟨b, hb, hdecides'⟩ := haddressed.exists_explain ht hof [q]
  refine ⟨a, b, (explainFlow_eq hof _).trans ha, (explainFlow_eq hof _).trans hb, ?_, ?_, ?_⟩
  · intro hdns
    apply (hdecides .egress).single_outcome_eq_allowed_iff.mpr
    intro _
    refine ⟨Catalogue.dnsRule, ?_, Catalogue.allowsIn_dnsRule_iff.mpr hdns⟩
    rw [rules]
    exact List.mem_append_right _ List.mem_cons_self
  · -- the rule adds nothing that allows the traffic, and nothing that leaves it open
    intro hother
    refine (hdecides .egress).single_outcome_eq (hdecides' .egress) target ?_ ?_
    · simp [rules, or_and_right, exists_or, Catalogue.allowsIn_dnsRule_iff, hother]
    · simp [rules, or_and_right, exists_or, Catalogue.not_undecidedIn_dnsRule]
  · -- neither governs ingress, so both let everything in for the same reason
    have hnot : ∀ w, ¬p.governs w .ingress := by
      intro w hgoverns
      rw [governs, Bool.and_eq_true] at hgoverns
      exact only hgoverns.2
    have hnot' : ∀ w, ¬q.governs w .ingress := by
      intro w
      rw [← governs_of_target_eq target]
      exact hnot w
    have hingress := (hdecides .ingress).unique (.single_of_not_governs (hnot _))
    have hingress' := (hdecides' .ingress).unique (.single_of_not_governs (hnot' _))
    exact Except.ok.inj (hingress.trans hingress'.symm)

namespace Catalogue

/-- Whether DNS is allowed makes no difference to the entries. -/
theorem entries_allowDns (c : Catalogue) (allowDns : Bool) (mode : CatalogueMode) :
    entries { c with allowDns } mode = c.entries mode := by
  cases mode <;> rfl

/-- **Allowing DNS allows DNS and nothing else.** The policies for egress of a catalogue that allows
DNS and of the one that does not pair up, and in a topology in which every workload has an address
each pair differs in the DNS traffic that is let out and in nothing else. -/
theorem policies_addsDns (c : Catalogue) {mode : CatalogueMode} (hmode : mode.direction = .egress)
    {t : Topology} (ht : t.Built) (haddressed : t.Addressed) :
    List.Forall₂ (Policy.AddsDns t) (policies { c with allowDns := true } mode)
      (policies { c with allowDns := false } mode) := by
  rw [policies_eq_map, policies_eq_map, entries_allowDns c true, entries_allowDns c false, hmode,
    List.forall₂_map_left_iff, List.forall₂_map_right_iff, List.forall₂_same]
  intro e _
  refine Policy.addsDns_of_rules ht.keyed haddressed ?_ ?_ ?_
  · rw [target_ofEntry, target_ofEntry]
  · rw [contains_ofEntry_iff]
    exact Direction.noConfusion
  · rw [rules_ofEntry, rules_ofEntry]
    exact congrArg (· ++ _) (List.append_nil e.rules).symm

/-- A pod that may send nothing may look up names once this is allowed. -/
theorem policies_addsDns_runningPair :
    let p : Policy := ⟨"egress-deny-all", ⟨"x", typicalTarget, .only .egress⟩, [], [dnsRule]⟩
    let q : Policy := ⟨"egress-deny-all", ⟨"x", typicalTarget, .only .egress⟩, [], []⟩
    let flow : Flow := ⟨⟨"x", "a"⟩, ⟨"x", "b"⟩, ⟨.udp, 53⟩⟩
    p.AddsDns .runningPair q ∧
      (build .runningPair [q]).explainFlow .runningPair flow =
        .ok ⟨⟨.denied, .noRules⟩, ⟨.allowed, .untargeted⟩⟩ ∧
      ∃ e, (build .runningPair [p]).explainFlow .runningPair flow = .ok e ∧
        e.egress.outcome = .allowed := by
  intro p q flow
  have hmode : (CatalogueMode.rules .egress).direction = .egress := rfl
  have hpairs := someCatalogue.policies_addsDns hmode Topology.built_runningPair
    Topology.addressed_runningPair
  -- the policies without a rule of their own are the first ones
  obtain ⟨hpair, -⟩ := List.forall₂_cons.mp hpairs
  let source := { Topology.pairPod "a" with address := some (.v4 0x0A000001#32) }
  let destination := { Topology.pairPod "b" with address := some (.v4 0x0A000002#32) }
  have hsource : source ∈ Topology.runningPair.workloads := by decide +kernel
  have hdestination : destination ∈ Topology.runningPair.workloads := by decide +kernel
  obtain ⟨e, -, he, -, hdns, -, -⟩ := hpair _ hsource _ hdestination ⟨.udp, 53⟩
  exact ⟨hpair, by decide +kernel, e, he, hdns (Or.inl rfl)⟩

end Catalogue

end Reachability
