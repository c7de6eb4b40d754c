import Reachability.Proofs.Outcome
import Reachability.Proofs.Prediction

/-!
# Outcomes of decisions

`Decides` says which decision a list of policies makes, reason included. Most statements that
compare two lists of policies are about outcomes alone, and an outcome depends on less: on whether
there are policies in force at all, and on which rules there are among them. Positions count no
longer, because a walk that came to a decision has met no rule that is stuck.

In a topology in which every workload has an address no rule is ever stuck, so every flow between
workloads is explained.
-/

namespace Reachability

variable {policies : List Policy} {d : Direction} {traffic : Traffic}

/-! ## Rules in force -/

/-- The rules of the policies that are in force for a direction of the traffic. -/
def rulesInForce (policies : List Policy) (d : Direction) (traffic : Traffic) : List Rule :=
  (inForce policies d traffic).flatMap (·.rules d)

theorem mem_inForce {p : Policy} :
    p ∈ inForce policies d traffic ↔ p ∈ policies ∧ p.governs (traffic.localEnd d).workload d :=
  List.mem_filter

theorem mem_rulesInForce {r : Rule} :
    r ∈ rulesInForce policies d traffic ↔
      ∃ p ∈ policies, p.governs (traffic.localEnd d).workload d ∧ r ∈ p.rules d := by
  simp only [rulesInForce, List.mem_flatMap, mem_inForce, and_assoc]

theorem inForce_eq_nil_iff :
    inForce policies d traffic = [] ↔
      ∀ p ∈ policies, ¬p.governs (traffic.localEnd d).workload d := List.filter_eq_nil_iff

theorem rule_mem_rulesInForce {p : Policy} {r : Rule} (hp : p ∈ inForce policies d traffic)
    (hr : r ∈ p.rules d) : r ∈ rulesInForce policies d traffic :=
  List.mem_flatMap.mpr ⟨p, hp, hr⟩

theorem Reached.mem {p : Policy} {r : Rule} (h : Reached policies d traffic p r) :
    p ∈ policies ∧ r ∈ p.rules d := by
  obtain ⟨before, after, earlier, later, rfl, hrules, -, -⟩ := h
  rw [hrules]
  exact ⟨by simp, by simp⟩

theorem Policy.rules_eq_nil_of_deniesAll {p : Policy} (h : p.deniesAll d) : p.rules d = [] := by
  rw [Policy.deniesAll, Bool.and_eq_true, List.isEmpty_iff] at h
  exact h.2

theorem Policy.governs_of_target_eq {p q : Policy} (h : p.target = q.target) (w : Workload)
    (d : Direction) : p.governs w d = q.governs w d := by
  rw [governs, governs, h]

/-! ## What an outcome depends on -/

namespace Decides

theorem unique {result result' : Except Error Decision} (h : Decides policies d traffic result)
    (h' : Decides policies d traffic result') : result = result' :=
  (decides_iff.mp h).symm.trans (decides_iff.mp h')

/-- Traffic is allowed where nothing is in force, and where a rule in force allows it. -/
theorem outcome_eq_allowed_iff {decision : Decision}
    (h : Decides policies d traffic (.ok decision)) :
    decision.outcome = .allowed ↔ inForce policies d traffic = [] ∨
      ∃ r ∈ rulesInForce policies d traffic, r.AllowsIn d traffic := by
  cases h with
  | untargeted none => exact iff_of_true rfl (Or.inl none)
  | @allowed p r reached free allows =>
    obtain ⟨hp, hr⟩ := reached.mem
    exact iff_of_true rfl (Or.inr ⟨r, rule_mem_rulesInForce hp hr, allows⟩)
  | unresolved passed undecided =>
    obtain ⟨p, hp, -⟩ := undecided
    refine iff_of_false (by simp) ?_
    rintro (hnil | ⟨r, hr, hallows⟩)
    · exact List.ne_nil_of_mem hp hnil
    · obtain ⟨q, hq, hrules⟩ := List.mem_flatMap.mp hr
      exact (passed q hq r hrules).2 hallows
  | noRules some denies =>
    refine iff_of_false (by simp) ?_
    rintro (hnil | ⟨r, hr, -⟩)
    · exact some hnil
    · obtain ⟨q, hq, hrules⟩ := List.mem_flatMap.mp hr
      exact List.ne_nil_of_mem hrules (Policy.rules_eq_nil_of_deniesAll (denies q hq))
  | noMatchingRule passed decided rules =>
    obtain ⟨p, hp, -⟩ := rules
    refine iff_of_false (by simp) ?_
    rintro (hnil | ⟨r, hr, hallows⟩)
    · exact List.ne_nil_of_mem hp hnil
    · obtain ⟨q, hq, hrules⟩ := List.mem_flatMap.mp hr
      exact (passed q hq r hrules).2 hallows

/-- Traffic is denied where something is in force, and no rule in force allows it or might. -/
theorem outcome_eq_denied_iff {decision : Decision}
    (h : Decides policies d traffic (.ok decision)) :
    decision.outcome = .denied ↔ inForce policies d traffic ≠ [] ∧
      ∀ r ∈ rulesInForce policies d traffic, ¬r.AllowsIn d traffic ∧ ¬r.UndecidedIn d traffic := by
  cases h with
  | untargeted none => exact iff_of_false (by simp) fun hnot ↦ hnot.1 none
  | @allowed p r reached free allows =>
    obtain ⟨hp, hr⟩ := reached.mem
    refine iff_of_false (by simp) fun hnot ↦ ?_
    exact (hnot.2 r (rule_mem_rulesInForce hp hr)).1 allows
  | unresolved passed undecided =>
    obtain ⟨p, hp, r, hr, hund⟩ := undecided
    refine iff_of_false (by simp) fun hnot ↦ ?_
    exact (hnot.2 r (rule_mem_rulesInForce hp hr)).2 hund
  | noRules some denies =>
    -- there is no rule in force, so nothing is to be shown
    refine iff_of_true rfl ⟨some, fun r hr ↦ ?_⟩
    obtain ⟨q, hq, hrules⟩ := List.mem_flatMap.mp hr
    exact absurd (Policy.rules_eq_nil_of_deniesAll (denies q hq)) (List.ne_nil_of_mem hrules)
  | noMatchingRule passed decided rules =>
    obtain ⟨p, hp, -⟩ := rules
    refine iff_of_true rfl ⟨List.ne_nil_of_mem hp, fun r hr ↦ ?_⟩
    obtain ⟨q, hq, hrules⟩ := List.mem_flatMap.mp hr
    exact ⟨(passed q hq r hrules).2, decided q hq r hrules⟩

/-- The outcome is known if every rule in force can tell. -/
theorem outcome_ne_unknown {decision : Decision} (h : Decides policies d traffic (.ok decision))
    (decided : ∀ r ∈ rulesInForce policies d traffic, ¬r.UndecidedIn d traffic) :
    decision.outcome ≠ .unknown := by
  cases h with
  | unresolved passed undecided =>
    obtain ⟨p, hp, r, hr, hund⟩ := undecided
    exact absurd hund (decided r (rule_mem_rulesInForce hp hr))
  | untargeted none => simp
  | allowed reached free allows => simp
  | noRules some denies => simp
  | noMatchingRule passed decided rules => simp

end Decides

theorem Outcome.eq_of_iff {a b : Outcome} (hallowed : a = .allowed ↔ b = .allowed)
    (hdenied : a = .denied ↔ b = .denied) : a = b := by
  cases a <;> cases b <;> simp_all

/-- Lists of policies give the same outcome if they govern alike, allow alike, and leave open
alike. -/
theorem Decides.outcome_eq {policies' : List Policy} {a b : Decision}
    (ha : Decides policies d traffic (.ok a)) (hb : Decides policies' d traffic (.ok b))
    (targeted : inForce policies d traffic = [] ↔ inForce policies' d traffic = [])
    (allows : (∃ r ∈ rulesInForce policies d traffic, r.AllowsIn d traffic) ↔
      ∃ r ∈ rulesInForce policies' d traffic, r.AllowsIn d traffic)
    (undecided : (∃ r ∈ rulesInForce policies d traffic, r.UndecidedIn d traffic) ↔
      ∃ r ∈ rulesInForce policies' d traffic, r.UndecidedIn d traffic) :
    a.outcome = b.outcome := by
  have hnone : ∀ rules : List Rule,
      (∀ r ∈ rules, ¬r.AllowsIn d traffic ∧ ¬r.UndecidedIn d traffic) ↔
        (¬∃ r ∈ rules, r.AllowsIn d traffic) ∧ ¬∃ r ∈ rules, r.UndecidedIn d traffic := by
    intro rules
    simp only [not_exists, not_and, ← forall_and]
  refine Outcome.eq_of_iff ?_ ?_
  · rw [ha.outcome_eq_allowed_iff, hb.outcome_eq_allowed_iff, targeted, allows]
  · rw [ha.outcome_eq_denied_iff, hb.outcome_eq_denied_iff, hnone, hnone, ne_eq, targeted, allows,
      undecided]

/-! ## Single policies -/

section Single

variable {p q : Policy}

theorem inForce_single_eq_nil_iff :
    inForce [p] d traffic = [] ↔ ¬p.governs (traffic.localEnd d).workload d := by
  rw [inForce_eq_nil_iff, List.forall_mem_singleton]

theorem inForce_single (h : p.governs (traffic.localEnd d).workload d) :
    inForce [p] d traffic = [p] := by
  simp [inForce, h]

theorem rulesInForce_single (h : p.governs (traffic.localEnd d).workload d) :
    rulesInForce [p] d traffic = p.rules d := by
  simp [rulesInForce, inForce_single h]

/-- A policy that does not govern the direction lets all traffic pass. -/
theorem Decides.single_of_not_governs (h : ¬p.governs (traffic.localEnd d).workload d) :
    Decides [p] d traffic (.ok ⟨.allowed, .untargeted⟩) :=
  .untargeted (inForce_single_eq_nil_iff.mpr h)

/-- Where a policy governs, traffic is allowed if one of its rules allows it. -/
theorem Decides.single_outcome_eq_allowed_iff {a : Decision}
    (h : Decides [p] d traffic (.ok a)) : a.outcome = .allowed ↔
      (p.governs (traffic.localEnd d).workload d → ∃ r ∈ p.rules d, r.AllowsIn d traffic) := by
  rw [h.outcome_eq_allowed_iff, inForce_single_eq_nil_iff]
  by_cases hgoverns : p.governs (traffic.localEnd d).workload d
  · rw [rulesInForce_single hgoverns]
    simp [hgoverns]
  · simp [hgoverns]

/-- Two policies for the same workloads give the same outcome if they allow alike, and if they
leave open alike. -/
theorem Decides.single_outcome_eq {a b : Decision} (ha : Decides [p] d traffic (.ok a))
    (hb : Decides [q] d traffic (.ok b)) (target : p.target = q.target)
    (allows : (∃ r ∈ p.rules d, r.AllowsIn d traffic) ↔ ∃ r ∈ q.rules d, r.AllowsIn d traffic)
    (undecided : (∃ r ∈ p.rules d, r.UndecidedIn d traffic) ↔
      ∃ r ∈ q.rules d, r.UndecidedIn d traffic) : a.outcome = b.outcome := by
  have htargets := Policy.governs_of_target_eq target (traffic.localEnd d).workload d
  by_cases hgoverns : p.governs (traffic.localEnd d).workload d
  · have hgoverns' := htargets ▸ hgoverns
    rw [← rulesInForce_single hgoverns, ← rulesInForce_single hgoverns'] at allows undecided
    refine ha.outcome_eq hb ?_ allows undecided
    rw [inForce_single_eq_nil_iff, inForce_single_eq_nil_iff, htargets]
  · have hgoverns' := htargets ▸ hgoverns
    obtain rfl := Except.ok.inj (ha.unique (.single_of_not_governs hgoverns))
    obtain rfl := Except.ok.inj (hb.unique (.single_of_not_governs hgoverns'))
    rfl

end Single

/-! ## Every flow is explained -/

/-- A decision is made if no rule in force is stuck. -/
theorem exists_decides_ok (free : ∀ r ∈ rulesInForce policies d traffic,
    ¬r.Stuck (traffic.peerEnd d)) : ∃ decision, Decides policies d traffic (.ok decision) := by
  have hdecides := decides_decideBy policies d traffic
  cases hresult : PolicyIndex.decideBy (inForce policies d traffic) d traffic with
  | ok decision =>
    rw [hresult] at hdecides
    exact ⟨decision, hdecides⟩
  | error e =>
    rw [hresult] at hdecides
    cases hdecides with
    | @missingAddress p r reached stuck =>
      obtain ⟨hp, hr⟩ := reached.mem
      exact absurd stuck (free r (rule_mem_rulesInForce hp hr))

/-- Every workload has an address. -/
def Topology.Addressed (t : Topology) : Prop := ∀ w ∈ t.workloads, w.address ≠ none

theorem Topology.addressed_runningPair : Topology.runningPair.Addressed := by
  have h : ∀ w ∈ Topology.runningPair.workloads, w.address ≠ none := by decide +kernel
  exact h

theorem Topology.Addressed.not_stuck {t : Topology} (h : t.Addressed) (ht : t.Keyed) {flow : Flow}
    (hof : Traffic.of t flow = .ok traffic) (d : Direction) (r : Rule) :
    ¬r.Stuck (traffic.peerEnd d) := by
  intro hstuck
  obtain ⟨-, key, hpeer⟩ := Traffic.exists_endpoint hof d
  exact h _ (ht.mem_workloads_of_endpoint hpeer).1 hstuck.address_eq_none

/-- The decision for a direction. -/
def Explanation.decision (e : Explanation) : Direction → Decision
  | .ingress => e.ingress
  | .egress => e.egress

namespace PolicyIndex

theorem explainFlow_eq {t : Topology} {flow : Flow} (hof : Traffic.of t flow = .ok traffic)
    (index : PolicyIndex) : index.explainFlow t flow = index.explain traffic := by
  rw [explainFlow, hof, ok_bind]

theorem explain_eq_ok_iff {index : PolicyIndex} {e : Explanation} :
    index.explain traffic = .ok e ↔ ∀ d, index.decide d traffic = .ok (e.decision d) := by
  rw [explain, bind_eq_ok_iff]
  constructor
  · rintro ⟨egress, hegress, h⟩
    obtain ⟨ingress, hingress, h⟩ := bind_eq_ok_iff.mp h
    obtain rfl := Except.ok.inj h
    intro d
    cases d with
    | ingress => exact hingress
    | egress => exact hegress
  · intro h
    exact ⟨e.egress, h .egress, bind_eq_ok_iff.mpr ⟨e.ingress, h .ingress, rfl⟩⟩

/-- The index decides the traffic as the list of policies does. -/
def Serves (index : PolicyIndex) (policies : List Policy) (traffic : Traffic) : Prop :=
  ∀ d result, index.decide d traffic = result ↔ Decides policies d traffic result

theorem serves_build {t : Topology} (ht : t.Keyed) (policies : List Policy) {flow : Flow}
    (hof : Traffic.of t flow = .ok traffic) : (build t policies).Serves policies traffic :=
  fun _ _ ↦ decides_of_decide ht hof

theorem Serves.explain_eq_ok_iff {index : PolicyIndex} (h : index.Serves policies traffic)
    {e : Explanation} :
    index.explain traffic = .ok e ↔ ∀ d, Decides policies d traffic (.ok (e.decision d)) :=
  PolicyIndex.explain_eq_ok_iff.trans (forall_congr' fun d ↦ h d _)

end PolicyIndex

/-- Where every workload has an address, every flow between workloads is explained. -/
theorem Topology.Addressed.exists_explain {t : Topology} (h : t.Addressed) (ht : t.Keyed)
    {flow : Flow} (hof : Traffic.of t flow = .ok traffic) (policies : List Policy) :
    ∃ e, (PolicyIndex.build t policies).explain traffic = .ok e ∧
      ∀ d, Decides policies d traffic (.ok (e.decision d)) := by
  have hdecided : ∀ d, ∃ decision, Decides policies d traffic (.ok decision) := by
    intro d
    exact exists_decides_ok fun r _ ↦ h.not_stuck ht hof d r
  obtain ⟨egress, hegress⟩ := hdecided .egress
  obtain ⟨ingress, hingress⟩ := hdecided .ingress
  have hdecides : ∀ d, Decides policies d traffic
      (.ok ((⟨egress, ingress⟩ : Explanation).decision d)) := by
    intro d
    cases d with
    | ingress => exact hingress
    | egress => exact hegress
  have hserves := PolicyIndex.serves_build ht policies hof
  exact ⟨⟨egress, ingress⟩, hserves.explain_eq_ok_iff.mpr hdecides, hdecides⟩

end Reachability
