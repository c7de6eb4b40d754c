import Reachability.Proofs.Verdict

/-!
# More policies, more rules, more traffic

What adding to a list of policies does to the outcome of a flow. The outcome of the policies in
force is a disjunction over their rules, so whatever adds to the disjunction never lowers it. There
are two exceptions, and they are the same exception at two levels: an empty list stands for
everything. The first policy that governs a workload ends the default by which all traffic passes,
and the first peer or port matcher of a rule ends the rule's indifference to peers or ports. Both
can only lower an outcome.

A rule is compared with another one by what they say about the traffic (`Rule.AtMost`), two lists of
policies by the rules in force (`Decides.outcome_le`), and all results below are instances of that
comparison.
-/

namespace Reachability

/-! ## Comparing rules -/

namespace Rule

variable (d : Direction) (traffic : Traffic)

/-- Whatever the first rule allows the second one allows, and what the first might allow the second
allows or might allow. -/
def AtMost (r s : Rule) : Prop :=
  (r.AllowsIn d traffic → s.AllowsIn d traffic) ∧
    (r.UndecidedIn d traffic → s.AllowsIn d traffic ∨ s.UndecidedIn d traffic)

variable {d : Direction} {traffic : Traffic} {r s : Rule}

theorem AtMost.refl (r : Rule) : r.AtMost d traffic r := ⟨id, Or.inr⟩

/-- Rules with the same ports are compared by their peers. -/
theorem atMost_of_peers (hports : r.ports = s.ports)
    (hpeers : r.PeerMatches (traffic.peerEnd d) → s.PeerMatches (traffic.peerEnd d)) :
    r.AtMost d traffic s := by
  simp only [AtMost, AllowsIn, UndecidedIn, Allows, Undecided, CoversPort, PortUndecided, hports]
  exact ⟨fun h ↦ ⟨hpeers h.1, h.2⟩, fun h ↦ Or.inr ⟨hpeers h.1, h.2⟩⟩

/-- Rules with the same peers are compared by their ports. -/
theorem atMost_of_ports (hpeers : r.peers = s.peers)
    (hcovers : r.CoversPort traffic.port traffic.destination.workload →
      s.CoversPort traffic.port traffic.destination.workload)
    (hundecided : r.PortUndecided traffic.port traffic.destination.workload →
      s.CoversPort traffic.port traffic.destination.workload ∨
        s.PortUndecided traffic.port traffic.destination.workload) :
    r.AtMost d traffic s := by
  simp only [AtMost, AllowsIn, UndecidedIn, Allows, Undecided, PeerMatches, hpeers]
  refine ⟨fun h ↦ ⟨h.1, hcovers h.2⟩, fun h ↦ ?_⟩
  exact (hundecided h.2).imp (And.intro h.1) (And.intro h.1)

end Rule

/-! ## Edits of rules -/

theorem subset_insert {α : Type} (before : List α) (a : α) (after : List α) :
    before ++ after ⊆ before ++ a :: after :=
  ((List.sublist_cons_self a after).append_left before).subset

theorem mem_replace {α : Type} {before after : List α} {a x : α} (b : α)
    (h : x ∈ before ++ a :: after) : x = a ∨ x ∈ before ++ b :: after := by
  simp only [List.mem_append, List.mem_cons] at h ⊢
  rcases h with h | h | h
  · exact Or.inr (Or.inl h)
  · exact Or.inl h
  · exact Or.inr (Or.inr (Or.inr h))

/-- One more peer or one more port matcher, anywhere in a list that has some. -/
inductive Rule.Widened : Rule → Rule → Prop
  | peer {before after : List Peer} (some : before ++ after ≠ []) (p : Peer)
    (ports : List PortMatch) : Widened ⟨before ++ after, ports⟩ ⟨before ++ p :: after, ports⟩
  | port {before after : List PortMatch} (some : before ++ after ≠ []) (peers : List Peer)
    (m : PortMatch) : Widened ⟨peers, before ++ after⟩ ⟨peers, before ++ m :: after⟩

/-- The first peer or the first port matcher, in a list that stood for everything. -/
inductive Rule.Restricted : Rule → Rule → Prop
  | peer (p : Peer) (ports : List PortMatch) : Restricted ⟨[], ports⟩ ⟨[p], ports⟩
  | port (peers : List Peer) (m : PortMatch) : Restricted ⟨peers, []⟩ ⟨peers, [m]⟩

namespace Rule

variable {d : Direction} {traffic : Traffic} {r s : Rule}

theorem Widened.atMost (h : r.Widened s) : r.AtMost d traffic s := by
  cases h with
  | @peer before after some p ports =>
    refine atMost_of_peers rfl ?_
    rintro (hnil | ⟨q, hq, hmatches⟩)
    · exact absurd hnil some
    · exact Or.inr ⟨q, subset_insert before p after hq, hmatches⟩
  | @port before after some peers m =>
    have hmem := subset_insert before m after
    refine atMost_of_ports rfl ?_ fun hundecided ↦ ?_
    · rintro (hnil | ⟨n, hn, hcovers⟩)
      · exact absurd hnil some
      · exact Or.inr ⟨n, hmem hn, hcovers⟩
    · -- the new matcher covers the port, or the old ones leave it open
      obtain ⟨hold, n, hn, hdangles⟩ := hundecided
      by_cases hm : ∃ n ∈ before ++ m :: after, n.Covers traffic.port traffic.destination.workload
      · exact Or.inl (Or.inr hm)
      · exact Or.inr ⟨fun n hn hcovers ↦ hm ⟨n, hn, hcovers⟩, n, hmem hn, hdangles⟩

theorem Restricted.atMost (h : r.Restricted s) : s.AtMost d traffic r := by
  cases h with
  | peer p ports => exact atMost_of_peers rfl fun _ ↦ Or.inl rfl
  | port peers m => exact atMost_of_ports rfl (fun _ ↦ Or.inl rfl) fun _ ↦ Or.inl (Or.inl rfl)

end Rule

/-- One more rule, anywhere in a list, or more of what one of its rules lists. -/
inductive RulesWidened : List Rule → List Rule → Prop
  | insert (before : List Rule) (r : Rule) (after : List Rule) :
    RulesWidened (before ++ after) (before ++ r :: after)
  | replace {r s : Rule} (before : List Rule) (h : r.Widened s) (after : List Rule) :
    RulesWidened (before ++ r :: after) (before ++ s :: after)

/-- A first peer or a first port matcher for one of the rules of a list. -/
inductive RulesRestricted : List Rule → List Rule → Prop
  | replace {r s : Rule} (before : List Rule) (h : r.Restricted s) (after : List Rule) :
    RulesRestricted (before ++ r :: after) (before ++ s :: after)

/-- Each rule of the first list has one in the second list that lets as much pass. -/
def RulesAtMost (d : Direction) (traffic : Traffic) (l l' : List Rule) : Prop :=
  ∀ r ∈ l, ∃ s ∈ l', r.AtMost d traffic s

section RulesAtMost

variable {d : Direction} {traffic : Traffic} {l l' : List Rule}

theorem RulesAtMost.refl (l : List Rule) : RulesAtMost d traffic l l :=
  fun r hr ↦ ⟨r, hr, .refl r⟩

theorem RulesAtMost.of_subset (h : l ⊆ l') : RulesAtMost d traffic l l' :=
  fun r hr ↦ ⟨r, h hr, .refl r⟩

theorem RulesAtMost.of_replace {r s : Rule} (h : r.AtMost d traffic s) (before after : List Rule) :
    RulesAtMost d traffic (before ++ r :: after) (before ++ s :: after) := by
  intro q hq
  rcases mem_replace s hq with rfl | hq
  · exact ⟨s, by simp, h⟩
  · exact ⟨q, hq, .refl q⟩

theorem RulesWidened.rulesAtMost (h : RulesWidened l l') : RulesAtMost d traffic l l' := by
  cases h with
  | insert before r after => exact .of_subset (subset_insert before r after)
  | replace before h after => exact .of_replace h.atMost before after

theorem RulesRestricted.rulesAtMost (h : RulesRestricted l l') : RulesAtMost d traffic l' l := by
  cases h with
  | replace before h after => exact .of_replace h.atMost before after

end RulesAtMost

/-! ## Comparing lists of policies -/

/-- The policy with other rules for a direction. -/
def Policy.withRules (p : Policy) (d : Direction) (rules : List Rule) : Policy :=
  match d with
  | .ingress => { p with ingress := rules }
  | .egress => { p with egress := rules }

namespace Policy

variable (p : Policy) (d : Direction) (rules : List Rule)

theorem target_withRules : (p.withRules d rules).target = p.target := by
  cases d <;> rfl

theorem rules_withRules (d' : Direction) :
    (p.withRules d rules).rules d' = if d' = d then rules else p.rules d' := by
  cases d <;> cases d' <;> rfl

end Policy

variable {policies policies' before after : List Policy} {d : Direction} {traffic : Traffic}

/-- Where the rules in force let as much pass, the outcome is at least as high, unless the second
list is the first to govern the direction. -/
theorem Decides.outcome_le {a b : Decision} (ha : Decides policies d traffic (.ok a))
    (hb : Decides policies' d traffic (.ok b))
    (targeted : inForce policies d traffic = [] → inForce policies' d traffic = [])
    (rules : RulesAtMost d traffic (rulesInForce policies d traffic)
      (rulesInForce policies' d traffic)) : a.outcome ≤ b.outcome := by
  rw [Outcome.le_iff, ha.outcome_eq_allowed_iff, hb.outcome_eq_allowed_iff,
    ha.outcome_eq_denied_iff, hb.outcome_eq_denied_iff]
  constructor
  · rintro (hnil | ⟨r, hr, hallows⟩)
    · exact Or.inl (targeted hnil)
    · obtain ⟨s, hs, hatMost⟩ := rules r hr
      exact Or.inr ⟨s, hs, hatMost.1 hallows⟩
  · rintro ⟨hne, hnone⟩
    refine ⟨fun hnil ↦ hne (targeted hnil), fun r hr ↦ ?_⟩
    obtain ⟨s, hs, hatMost⟩ := rules r hr
    obtain ⟨hallows, hundecided⟩ := hnone s hs
    exact ⟨fun h ↦ hallows (hatMost.1 h), fun h ↦ (hatMost.2 h).elim hallows hundecided⟩

/-- Where one policy is replaced by another one for the same workloads, its rules decide. -/
theorem Decides.outcome_le_of_replace {p q : Policy} {a b : Decision}
    (ha : Decides (before ++ p :: after) d traffic (.ok a))
    (hb : Decides (before ++ q :: after) d traffic (.ok b))
    (target : q.target = p.target) (rules : RulesAtMost d traffic (p.rules d) (q.rules d)) :
    a.outcome ≤ b.outcome := by
  have hgoverns : ∀ w, q.governs w d = p.governs w d :=
    fun w ↦ Policy.governs_of_target_eq target w d
  refine ha.outcome_le hb (fun hnil ↦ ?_) fun r hr ↦ ?_
  · -- where the new policy governs the old one governed already
    rw [inForce_eq_nil_iff] at hnil ⊢
    intro s hs
    rcases mem_replace p hs with rfl | hs
    · rw [hgoverns]
      exact hnil p (by simp)
    · exact hnil s hs
  · obtain ⟨s, hs, hforce, hrule⟩ := mem_rulesInForce.mp hr
    rcases mem_replace q hs with rfl | hs
    · obtain ⟨r', hr', hatMost⟩ := rules r hrule
      have hforce' := (hgoverns _).trans hforce
      exact ⟨r', mem_rulesInForce.mpr ⟨q, by simp, hforce', hr'⟩, hatMost⟩
    · exact ⟨r, mem_rulesInForce.mpr ⟨s, hs, hforce, hrule⟩, .refl r⟩

/-- What relates the new rules of a direction to the old ones relates those of all directions. -/
theorem Policy.rel_rules_withRules {R : List Rule → List Rule → Prop} (refl : ∀ l, R l l)
    {p : Policy} {d : Direction} {rules : List Rule} (h : R (p.rules d) rules) (d' : Direction) :
    R (p.rules d') ((p.withRules d rules).rules d') := by
  rw [rules_withRules]
  split
  · rename_i heq
    exact heq ▸ h
  · exact refl _

/-! ## One more policy -/

theorem inForce_insert_of_not_governs {q : Policy}
    (h : ¬q.governs (traffic.localEnd d).workload d) :
    inForce (before ++ q :: after) d traffic = inForce (before ++ after) d traffic := by
  simp [inForce, h]

theorem inForce_insert_of_only {q : Policy}
    (hothers : inForce (before ++ after) d traffic = [])
    (h : q.governs (traffic.localEnd d).workload d) :
    inForce (before ++ q :: after) d traffic = inForce [q] d traffic := by
  rw [inForce, List.filter_append, List.append_eq_nil_iff] at hothers
  simp [inForce, h, hothers.1, hothers.2]

/-- Lists with the same policies in force make the same decisions. -/
theorem Decides.eq_of_inForce_eq {a b : Decision} (ha : Decides policies d traffic (.ok a))
    (hb : Decides policies' d traffic (.ok b))
    (h : inForce policies d traffic = inForce policies' d traffic) : a = b := by
  rw [decides_iff] at ha hb
  rw [h] at ha
  exact Except.ok.inj (ha.symm.trans hb)

/-! ## Explanations -/

/-- Neither a direction of the flow nor the flow as a whole gets a higher outcome from the second
explanation. -/
def Explanation.AtMost (e e' : Explanation) : Prop :=
  (∀ d, (e.decision d).outcome ≤ (e'.decision d).outcome) ∧ e.outcome ≤ e'.outcome

theorem Explanation.atMost_of_decisions {e e' : Explanation}
    (h : ∀ d, (e.decision d).outcome ≤ (e'.decision d).outcome) : e.AtMost e' :=
  ⟨h, inf_le_inf (h .egress) (h .ingress)⟩

open PolicyIndex

/-- **Policies add up.** In a topology in which every workload has an address, inserting a policy
changes nothing where it does not govern, never lowers an outcome where another policy governs, and
takes its own outcome where it is the first to govern. A further rule, and a further peer or port
matcher beside others, never lower an outcome of the flow; a first peer or port matcher never raises
one. -/
theorem explain_build_additive {t : Topology} (ht : t.Built) (haddressed : t.Addressed)
    {flow : Flow} {traffic : Traffic} (hof : Traffic.of t flow = .ok traffic)
    (before after : List Policy) :
    (∀ q : Policy, ∃ e e' alone : Explanation,
      (build t (before ++ after)).explain traffic = .ok e ∧
      (build t (before ++ q :: after)).explain traffic = .ok e' ∧
      (build t [q]).explain traffic = .ok alone ∧
      ∀ d : Direction,
        (¬q.governs (traffic.localEnd d).workload d → e'.decision d = e.decision d) ∧
        ((∃ p ∈ before ++ after, p.governs (traffic.localEnd d).workload d) →
          (e.decision d).outcome ≤ (e'.decision d).outcome) ∧
        ((∀ p ∈ before ++ after, ¬p.governs (traffic.localEnd d).workload d) →
          q.governs (traffic.localEnd d).workload d →
          (e.decision d).outcome = .allowed ∧
            (e'.decision d).outcome = (alone.decision d).outcome)) ∧
    (∀ (p : Policy) (d : Direction) (rules : List Rule), RulesWidened (p.rules d) rules →
      ∃ e e' : Explanation, (build t (before ++ p :: after)).explain traffic = .ok e ∧
        (build t (before ++ p.withRules d rules :: after)).explain traffic = .ok e' ∧
        e.AtMost e') ∧
    ∀ (p : Policy) (d : Direction) (rules : List Rule), RulesRestricted (p.rules d) rules →
      ∃ e e' : Explanation, (build t (before ++ p :: after)).explain traffic = .ok e ∧
        (build t (before ++ p.withRules d rules :: after)).explain traffic = .ok e' ∧
        e'.AtMost e := by
  have hexplain := haddressed.exists_explain ht.keyed hof
  refine ⟨fun q ↦ ?_, fun p d rules hrules ↦ ?_, fun p d rules hrules ↦ ?_⟩
  · -- one more policy: what is in force is the same, or more, or the policy alone
    obtain ⟨e, he, hdecides⟩ := hexplain (before ++ after)
    obtain ⟨e', he', hdecides'⟩ := hexplain (before ++ q :: after)
    obtain ⟨alone, halone, hdecidesAlone⟩ := hexplain [q]
    refine ⟨e, e', alone, he, he', halone, fun d ↦ ⟨fun hq ↦ ?_, ?_, fun hothers hq ↦ ?_⟩⟩
    · exact (hdecides' d).eq_of_inForce_eq (hdecides d) (inForce_insert_of_not_governs hq)
    · rintro ⟨p, hp, hgoverns⟩
      refine (hdecides d).outcome_le (hdecides' d) (fun hnil ↦ ?_) (.of_subset fun r hr ↦ ?_)
      · exact absurd hgoverns (inForce_eq_nil_iff.mp hnil p hp)
      · obtain ⟨s, hs, hforce⟩ := mem_rulesInForce.mp hr
        exact mem_rulesInForce.mpr ⟨s, subset_insert before q after hs, hforce⟩
    · have hnil := inForce_eq_nil_iff.mpr hothers
      refine ⟨(hdecides d).outcome_eq_allowed_iff.mpr (Or.inl hnil), ?_⟩
      rw [(hdecides' d).eq_of_inForce_eq (hdecidesAlone d) (inForce_insert_of_only hnil hq)]
  · obtain ⟨e, he, hdecides⟩ := hexplain (before ++ p :: after)
    obtain ⟨e', he', hdecides'⟩ := hexplain (before ++ p.withRules d rules :: after)
    -- the rules of the other direction are the old ones
    refine ⟨e, e', he, he', Explanation.atMost_of_decisions fun d' ↦ ?_⟩
    refine (hdecides d').outcome_le_of_replace (hdecides' d') (p.target_withRules d rules) ?_
    exact Policy.rel_rules_withRules RulesAtMost.refl hrules.rulesAtMost d'
  · obtain ⟨e, he, hdecides⟩ := hexplain (before ++ p :: after)
    obtain ⟨e', he', hdecides'⟩ := hexplain (before ++ p.withRules d rules :: after)
    refine ⟨e, e', he, he', Explanation.atMost_of_decisions fun d' ↦ ?_⟩
    refine (hdecides' d').outcome_le_of_replace (hdecides d') (p.target_withRules d rules).symm ?_
    exact Policy.rel_rules_withRules (R := fun l l' ↦ RulesAtMost d' traffic l' l)
      RulesAtMost.refl hrules.rulesAtMost d'

/-- The policy that cannot tell about the port is widened by a matcher that can. -/
theorem explain_build_additive_runningPair :
    ∃ e e' : Explanation,
      (build .runningPair [undecidedPolicy]).explainFlow .runningPair
        ⟨⟨"x", "b"⟩, ⟨"x", "a"⟩, ⟨.tcp, 80⟩⟩ = .ok e ∧
      (build .runningPair [undecidedPolicy.withRules .ingress
        [⟨[.pods (.named "x") (.ofLabel "pod" "b")],
          [.name .tcp "undeclared", .protocol .tcp]⟩]]).explainFlow .runningPair
        ⟨⟨"x", "b"⟩, ⟨"x", "a"⟩, ⟨.tcp, 80⟩⟩ = .ok e' ∧
      e.AtMost e' ∧ e.outcome = .unknown ∧ e'.outcome = .allowed := by
  have hbefore : (build .runningPair [undecidedPolicy]).explainFlow .runningPair
      ⟨⟨"x", "b"⟩, ⟨"x", "a"⟩, ⟨.tcp, 80⟩⟩ =
      .ok ⟨⟨.allowed, .allowedBy "x/undecided"⟩, ⟨.unknown, .unresolvedPort⟩⟩ := by decide +kernel
  have hafter : (build .runningPair [undecidedPolicy.withRules .ingress
      [⟨[.pods (.named "x") (.ofLabel "pod" "b")],
        [.name .tcp "undeclared", .protocol .tcp]⟩]]).explainFlow .runningPair
      ⟨⟨"x", "b"⟩, ⟨"x", "a"⟩, ⟨.tcp, 80⟩⟩ =
      .ok ⟨⟨.allowed, .allowedBy "x/undecided"⟩, ⟨.allowed, .allowedBy "x/undecided"⟩⟩ := by
    decide +kernel
  obtain ⟨traffic, hof, hexplain⟩ := bind_eq_ok_iff.mp hbefore
  obtain ⟨traffic', hof', hexplain'⟩ := bind_eq_ok_iff.mp hafter
  obtain rfl := Except.ok.inj (hof.symm.trans hof')
  have hwidened : RulesWidened (undecidedPolicy.rules .ingress)
      [⟨[.pods (.named "x") (.ofLabel "pod" "b")],
        [.name .tcp "undeclared", .protocol .tcp]⟩] :=
    .replace [] (@Rule.Widened.port [.name .tcp "undeclared"] [] (by simp) _ (.protocol .tcp)) []
  obtain ⟨-, hwiden, -⟩ := explain_build_additive Topology.built_runningPair
    Topology.addressed_runningPair hof [] []
  obtain ⟨e, e', he, he', hatMost⟩ := hwiden undecidedPolicy .ingress _ hwidened
  obtain rfl := Except.ok.inj (he.symm.trans hexplain)
  obtain rfl := Except.ok.inj (he'.symm.trans hexplain')
  exact ⟨_, _, hbefore, hafter, hatMost, rfl, rfl⟩

end Reachability
