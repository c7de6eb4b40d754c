import Reachability.Decision
import Reachability.Proofs.Rule
import Reachability.Proofs.Topology

/-!
# The meaning of a list of policies

What a list of policies decides about one direction of a flow, said without an index, without an
order of loops and without early exits (`Decides`), and the proof that the indexed matcher decides
exactly that.

The matcher walks the rules of the policies in force and stops at the first rule that settles the
matter: one that allows the traffic, or one that is stuck. All rules before it are *passed over*,
and `Reached` says so in terms of positions in the two nested lists. If every rule is passed over,
the positions no longer matter and the decision only depends on which rules there are.
-/

namespace Reachability

/-! ## Decisions as propositions -/

/-- The policies of a list that are in force for a direction of the traffic. -/
def inForce (policies : List Policy) (d : Direction) (traffic : Traffic) : List Policy :=
  policies.filter (·.governs (traffic.localEnd d).workload d)

namespace Rule

variable (r : Rule) (d : Direction) (traffic : Traffic)

/-- The rule allows the traffic in a direction. -/
def AllowsIn : Prop := r.Allows (traffic.peerEnd d) traffic.port traffic.destination.workload

/-- The rule cannot tell whether it allows the traffic in a direction. -/
def UndecidedIn : Prop := r.Undecided (traffic.peerEnd d) traffic.port traffic.destination.workload

/-- The rule neither allows the traffic nor is it stuck. -/
def PassedOver : Prop := ¬r.Stuck (traffic.peerEnd d) ∧ ¬r.AllowsIn d traffic

end Rule

/-- Rule `r` of policy `p` is reached: in the order of policies, and of rules within a policy, every
rule before it is passed over. -/
def Reached (policies : List Policy) (d : Direction) (traffic : Traffic) (p : Policy) (r : Rule) :
    Prop :=
  ∃ before after earlier later, policies = before ++ p :: after ∧
    p.rules d = earlier ++ r :: later ∧
    (∀ q ∈ before, ∀ s ∈ q.rules d, s.PassedOver d traffic) ∧
    ∀ s ∈ earlier, s.PassedOver d traffic

/-- What a list of policies decides about a direction of the traffic. -/
inductive Decides (policies : List Policy) (d : Direction) (traffic : Traffic) :
    Except Error Decision → Prop
  /-- No policy governs the direction. -/
  | untargeted (none : inForce policies d traffic = []) :
    Decides policies d traffic (.ok ⟨.allowed, .untargeted⟩)
  /-- A rule that allows the traffic is reached, and its policy is named. -/
  | allowed {p : Policy} {r : Rule} (reached : Reached (inForce policies d traffic) d traffic p r)
    (free : ¬r.Stuck (traffic.peerEnd d)) (allows : r.AllowsIn d traffic) :
    Decides policies d traffic (.ok ⟨.allowed, .allowedBy p.id⟩)
  /-- A rule is reached that needs the address of a peer without one. -/
  | missingAddress {p : Policy} {r : Rule}
    (reached : Reached (inForce policies d traffic) d traffic p r)
    (stuck : r.Stuck (traffic.peerEnd d)) :
    Decides policies d traffic (.error (.missingAddress (traffic.peerEnd d).workload.key))
  /-- No rule allows the traffic, and some rule cannot tell. -/
  | unresolved
    (passed : ∀ p ∈ inForce policies d traffic, ∀ r ∈ p.rules d, r.PassedOver d traffic)
    (undecided : ∃ p ∈ inForce policies d traffic, ∃ r ∈ p.rules d, r.UndecidedIn d traffic) :
    Decides policies d traffic (.ok ⟨.unknown, .unresolvedPort⟩)
  /-- There are governing policies, and none of them has a rule. -/
  | noRules (some : inForce policies d traffic ≠ [])
    (denies : ∀ p ∈ inForce policies d traffic, p.deniesAll d) :
    Decides policies d traffic (.ok ⟨.denied, .noRules⟩)
  /-- There are rules, none of which allows the traffic, and all of which can tell. -/
  | noMatchingRule
    (passed : ∀ p ∈ inForce policies d traffic, ∀ r ∈ p.rules d, r.PassedOver d traffic)
    (decided : ∀ p ∈ inForce policies d traffic, ∀ r ∈ p.rules d, ¬r.UndecidedIn d traffic)
    (rules : ∃ p ∈ inForce policies d traffic, ¬p.deniesAll d) :
    Decides policies d traffic (.ok ⟨.denied, .noMatchingRule⟩)

/-! ## Walking the rules -/

namespace PolicyIndex

variable {d : Direction} {traffic : Traffic}

/-- The walk over the rules of a direction. -/
abbrev walk (d : Direction) (traffic : Traffic) (rules : List (String × Rule)) (unresolved : Bool) :
    Except Error Decision :=
  tryRules (traffic.peerEnd d) traffic.port traffic.destination.workload rules unresolved

/-- Rules that are passed over leave no trace but the flag. -/
theorem walk_append {before : List (String × Rule)}
    (passed : ∀ c ∈ before, c.2.PassedOver d traffic) (rest : List (String × Rule)) (u : Bool) :
    ∃ u', walk d traffic (before ++ rest) u = walk d traffic rest u' ∧
      (u' = true ↔ u = true ∨ ∃ c ∈ before, c.2.UndecidedIn d traffic) := by
  induction before generalizing u with
  | nil => exact ⟨u, rfl, by simp⟩
  | cons c before ih =>
    obtain ⟨id, r⟩ := c
    obtain ⟨hr, hbefore⟩ := List.forall_mem_cons.mp passed
    rw [List.cons_append, walk, tryRules]
    rcases r.allows_cases (traffic.peerEnd d) traffic.port traffic.destination.workload with
      ⟨h, -⟩ | ⟨-, h, -⟩ | ⟨-, -, hund, heq⟩ | ⟨-, -, hund, heq⟩
    · exact absurd h hr.1
    · exact absurd h hr.2
    · -- this rule raises the flag, whatever it was
      obtain ⟨u', hwalk, hflag⟩ := ih hbefore true
      refine ⟨u', by rw [heq]; exact hwalk, hflag.trans ?_⟩
      exact ⟨fun _ ↦ Or.inr ⟨(id, r), List.mem_cons_self, hund⟩, fun _ ↦ Or.inl rfl⟩
    · obtain ⟨u', hwalk, hflag⟩ := ih hbefore u
      refine ⟨u', by rw [heq]; exact hwalk, hflag.trans (or_congr_right ?_)⟩
      simp only [List.mem_cons, exists_eq_or_imp]
      exact ⟨Or.inr, fun h ↦ h.resolve_left hund⟩

theorem walk_of_allows {before after : List (String × Rule)} {id : String} {r : Rule} {u : Bool}
    (passed : ∀ c ∈ before, c.2.PassedOver d traffic) (free : ¬r.Stuck (traffic.peerEnd d))
    (allows : r.AllowsIn d traffic) :
    walk d traffic (before ++ (id, r) :: after) u = .ok ⟨.allowed, .allowedBy id⟩ := by
  obtain ⟨u', hwalk, -⟩ := walk_append passed ((id, r) :: after) u
  rw [hwalk, walk, tryRules]
  rcases r.allows_cases (traffic.peerEnd d) traffic.port traffic.destination.workload with
    ⟨h, -⟩ | ⟨-, -, -, heq⟩ | ⟨-, h, -⟩ | ⟨-, h, -⟩
  · exact absurd h free
  · rw [heq]
    rfl
  · exact absurd allows h
  · exact absurd allows h

theorem walk_of_stuck {before after : List (String × Rule)} {id : String} {r : Rule} {u : Bool}
    (passed : ∀ c ∈ before, c.2.PassedOver d traffic) (stuck : r.Stuck (traffic.peerEnd d)) :
    walk d traffic (before ++ (id, r) :: after) u =
      .error (.missingAddress (traffic.peerEnd d).workload.key) := by
  obtain ⟨u', hwalk, -⟩ := walk_append passed ((id, r) :: after) u
  rw [hwalk, walk, tryRules]
  rcases r.allows_cases (traffic.peerEnd d) traffic.port traffic.destination.workload with
    ⟨-, heq⟩ | ⟨h, -⟩ | ⟨h, -⟩ | ⟨h, -⟩
  · rw [heq]
    rfl
  · exact absurd stuck h
  · exact absurd stuck h
  · exact absurd stuck h

theorem walk_of_passedOver {rules : List (String × Rule)}
    (passed : ∀ c ∈ rules, c.2.PassedOver d traffic) :
    ((∃ c ∈ rules, c.2.UndecidedIn d traffic) →
        walk d traffic rules false = .ok ⟨.unknown, .unresolvedPort⟩) ∧
      ((∀ c ∈ rules, ¬c.2.UndecidedIn d traffic) →
        walk d traffic rules false = .ok ⟨.denied, .noMatchingRule⟩) := by
  obtain ⟨u', hwalk, hflag⟩ := walk_append passed [] false
  rw [List.append_nil] at hwalk
  rw [hwalk]
  constructor
  · intro hund
    rw [hflag.mpr (Or.inr hund)]
    rfl
  · intro hnone
    have hfalse : u' = false := by
      rw [← Bool.not_eq_true, hflag]
      rintro (h | ⟨c, hc, h⟩)
      · exact absurd h (by decide)
      · exact hnone c hc h
    rw [hfalse]
    rfl

/-! ## Deciding by policies -/

/-- The rules that are walked, in order, each with the identifier of its policy. -/
def candidates (policies : List Policy) (d : Direction) : List (String × Rule) :=
  policies.flatMap fun p ↦ (p.rules d).map (p.id, ·)

theorem mem_candidates {policies : List Policy} {c : String × Rule} :
    c ∈ candidates policies d ↔ ∃ p ∈ policies, ∃ r ∈ p.rules d, (p.id, r) = c := by
  simp only [candidates, List.mem_flatMap, List.mem_map]

theorem forall_candidates {policies : List Policy} {P : Rule → Prop} :
    (∀ c ∈ candidates policies d, P c.2) ↔ ∀ p ∈ policies, ∀ r ∈ p.rules d, P r := by
  constructor
  · intro h p hp r hr
    exact h (p.id, r) (mem_candidates.mpr ⟨p, hp, r, hr, rfl⟩)
  · intro h c hc
    obtain ⟨p, hp, r, hr, rfl⟩ := mem_candidates.mp hc
    exact h p hp r hr

theorem exists_candidates {policies : List Policy} {P : Rule → Prop} :
    (∃ c ∈ candidates policies d, P c.2) ↔ ∃ p ∈ policies, ∃ r ∈ p.rules d, P r := by
  constructor
  · rintro ⟨c, hc, hP⟩
    obtain ⟨p, hp, r, hr, rfl⟩ := mem_candidates.mp hc
    exact ⟨p, hp, r, hr, hP⟩
  · rintro ⟨p, hp, r, hr, hP⟩
    exact ⟨(p.id, r), mem_candidates.mpr ⟨p, hp, r, hr, rfl⟩, hP⟩

/-- A rule that is reached splits the candidates. -/
theorem candidates_of_reached {policies : List Policy} {p : Policy} {r : Rule}
    (h : Reached policies d traffic p r) :
    ∃ before after, candidates policies d = before ++ (p.id, r) :: after ∧
      ∀ c ∈ before, c.2.PassedOver d traffic := by
  obtain ⟨before, after, earlier, later, rfl, hrules, hbefore, hearlier⟩ := h
  refine ⟨candidates before d ++ earlier.map (p.id, ·), later.map (p.id, ·) ++ candidates after d,
    ?_, fun c hc ↦ ?_⟩
  · simp [candidates, hrules]
  · rcases List.mem_append.mp hc with hc | hc
    · exact forall_candidates.mpr hbefore c hc
    · obtain ⟨s, hs, rfl⟩ := List.mem_map.mp hc
      exact hearlier s hs

theorem passedOver_or_reached (policies : List Policy) (d : Direction) (traffic : Traffic) :
    (∀ p ∈ policies, ∀ r ∈ p.rules d, r.PassedOver d traffic) ∨
      ∃ p r, Reached policies d traffic p r ∧ ¬r.PassedOver d traffic := by
  rcases forall_or_meets_not (fun p : Policy ↦ ∀ r ∈ p.rules d, r.PassedOver d traffic) policies
    with h | ⟨before, p, after, hsplit, hbefore, hp⟩
  · exact Or.inl h
  · rcases forall_or_meets_not (fun r : Rule ↦ r.PassedOver d traffic) (p.rules d) with
      h | ⟨earlier, r, later, hrules, hearlier, hr⟩
    · exact absurd h hp
    · exact Or.inr ⟨p, r, ⟨before, after, earlier, later, hsplit, hrules, hbefore, hearlier⟩, hr⟩

theorem decideBy_of_ne_nil {policies : List Policy} (h : candidates policies d ≠ []) :
    decideBy policies d traffic = walk d traffic (candidates policies d) false := by
  have hpolicies : policies ≠ [] := by
    rintro rfl
    exact h rfl
  rw [decideBy, if_neg (by simpa using hpolicies)]
  split
  · rename_i hnil
    exact absurd hnil h
  · rfl

theorem decideBy_of_deniesAll {policies : List Policy} (hne : policies ≠ [])
    (denies : ∀ p ∈ policies, p.deniesAll d) :
    decideBy policies d traffic = .ok ⟨.denied, .noRules⟩ := by
  have hnil : (policies.flatMap fun p ↦ (p.rules d).map (p.id, ·)) = [] := by
    refine List.flatMap_eq_nil_iff.mpr fun p hp ↦ ?_
    have hp := denies p hp
    rw [Policy.deniesAll, Bool.and_eq_true, List.isEmpty_iff] at hp
    rw [hp.2, List.map_nil]
  rw [decideBy, if_neg (by simpa using hne), hnil]

theorem candidates_ne_nil {policies : List Policy} {p : Policy} (hp : p ∈ policies)
    (hgoverned : p.target.directions.contains d) (hdenies : ¬p.deniesAll d) :
    candidates policies d ≠ [] := by
  intro hnil
  refine hdenies ?_
  have hrules := List.flatMap_eq_nil_iff.mp hnil p hp
  rw [Policy.deniesAll, hgoverned, Bool.true_and, List.isEmpty_iff]
  exact List.map_eq_nil_iff.mp hrules

end PolicyIndex

/-! ## The matcher follows the meaning -/

theorem contains_of_mem_inForce {policies : List Policy} {d : Direction} {traffic : Traffic}
    {p : Policy} (h : p ∈ inForce policies d traffic) : p.target.directions.contains d := by
  have hgoverns := (List.mem_filter.mp h).2
  rw [Policy.governs, Bool.and_eq_true] at hgoverns
  exact hgoverns.2

open PolicyIndex

variable {policies : List Policy} {d : Direction} {traffic : Traffic}

/-- The decision of the governing policies is one that the list of policies makes. -/
theorem decides_decideBy (policies : List Policy) (d : Direction) (traffic : Traffic) :
    Decides policies d traffic (decideBy (inForce policies d traffic) d traffic) := by
  by_cases hnil : inForce policies d traffic = []
  · rw [hnil]
    exact .untargeted hnil
  rcases passedOver_or_reached (inForce policies d traffic) d traffic with
    passed | ⟨p, r, hreached, hnot⟩
  · by_cases hdenies : ∀ p ∈ inForce policies d traffic, p.deniesAll d
    · rw [decideBy_of_deniesAll hnil hdenies]
      exact .noRules hnil hdenies
    · simp only [not_forall] at hdenies
      obtain ⟨p, hp, hrules⟩ := hdenies
      rw [decideBy_of_ne_nil (candidates_ne_nil hp (contains_of_mem_inForce hp) hrules)]
      have hwalk := walk_of_passedOver (forall_candidates.mpr passed)
      by_cases hund : ∃ p ∈ inForce policies d traffic, ∃ r ∈ p.rules d, r.UndecidedIn d traffic
      · rw [hwalk.1 (exists_candidates.mpr hund)]
        exact .unresolved passed hund
      · have hdecided : ∀ p ∈ inForce policies d traffic, ∀ r ∈ p.rules d,
            ¬r.UndecidedIn d traffic := fun p hp r hr h ↦ hund ⟨p, hp, r, hr, h⟩
        rw [hwalk.2 (forall_candidates.mpr hdecided)]
        exact .noMatchingRule passed hdecided ⟨p, hp, hrules⟩
  · -- the first rule that is not passed over settles the matter, in one way or the other
    obtain ⟨before, after, hsplit, hbefore⟩ := candidates_of_reached hreached
    rw [decideBy_of_ne_nil (by simp [hsplit]), hsplit]
    by_cases hstuck : r.Stuck (traffic.peerEnd d)
    · rw [walk_of_stuck hbefore hstuck]
      exact .missingAddress hreached hstuck
    · have hallows : r.AllowsIn d traffic := by
        by_contra hallows
        exact hnot ⟨hstuck, hallows⟩
      rw [walk_of_allows hbefore hstuck hallows]
      exact .allowed hreached hstuck hallows

/-- What a list of policies decides is what its governing policies decide. -/
theorem decides_iff {result : Except Error Decision} :
    Decides policies d traffic result ↔
      decideBy (inForce policies d traffic) d traffic = result := by
  constructor
  · intro h
    cases h with
    | untargeted none =>
      rw [none]
      rfl
    | allowed reached free allows =>
      obtain ⟨before, after, hsplit, hbefore⟩ := candidates_of_reached reached
      rw [decideBy_of_ne_nil (by simp [hsplit]), hsplit, walk_of_allows hbefore free allows]
    | missingAddress reached stuck =>
      obtain ⟨before, after, hsplit, hbefore⟩ := candidates_of_reached reached
      rw [decideBy_of_ne_nil (by simp [hsplit]), hsplit, walk_of_stuck hbefore stuck]
    | unresolved passed undecided =>
      have hund := exists_candidates.mpr undecided
      have hne : candidates (inForce policies d traffic) d ≠ [] := by
        obtain ⟨c, hc, -⟩ := hund
        exact List.ne_nil_of_mem hc
      rw [decideBy_of_ne_nil hne]
      exact (walk_of_passedOver (forall_candidates.mpr passed)).1 hund
    | noRules some denies => exact decideBy_of_deniesAll some denies
    | noMatchingRule passed decided rules =>
      obtain ⟨p, hp, hrules⟩ := rules
      rw [decideBy_of_ne_nil (candidates_ne_nil hp (contains_of_mem_inForce hp) hrules)]
      exact (walk_of_passedOver (forall_candidates.mpr passed)).2 (forall_candidates.mpr decided)
  · rintro rfl
    exact decides_decideBy policies d traffic

/-! ## The index -/

/-- The index of a workload lists the policies that govern it. -/
theorem PolicyIndex.targeting_build {t : Topology} (ht : t.Keyed) (policies : List Policy)
    {w : Workload} (hw : w ∈ t.workloads) (d : Direction) :
    (build t policies).targeting w.key d = .ok (policies.filter (·.governs w d)) := by
  have hget : (build t policies).governing.get? w.key =
      some ⟨policies.filter (·.governs w .ingress), policies.filter (·.governs w .egress)⟩ := by
    refine SortedMap.get?_ofList_of_mem (List.mem_map.mpr ⟨w, hw, rfl⟩) fun g hg ↦ ?_
    obtain ⟨v, hv, heq⟩ := List.mem_map.mp hg
    obtain ⟨hkey, rfl⟩ := Prod.mk.inj heq
    rw [ht.eq_of_key_eq hv hw hkey]
  rw [targeting, hget]
  cases d <;> rfl

theorem Traffic.of_eq_ok_iff {t : Topology} {flow : Flow} {traffic : Traffic} :
    Traffic.of t flow = .ok traffic ↔ t.endpoint flow.source = .ok traffic.source ∧
      t.endpoint flow.destination = .ok traffic.destination ∧ traffic.port = flow.port := by
  obtain ⟨source, destination, port⟩ := traffic
  rw [Traffic.of, bind_eq_ok_iff]
  constructor
  · rintro ⟨s, hs, h⟩
    obtain ⟨d, hd, h⟩ := bind_eq_ok_iff.mp h
    obtain ⟨rfl, rfl, rfl⟩ := Traffic.mk.inj (Except.ok.inj h)
    exact ⟨hs, hd, rfl⟩
  · rintro ⟨hs, hd, hport⟩
    exact ⟨source, hs, bind_eq_ok_iff.mpr ⟨destination, hd, by rw [← hport]; rfl⟩⟩

/-- The traffic between two workloads of a topology, with the labels of their namespaces. -/
theorem Topology.Keyed.traffic_eq_ok {t : Topology} (ht : t.Keyed) {source destination : Workload}
    (hs : source ∈ t.workloads) (hd : destination ∈ t.workloads) (port : ServicePort) :
    ∃ traffic, Traffic.of t ⟨source.key, destination.key, port⟩ = .ok traffic ∧
      t.endpoint source.key = .ok traffic.source ∧ traffic.source.workload = source ∧
      t.endpoint destination.key = .ok traffic.destination ∧
      traffic.destination.workload = destination ∧ traffic.port = port := by
  obtain ⟨ls, hls, -⟩ := ht.endpoint_eq_ok hs
  obtain ⟨ld, hld, -⟩ := ht.endpoint_eq_ok hd
  exact ⟨⟨⟨source, ls⟩, ⟨destination, ld⟩, port⟩, Traffic.of_eq_ok_iff.mpr ⟨hls, hld, rfl⟩,
    hls, rfl, hld, rfl, rfl⟩

/-- Both ends of traffic are ends of workloads of the topology. -/
theorem Traffic.exists_endpoint {t : Topology} {flow : Flow} {traffic : Traffic}
    (h : Traffic.of t flow = .ok traffic) (d : Direction) :
    (∃ key, t.endpoint key = .ok (traffic.localEnd d)) ∧
      ∃ key, t.endpoint key = .ok (traffic.peerEnd d) := by
  obtain ⟨hs, hd, -⟩ := Traffic.of_eq_ok_iff.mp h
  cases d with
  | ingress => exact ⟨⟨_, hd⟩, ⟨_, hs⟩⟩
  | egress => exact ⟨⟨_, hs⟩, ⟨_, hd⟩⟩

/-- Which policies govern a workload depends on its key and its labels. -/
theorem Policy.governs_congr {w w' : Workload} (hkey : w'.key = w.key)
    (hlabels : w'.labels = w.labels) (p : Policy) (d : Direction) :
    p.governs w' d = p.governs w d := by
  rw [governs, governs, Target.admits, Target.admits, hkey, hlabels]

/-- The index decides traffic whose local end has the key and the labels of a workload of the
topology. The traffic itself may be that of another topology. -/
theorem PolicyIndex.decide_build_of_mem {t : Topology} (ht : t.Keyed) (policies : List Policy)
    {w : Workload} (hw : w ∈ t.workloads) {d : Direction} {traffic : Traffic}
    (hkey : (traffic.localEnd d).workload.key = w.key)
    (hlabels : (traffic.localEnd d).workload.labels = w.labels) :
    (build t policies).decide d traffic = decideBy (inForce policies d traffic) d traffic := by
  have hforce : policies.filter (·.governs w d) = inForce policies d traffic :=
    List.filter_congr fun p _ ↦ (p.governs_congr hkey hlabels d).symm
  rw [PolicyIndex.decide, hkey, targeting_build ht policies hw d, ok_bind, hforce]

theorem PolicyIndex.decide_build {t : Topology} (ht : t.Keyed) (policies : List Policy)
    {flow : Flow} {traffic : Traffic} (h : Traffic.of t flow = .ok traffic) (d : Direction) :
    (build t policies).decide d traffic = decideBy (inForce policies d traffic) d traffic := by
  obtain ⟨⟨key, hlocal⟩, -⟩ := Traffic.exists_endpoint h d
  exact decide_build_of_mem ht policies (ht.mem_workloads_of_endpoint hlocal).1 rfl rfl

/-- **The indexed matcher means what the plain list of policies means.** For any two workloads of a
topology that can be built, the traffic between them is found, and the decision for a direction is
the one that the list of policies makes for it. -/
theorem decide_build_iff {t : Topology} (ht : t.Built) (policies : List Policy)
    {source destination : Workload} (hs : source ∈ t.workloads) (hd : destination ∈ t.workloads)
    (port : ServicePort) :
    ∃ traffic, Traffic.of t ⟨source.key, destination.key, port⟩ = .ok traffic ∧
      t.endpoint source.key = .ok traffic.source ∧ traffic.source.workload = source ∧
      t.endpoint destination.key = .ok traffic.destination ∧
      traffic.destination.workload = destination ∧ traffic.port = port ∧
      ∀ (d : Direction) (result : Except Error Decision),
        (PolicyIndex.build t policies).decide d traffic = result ↔
          Decides policies d traffic result := by
  obtain ⟨traffic, hof, hsource, hsw, hdest, hdw, hport⟩ := ht.keyed.traffic_eq_ok hs hd port
  refine ⟨traffic, hof, hsource, hsw, hdest, hdw, hport, fun d result ↦ ?_⟩
  rw [decide_build ht.keyed policies hof, decides_iff]

/-- Receives from `b` on a port that nobody declares, and sends to a single address. -/
def undecidedPolicy : Policy where
  name := "undecided"
  target := ⟨"x", .everything, ⟨true, true⟩⟩
  ingress := [⟨[.pods (.named "x") (.ofLabel "pod" "b")], [.name .tcp "undeclared"]⟩]
  egress := [⟨[.network ⟨.host (.v4 0x0A000001#32), []⟩], []⟩]

/-- In `pair` the sender is stuck, because no pod has an address, and the receiver cannot tell. -/
theorem decide_build_iff_pair :
    ∃ traffic, Traffic.of .pair ⟨⟨"x", "b"⟩, ⟨"x", "a"⟩, ⟨.tcp, 80⟩⟩ = .ok traffic ∧
      Decides [undecidedPolicy] .ingress traffic (.ok ⟨.unknown, .unresolvedPort⟩) ∧
      Decides [undecidedPolicy] .egress traffic (.error (.missingAddress ⟨"x", "a"⟩)) := by
  have hb : Topology.pairPod "b" ∈ Topology.pair.workloads := by decide +kernel
  have ha : Topology.pairPod "a" ∈ Topology.pair.workloads := by decide +kernel
  obtain ⟨traffic, hof, -, -, -, -, -, hdecides⟩ :=
    decide_build_iff (.conventional ["x"] ["a", "b"] [⟨.tcp, 80⟩]) [undecidedPolicy] hb ha
      ⟨.tcp, 80⟩
  have hof' : Traffic.of .pair ⟨⟨"x", "b"⟩, ⟨"x", "a"⟩, ⟨.tcp, 80⟩⟩ = .ok traffic := hof
  have hingress : (do
      (PolicyIndex.build .pair [undecidedPolicy]).decide .ingress
        (← Traffic.of .pair ⟨⟨"x", "b"⟩, ⟨"x", "a"⟩, ⟨.tcp, 80⟩⟩)) =
      .ok ⟨.unknown, .unresolvedPort⟩ := by decide +kernel
  have hegress : (do
      (PolicyIndex.build .pair [undecidedPolicy]).decide .egress
        (← Traffic.of .pair ⟨⟨"x", "b"⟩, ⟨"x", "a"⟩, ⟨.tcp, 80⟩⟩)) =
      .error (.missingAddress ⟨"x", "a"⟩) := by decide +kernel
  rw [hof'] at hingress hegress
  exact ⟨traffic, hof, (hdecides _ _).mp hingress, (hdecides _ _).mp hegress⟩

end Reachability
