import Reachability.Proofs.Verdict

/-!
# Order and repetition in policies

Lists occur at five levels: policies, the rules of a policy, the peers and the port matchers of a
rule, and the excepted networks of a peer. At none of them does it matter in which order a list has
its members, or how often. Two lists are compared by `SameMembers`, which asks for a counterpart of
each member only, and the relation of one level is the relation by which the next one compares its
members.

The walk over the rules does depend on their order, by way of what it meets first. It may meet a
rule that is stuck, which is why every workload has to have an address here; and it names the policy
of the rule at which it stops, which is the one thing that is left to depend on the order
(`Decision.SameButName`).
-/

namespace Reachability

/-! ## Lists up to order and repetition -/

/-- Each member of either list has a counterpart in the other. -/
def SameMembers {α : Type} (R : α → α → Prop) (l l' : List α) : Prop :=
  (∀ a ∈ l, ∃ b ∈ l', R a b) ∧ ∀ b ∈ l', ∃ a ∈ l, R a b

namespace SameMembers

variable {α : Type} {R : α → α → Prop} {l l' : List α}

/-- Lists with the same members correspond to each other, in whatever order and however often they
have them. -/
theorem of_mem_iff (refl : ∀ a, R a a) (h : ∀ a, a ∈ l ↔ a ∈ l') : SameMembers R l l' :=
  ⟨fun a ha ↦ ⟨a, (h a).mp ha, refl a⟩, fun b hb ↦ ⟨b, (h b).mpr hb, refl b⟩⟩

theorem eq_nil_iff (h : SameMembers R l l') : l = [] ↔ l' = [] := by
  simp only [List.eq_nil_iff_forall_not_mem]
  constructor
  · intro hnone b hb
    obtain ⟨a, ha, -⟩ := h.2 b hb
    exact hnone a ha
  · intro hnone a ha
    obtain ⟨b, hb, -⟩ := h.1 a ha
    exact hnone b hb

theorem exists_iff (h : SameMembers R l l') {P : α → Prop} (hP : ∀ {a b}, R a b → (P a ↔ P b)) :
    (∃ a ∈ l, P a) ↔ ∃ b ∈ l', P b := by
  constructor
  · rintro ⟨a, ha, hPa⟩
    obtain ⟨b, hb, hab⟩ := h.1 a ha
    exact ⟨b, hb, (hP hab).mp hPa⟩
  · rintro ⟨b, hb, hPb⟩
    obtain ⟨a, ha, hab⟩ := h.2 b hb
    exact ⟨a, ha, (hP hab).mpr hPb⟩

theorem forall_iff (h : SameMembers R l l') {P : α → Prop} (hP : ∀ {a b}, R a b → (P a ↔ P b)) :
    (∀ a ∈ l, P a) ↔ ∀ b ∈ l', P b := by
  have hexists := h.exists_iff (P := fun a ↦ ¬P a) fun hab ↦ not_congr (hP hab)
  rw [← not_iff_not]
  simpa using hexists

theorem filter (h : SameMembers R l l') {f : α → Bool} (hf : ∀ {a b}, R a b → f a = f b) :
    SameMembers R (l.filter f) (l'.filter f) := by
  refine ⟨fun a ha ↦ ?_, fun b hb ↦ ?_⟩
  · obtain ⟨hmem, hfa⟩ := List.mem_filter.mp ha
    obtain ⟨b, hb, hab⟩ := h.1 a hmem
    exact ⟨b, List.mem_filter.mpr ⟨hb, (hf hab).symm.trans hfa⟩, hab⟩
  · obtain ⟨hmem, hfb⟩ := List.mem_filter.mp hb
    obtain ⟨a, ha, hab⟩ := h.2 b hmem
    exact ⟨a, List.mem_filter.mpr ⟨ha, (hf hab).trans hfb⟩, hab⟩

end SameMembers

/-! ## The five levels -/

/-- The same network with the same exceptions. -/
structure NetworkMatch.Rearranged (m n : NetworkMatch) : Prop where
  network : m.network = n.network
  except : SameMembers (· = ·) m.except n.except

/-- Peers that differ at most in the list of exceptions of a network. -/
inductive Peer.Rearranged : Peer → Peer → Prop
  | pods (namespaces : NamespaceMatch) (selector : Selector) :
    Rearranged (.pods namespaces selector) (.pods namespaces selector)
  | network {m n : NetworkMatch} (h : m.Rearranged n) : Rearranged (.network m) (.network n)

/-- Rules with corresponding peers and the same port matchers. -/
structure Rule.Rearranged (r s : Rule) : Prop where
  peers : SameMembers Peer.Rearranged r.peers s.peers
  ports : SameMembers (· = ·) r.ports s.ports

/-- Policies with one name and one target, and with corresponding rules for each direction. -/
structure Policy.Rearranged (p q : Policy) : Prop where
  name : p.name = q.name
  target : p.target = q.target
  rules : ∀ d, SameMembers Rule.Rearranged (p.rules d) (q.rules d)

theorem Peer.Rearranged.refl (p : Peer) : p.Rearranged p := by
  cases p with
  | pods namespaces selector => exact .pods namespaces selector
  | network m => exact .network ⟨rfl, .of_mem_iff (fun _ ↦ rfl) fun _ ↦ Iff.rfl⟩

theorem Rule.Rearranged.refl (r : Rule) : r.Rearranged r where
  peers := .of_mem_iff Peer.Rearranged.refl fun _ ↦ Iff.rfl
  ports := .of_mem_iff (fun _ ↦ rfl) fun _ ↦ Iff.rfl

theorem Policy.Rearranged.refl (p : Policy) : p.Rearranged p where
  name := rfl
  target := rfl
  rules _ := .of_mem_iff Rule.Rearranged.refl fun _ ↦ Iff.rfl

/-! ## What rearranged parts mean -/

theorem NetworkMatch.Rearranged.contains_eq {m n : NetworkMatch} (h : m.Rearranged n)
    (a : Address) : m.contains a = n.contains a := by
  have hexcept : m.except.any (·.contains a) = n.except.any (·.contains a) := by
    rw [Bool.eq_iff_iff, List.any_eq_true, List.any_eq_true]
    exact h.except.exists_iff fun hab ↦ by rw [hab]
  rw [contains, contains, h.network, hexcept]

theorem Peer.Rearranged.matches_iff {p q : Peer} (h : p.Rearranged q) (e : Endpoint) :
    p.Matches e ↔ q.Matches e := by
  cases h with
  | pods namespaces selector => exact Iff.rfl
  | network h => simp only [Peer.Matches, h.contains_eq]

namespace Rule.Rearranged

variable {r s : Rule}

theorem peerMatches_iff (h : r.Rearranged s) (e : Endpoint) :
    r.PeerMatches e ↔ s.PeerMatches e :=
  or_congr h.peers.eq_nil_iff (h.peers.exists_iff fun hpq ↦ hpq.matches_iff e)

theorem coversPort_iff (h : r.Rearranged s) (port : ServicePort) (w : Workload) :
    r.CoversPort port w ↔ s.CoversPort port w :=
  or_congr h.ports.eq_nil_iff (h.ports.exists_iff fun hmn ↦ by rw [hmn])

theorem portUndecided_iff (h : r.Rearranged s) (port : ServicePort) (w : Workload) :
    r.PortUndecided port w ↔ s.PortUndecided port w :=
  and_congr (h.ports.forall_iff fun hmn ↦ by rw [hmn]) (h.ports.exists_iff fun hmn ↦ by rw [hmn])

variable {d : Direction} {traffic : Traffic}

theorem allowsIn_iff (h : r.Rearranged s) : r.AllowsIn d traffic ↔ s.AllowsIn d traffic :=
  and_congr (h.peerMatches_iff _) (h.coversPort_iff _ _)

theorem undecidedIn_iff (h : r.Rearranged s) : r.UndecidedIn d traffic ↔ s.UndecidedIn d traffic :=
  and_congr (h.peerMatches_iff _) (h.portUndecided_iff _ _)

/-- A rule that is not stuck is passed over exactly if its rearrangements are. -/
theorem passedOver_iff (h : r.Rearranged s) (free : ∀ r : Rule, ¬r.Stuck (traffic.peerEnd d)) :
    r.PassedOver d traffic ↔ s.PassedOver d traffic :=
  and_congr (iff_of_true (free r) (free s)) (not_congr h.allowsIn_iff)

end Rule.Rearranged

theorem Policy.Rearranged.deniesAll_iff {p q : Policy} (h : p.Rearranged q) (d : Direction) :
    p.deniesAll d ↔ q.deniesAll d := by
  simp only [deniesAll, Bool.and_eq_true, List.isEmpty_iff, h.target, (h.rules d).eq_nil_iff]

/-! ## What rearranged policies decide -/

/-- The same decision, up to the policy that is named for allowing the traffic. -/
def Decision.SameButName (a b : Decision) : Prop :=
  a = b ∨ ∃ p q, a = ⟨.allowed, .allowedBy p⟩ ∧ b = ⟨.allowed, .allowedBy q⟩

theorem Decision.SameButName.outcome_eq {a b : Decision} (h : a.SameButName b) :
    a.outcome = b.outcome := by
  rcases h with rfl | ⟨p, q, rfl, rfl⟩ <;> rfl

section Decides

variable {policies policies' : List Policy} {d : Direction} {traffic : Traffic}

theorem inForce_rearranged (h : SameMembers Policy.Rearranged policies policies') (d : Direction)
    (traffic : Traffic) :
    SameMembers Policy.Rearranged (inForce policies d traffic) (inForce policies' d traffic) :=
  h.filter fun hpq ↦ Policy.governs_of_target_eq hpq.target _ _

theorem exists_rule_iff (h : SameMembers Policy.Rearranged policies policies') {P : Rule → Prop}
    (hP : ∀ {r s : Rule}, r.Rearranged s → (P r ↔ P s)) :
    (∃ p ∈ policies, ∃ r ∈ p.rules d, P r) ↔ ∃ p ∈ policies', ∃ r ∈ p.rules d, P r :=
  h.exists_iff fun hpq ↦ (hpq.rules d).exists_iff hP

theorem forall_rule_iff (h : SameMembers Policy.Rearranged policies policies') {P : Rule → Prop}
    (hP : ∀ {r s : Rule}, r.Rearranged s → (P r ↔ P s)) :
    (∀ p ∈ policies, ∀ r ∈ p.rules d, P r) ↔ ∀ p ∈ policies', ∀ r ∈ p.rules d, P r :=
  h.forall_iff fun hpq ↦ (hpq.rules d).forall_iff hP

/-- Rearranged policies make the same decision, where no rule can be stuck. -/
theorem Decides.rearranged (h : SameMembers Policy.Rearranged policies policies')
    (free : ∀ r : Rule, ¬r.Stuck (traffic.peerEnd d)) {a : Decision}
    (ha : Decides policies d traffic (.ok a)) :
    ∃ b, Decides policies' d traffic (.ok b) ∧ a.SameButName b := by
  have hforce := inForce_rearranged h d traffic
  cases ha with
  | untargeted none => exact ⟨_, .untargeted (hforce.eq_nil_iff.mp none), Or.inl rfl⟩
  | @allowed p r reached _ allows =>
    -- the walk stops at a rule that allows the traffic, though perhaps at another one
    obtain ⟨hp, hr⟩ := reached.mem
    obtain ⟨q, hq, s, hs, hallows⟩ :=
      (exists_rule_iff hforce fun hrs ↦ hrs.allowsIn_iff).mp ⟨p, hp, r, hr, allows⟩
    rcases PolicyIndex.passedOver_or_reached (inForce policies' d traffic) d traffic with
      passed | ⟨q', s', hreached, hnot⟩
    · exact absurd hallows (passed q hq s hs).2
    · have hallows' : s'.AllowsIn d traffic := by
        by_contra hno
        exact hnot ⟨free s', hno⟩
      exact ⟨_, .allowed hreached (free s') hallows', Or.inr ⟨p.id, q'.id, rfl, rfl⟩⟩
  | unresolved passed undecided =>
    exact ⟨_, .unresolved ((forall_rule_iff hforce fun hrs ↦ hrs.passedOver_iff free).mp passed)
      ((exists_rule_iff hforce fun hrs ↦ hrs.undecidedIn_iff).mp undecided), Or.inl rfl⟩
  | noRules some denies =>
    exact ⟨_, .noRules (fun hnil ↦ some (hforce.eq_nil_iff.mpr hnil))
      ((hforce.forall_iff fun hpq ↦ hpq.deniesAll_iff d).mp denies), Or.inl rfl⟩
  | noMatchingRule passed decided rules =>
    exact ⟨_, .noMatchingRule ((forall_rule_iff hforce fun hrs ↦ hrs.passedOver_iff free).mp passed)
      ((forall_rule_iff hforce fun hrs ↦ not_congr hrs.undecidedIn_iff).mp decided)
      ((hforce.exists_iff fun hpq ↦ not_congr (hpq.deniesAll_iff d)).mp rules), Or.inl rfl⟩

end Decides

/-! ## What rearranged policies predict -/

open PolicyIndex

/-- Both sides of the job are workloads of the topology. -/
def Job.Within (j : Job) (t : Topology) : Prop :=
  ∃ source ∈ t.workloads, ∃ destination ∈ t.workloads,
    source.key = j.source.key ∧ destination.key = j.destination.key

theorem explainFlow_rearranged {t : Topology} (ht : t.Keyed) (haddressed : t.Addressed)
    {policies policies' : List Policy} (h : SameMembers Policy.Rearranged policies policies')
    {j : Job} (hj : j.Within t) :
    ∃ e e', (build t policies).explainFlow t j.flow = .ok e ∧
      (build t policies').explainFlow t j.flow = .ok e' ∧
      ∀ d, (e.decision d).SameButName (e'.decision d) := by
  obtain ⟨source, hs, destination, hd, hsource, hdestination⟩ := hj
  obtain ⟨traffic, hof, -⟩ := ht.traffic_eq_ok hs hd j.port
  rw [hsource, hdestination] at hof
  obtain ⟨e, he, hdecides⟩ := haddressed.exists_explain ht hof policies
  obtain ⟨e', he', hdecides'⟩ := haddressed.exists_explain ht hof policies'
  refine ⟨e, e', (explainFlow_eq hof _).trans he, (explainFlow_eq hof _).trans he', fun d ↦ ?_⟩
  obtain ⟨b, hb, hsame⟩ := (hdecides d).rearranged h (haddressed.not_stuck ht hof d)
  obtain rfl := Except.ok.inj (hb.unique (hdecides' d))
  exact hsame

/-- **Order and repetition do not matter.** Policies that differ in the order of policies, rules,
peers, port matchers and exceptions, or in how often these are listed, lead to the same prediction
for any jobs between workloads of a topology in which every workload has an address. The decisions
behind it are the same too, except that traffic may be allowed by another policy. -/
theorem predict_build_rearranged {t : Topology} (ht : t.Built) (haddressed : t.Addressed)
    {policies policies' : List Policy} (h : SameMembers Policy.Rearranged policies policies')
    {jobs : List Job} (hjobs : ∀ j ∈ jobs, j.Within t) :
    (∃ p : Prediction, (build t policies).predict t jobs = .ok p ∧
      (build t policies').predict t jobs = .ok p) ∧
    ∀ j ∈ jobs, ∃ e e', (build t policies).explainFlow t j.flow = .ok e ∧
      (build t policies').explainFlow t j.flow = .ok e' ∧
      ∀ d, (e.decision d).SameButName (e'.decision d) := by
  have hexplain : ∀ j ∈ jobs, ∃ e e', (build t policies).explainFlow t j.flow = .ok e ∧
      (build t policies').explainFlow t j.flow = .ok e' ∧
      ∀ d, (e.decision d).SameButName (e'.decision d) :=
    fun j hj ↦ explainFlow_rearranged ht.keyed haddressed h (hjobs j hj)
  refine ⟨?_, hexplain⟩
  obtain ⟨p, hp, hcells⟩ := exists_predict fun j hj ↦
    let ⟨e, _, he, _, _⟩ := hexplain j hj
    ⟨e, he⟩
  obtain ⟨p', hp', hcells'⟩ := exists_predict fun j hj ↦
    let ⟨_, e', _, he', _⟩ := hexplain j hj
    ⟨e', he'⟩
  -- the cells hold outcomes only, and in these the decisions agree
  have heq : p = p' := by
    refine hcells.eq hcells' fun f hf x x' hx hx' ↦ ?_
    obtain ⟨j, hj, rfl⟩ := List.mem_map.mp hf
    obtain ⟨e, e', he, he', hsame⟩ := hexplain j hj
    obtain rfl := Except.ok.inj (he.symm.trans hx)
    obtain rfl := Except.ok.inj (he'.symm.trans hx')
    exact ⟨(hsame .ingress).outcome_eq, (hsame .egress).outcome_eq⟩
  exact ⟨p, hp, heq ▸ hp'⟩

/-- Receives on some ports from a range of addresses, less the excepted ones. -/
def rangePolicy (except : List Network) (ports : List PortMatch) : Policy where
  name := "range"
  target := ⟨"x", .everything, ⟨true, false⟩⟩
  ingress := [⟨[.network ⟨⟨.v4 0x0A000000#32, 8, by decide⟩, except⟩], ports⟩]
  egress := []

theorem rangePolicy_rearranged {except except' : List Network} {ports ports' : List PortMatch}
    (hexcept : ∀ n, n ∈ except ↔ n ∈ except') (hports : ∀ m, m ∈ ports ↔ m ∈ ports') :
    (rangePolicy except ports).Rearranged (rangePolicy except' ports') where
  name := rfl
  target := rfl
  rules d := by
    cases d with
    | ingress =>
      have hpeer : Peer.Rearranged (.network ⟨⟨.v4 0x0A000000#32, 8, by decide⟩, except⟩)
          (.network ⟨⟨.v4 0x0A000000#32, 8, by decide⟩, except'⟩) :=
        .network ⟨rfl, .of_mem_iff (fun _ ↦ rfl) hexcept⟩
      have hrule : Rule.Rearranged
          ⟨[.network ⟨⟨.v4 0x0A000000#32, 8, by decide⟩, except⟩], ports⟩
          ⟨[.network ⟨⟨.v4 0x0A000000#32, 8, by decide⟩, except'⟩], ports'⟩ :=
        ⟨by simpa [SameMembers] using hpeer, .of_mem_iff (fun _ ↦ rfl) hports⟩
      simpa [SameMembers, Policy.rules, rangePolicy] using hrule
    | egress => exact .of_mem_iff Rule.Rearranged.refl fun _ ↦ Iff.rfl

/-- The second list has the policies of the first one in the other order and one of them twice, and
the ports and the exceptions of the other one in another order too. -/
theorem predict_build_rearranged_runningPair :
    let policies := [undecidedPolicy,
      rangePolicy [.host (.v4 0x0A000001#32), .host (.v4 0x0A000003#32)]
        [.protocol .udp, .number .tcp 80 none]]
    let policies' := [rangePolicy [.host (.v4 0x0A000003#32), .host (.v4 0x0A000001#32)]
      [.number .tcp 80 none, .protocol .udp], undecidedPolicy, undecidedPolicy]
    let source := { Topology.pairPod "b" with address := some (.v4 0x0A000002#32) }
    let destination := { Topology.pairPod "a" with address := some (.v4 0x0A000001#32) }
    let job : Job := ⟨.of source, .of destination, "s-x-a.x.svc.cluster.local", ⟨.tcp, 80⟩, none,
      .ofSeconds 1, none⟩
    ∃ p : Prediction, (build .runningPair policies).predict .runningPair [job] = .ok p ∧
      (build .runningPair policies').predict .runningPair [job] = .ok p ∧
      p.combined.get? job.flow = some .allowed := by
  intro policies policies' source destination job
  have hrange : Policy.Rearranged
      (rangePolicy [.host (.v4 0x0A000001#32), .host (.v4 0x0A000003#32)]
        [.protocol .udp, .number .tcp 80 none])
      (rangePolicy [.host (.v4 0x0A000003#32), .host (.v4 0x0A000001#32)]
        [.number .tcp 80 none, .protocol .udp]) :=
    rangePolicy_rearranged (fun n ↦ by simp [or_comm]) fun m ↦ by simp [or_comm]
  have hpolicies : SameMembers Policy.Rearranged policies policies' := by
    simp [policies, policies', SameMembers, hrange, Policy.Rearranged.refl undecidedPolicy]
  have hsource : source ∈ Topology.runningPair.workloads := by decide +kernel
  have hdestination : destination ∈ Topology.runningPair.workloads := by decide +kernel
  have hjob : ∀ j ∈ [job], j.Within .runningPair := by
    intro j hj
    rw [List.mem_singleton.mp hj]
    exact ⟨source, hsource, destination, hdestination, rfl, rfl⟩
  obtain ⟨⟨p, hp, hp'⟩, -⟩ := predict_build_rearranged Topology.built_runningPair
    Topology.addressed_runningPair hpolicies hjob
  have hcombined : (do
      return (← (build .runningPair policies).predict .runningPair [job]).combined.get? job.flow) =
      Except.ok (some Outcome.allowed) := by decide +kernel
  rw [hp] at hcombined
  exact ⟨p, hp, hp', Except.ok.inj hcombined⟩

end Reachability
