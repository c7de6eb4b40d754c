import Reachability.Proofs.Conversion
import Reachability.Proofs.Decision

/-!
# Documents keep the meaning of policies

A policy that went through a document decides everything as before. What comes back is the canonical
form of the policy (`mapM_ofDocument_toDocument`), so it remains to show that canonical forms mean
the same.

For one kind of peer this needs the topology. A namespace picked by its name becomes one picked by a
label, and the two agree only because every namespace carries its own name under that label, even
if other labels were asked for. `Endpoint.Named` is that fact about an endpoint, and it is all that
this module knows of topologies before its last section.
-/

namespace Reachability

/-- The labels of the endpoint's namespace name the namespace. -/
def Endpoint.Named (e : Endpoint) : Prop :=
  e.namespaceLabels.get? namespaceNameKey = some e.workload.key.ns

/-! ## Canonical forms of peers and rules -/

theorem Selector.selects_of_isEmpty {s : Selector} (h : s.isEmpty) (labels : Labels) :
    s.selects labels := by
  obtain ⟨matchLabels, requirements⟩ := s
  rw [isEmpty, Bool.and_eq_true] at h
  obtain ⟨hlabels, hrequirements⟩ := h
  have hexact : (matchLabels.getD ∅).toList = [] := by
    cases matchLabels with
    | none => rfl
    | some m => exact List.isEmpty_iff.mp hlabels
  have hrequired : requirements.getD [] = [] := by
    cases requirements with
    | none => rfl
    | some rs => exact List.isEmpty_iff.mp hrequirements
  rw [selects, hexact, hrequired]
  rfl

theorem Selector.selects_norm (s : Selector) (labels : Labels) :
    s.norm.selects labels = s.selects labels := by
  by_cases hempty : s.isEmpty
  · have hnorm : s.norm = .everything := if_pos hempty
    rw [hnorm, selects_of_isEmpty hempty, selects_of_isEmpty rfl]
  · have hnorm : s.norm = s := if_neg hempty
    rw [hnorm]

theorem Selector.selects_ofLabel (key value : String) (labels : Labels) :
    (ofLabel key value).selects labels = (labels.get? key == some value) := by
  have hentries : (SortedMap.ofList [(key, value)]).toList = [(key, value)] := rfl
  rw [ofLabel, ofLabels, selects, Option.getD_none, Option.getD_some, hentries]
  simp

theorem Peer.admits_norm {e : Endpoint} (he : e.Named) (ns : String) (p : Peer) :
    (p.norm ns).admits e = p.admits e := by
  cases p with
  | network net => rfl
  | pods namespaces selector =>
    cases namespaces with
    | selected namespaces =>
      rw [norm, admits, admits, Selector.selects_norm]
    | named name =>
      by_cases hname : name = ns
      · rw [norm, if_pos hname]
      · have hlabel : (Selector.ofLabel namespaceNameKey name).selects e.namespaceLabels =
            (name == e.workload.key.ns) := by
          rw [Selector.selects_ofLabel, show e.namespaceLabels.get? namespaceNameKey = _ from he]
          exact (Option.some_beq_some).trans BEq.comm
        rw [norm, if_neg hname, admits, admits, Selector.selects_norm, NamespaceMatch.admits,
          NamespaceMatch.admits, hlabel]

theorem Rule.anyAdmits_map_norm {e : Endpoint} (he : e.Named) (ns : String) (peers : List Peer) :
    anyAdmits e (peers.map (·.norm ns)) = anyAdmits e peers := by
  induction peers with
  | nil => rfl
  | cons p peers ih => rw [List.map_cons, anyAdmits, anyAdmits, p.admits_norm he, ih]

theorem Rule.allows_norm {e : Endpoint} (he : e.Named) (ns : String) (r : Rule)
    (port : ServicePort) (destination : Workload) :
    (r.norm ns).allows e port destination = r.allows e port destination := by
  have hpeers : (r.norm ns).admitsPeer e = r.admitsPeer e := by
    rw [norm, admitsPeer, admitsPeer, anyAdmits_map_norm he, List.isEmpty_map]
  rw [allows, allows, hpeers]
  rfl

/-! ## Decisions only look at answers of rules -/

/-- Policies with one identifier, whose rules for a direction answer alike about the traffic. -/
structure Policy.Alike (d : Direction) (traffic : Traffic) (p q : Policy) : Prop where
  id_eq : p.id = q.id
  rules : List.Forall₂
    (fun r s ↦ r.allows (traffic.peerEnd d) traffic.port traffic.destination.workload =
      s.allows (traffic.peerEnd d) traffic.port traffic.destination.workload)
    (p.rules d) (q.rules d)

namespace PolicyIndex

variable {d : Direction} {traffic : Traffic}

theorem walk_congr {rules rules' : List (String × Rule)}
    (h : List.Forall₂ (fun c c' ↦ c.1 = c'.1 ∧
      c.2.allows (traffic.peerEnd d) traffic.port traffic.destination.workload =
        c'.2.allows (traffic.peerEnd d) traffic.port traffic.destination.workload) rules rules')
    (u : Bool) : walk d traffic rules u = walk d traffic rules' u := by
  induction h generalizing u with
  | nil => rfl
  | @cons c c' rules rules' hc _ ih =>
    obtain ⟨id, r⟩ := c
    obtain ⟨id', r'⟩ := c'
    obtain ⟨rfl, hallows⟩ := hc
    rw [walk, walk, tryRules, tryRules, hallows]
    congr 1
    funext o
    cases o with
    | allowed => rfl
    | unknown => exact ih true
    | denied => exact ih u

theorem candidates_congr {policies policies' : List Policy}
    (h : List.Forall₂ (Policy.Alike d traffic) policies policies') :
    List.Forall₂ (fun c c' ↦ c.1 = c'.1 ∧
      c.2.allows (traffic.peerEnd d) traffic.port traffic.destination.workload =
        c'.2.allows (traffic.peerEnd d) traffic.port traffic.destination.workload)
      (candidates policies d) (candidates policies' d) := by
  refine List.rel_flatMap h fun p q hpq ↦ ?_
  rw [List.forall₂_map_left_iff, List.forall₂_map_right_iff]
  exact hpq.rules.imp fun r s hrs ↦ ⟨hpq.id_eq, hrs⟩

theorem decideBy_congr {policies policies' : List Policy}
    (h : List.Forall₂ (Policy.Alike d traffic) policies policies') :
    decideBy policies d traffic = decideBy policies' d traffic := by
  have hcandidates := candidates_congr h
  -- a list without rules is decided by whether there are policies
  by_cases hnil : candidates policies d = []
  · have hnil' : candidates policies' d = [] := by
      rw [hnil] at hcandidates
      exact List.forall₂_nil_left_iff.mp hcandidates
    rw [candidates] at hnil hnil'
    rw [decideBy, decideBy, hnil, hnil']
    cases h <;> rfl
  · have hnil' : candidates policies' d ≠ [] := by
      intro hnil'
      rw [hnil'] at hcandidates
      exact hnil (List.forall₂_nil_right_iff.mp hcandidates)
    rw [decideBy_of_ne_nil hnil, decideBy_of_ne_nil hnil', walk_congr hcandidates]

end PolicyIndex

/-! ## Policies that were read again -/

theorem Policy.rules_norm (p : Policy) (d : Direction) :
    p.norm.rules d = (p.rules d).map (·.norm p.target.ns) := by
  cases d <;> rfl

theorem Policy.alike_norm {d : Direction} {traffic : Traffic} (he : (traffic.peerEnd d).Named)
    (p : Policy) : Policy.Alike d traffic p.norm p where
  id_eq := rfl
  rules := by
    rw [rules_norm, List.forall₂_map_left_iff, List.forall₂_same]
    exact fun r _ ↦ r.allows_norm he _ _ _

theorem inForce_map_norm (policies : List Policy) (d : Direction) (traffic : Traffic) :
    inForce (policies.map (·.norm)) d traffic = (inForce policies d traffic).map (·.norm) := by
  rw [inForce, List.filter_map]
  rfl

theorem Topology.Keyed.named {t : Topology} (ht : t.Keyed) {flow : Flow} {traffic : Traffic}
    (h : Traffic.of t flow = .ok traffic) (d : Direction) : (traffic.peerEnd d).Named := by
  obtain ⟨-, key, hpeer⟩ := Traffic.exists_endpoint h d
  exact ht.nameLabel_of_endpoint hpeer

theorem mapM_ofDocument_toDocument {policies : List Policy}
    (h : ∀ p ∈ policies, p.Governs ∧ p.PortsValid) :
    policies.mapM (fun p ↦ Policy.ofDocument p.toDocument) = .ok (policies.map (·.norm)) := by
  refine mapM_eq_ok_map fun p hp ↦ ?_
  obtain ⟨hgoverns, hports⟩ := h p hp
  rw [Policy.ofDocument_toDocument_eq hgoverns, Policy.complaint?_eq_none_iff.mpr hports]
  rfl

/-- **Writing policies as documents and reading them again changes no decision.** This is so for
every flow of a topology that can be built, in both directions, failures included. -/
theorem decide_build_reread {t : Topology} (ht : t.Built) {policies : List Policy}
    (h : ∀ p ∈ policies, p.Governs ∧ p.PortsValid) :
    ∃ reread, policies.mapM (fun p ↦ Policy.ofDocument p.toDocument) = .ok reread ∧
      ∀ (flow : Flow) (traffic : Traffic), Traffic.of t flow = .ok traffic → ∀ d : Direction,
        (PolicyIndex.build t reread).decide d traffic =
          (PolicyIndex.build t policies).decide d traffic := by
  refine ⟨policies.map (·.norm), mapM_ofDocument_toDocument h, fun flow traffic hof d ↦ ?_⟩
  rw [PolicyIndex.decide_build ht.keyed _ hof, PolicyIndex.decide_build ht.keyed _ hof,
    inForce_map_norm]
  refine PolicyIndex.decideBy_congr ?_
  rw [List.forall₂_map_left_iff, List.forall₂_same]
  exact fun p _ ↦ p.alike_norm (ht.keyed.named hof d)

/-- A policy that names another namespace still names it. -/
theorem decide_build_reread_fromNamespace :
    ∃ reread traffic,
      [Policy.fromNamespace 80].mapM (fun p ↦ Policy.ofDocument p.toDocument) = .ok reread ∧
      Traffic.of (.conventional ["x", "y"] ["a"] []) ⟨⟨"y", "a"⟩, ⟨"x", "a"⟩, ⟨.tcp, 80⟩⟩ =
        .ok traffic ∧
      (PolicyIndex.build (.conventional ["x", "y"] ["a"] []) reread).decide .ingress traffic =
        .ok ⟨.allowed, .allowedBy "x/from"⟩ := by
  have hpolicy : ∀ p ∈ [Policy.fromNamespace 80], p.Governs ∧ p.PortsValid := by
    intro p hp
    rw [List.mem_singleton.mp hp]
    exact ⟨⟨.ingress, rfl⟩, Policy.complaint?_eq_none_iff.mp (by decide)⟩
  obtain ⟨reread, hread, hsame⟩ :=
    decide_build_reread (.conventional ["x", "y"] ["a"] []) hpolicy
  have hdecide : (do
      (PolicyIndex.build (.conventional ["x", "y"] ["a"] []) [Policy.fromNamespace 80]).decide
        .ingress (← Traffic.of (.conventional ["x", "y"] ["a"] [])
          ⟨⟨"y", "a"⟩, ⟨"x", "a"⟩, ⟨.tcp, 80⟩⟩)) =
      .ok ⟨.allowed, .allowedBy "x/from"⟩ := by decide +kernel
  obtain ⟨traffic, hof, hdecision⟩ := bind_eq_ok_iff.mp hdecide
  exact ⟨reread, traffic, hread, hof, (hsame _ _ hof .ingress).trans hdecision⟩

end Reachability
