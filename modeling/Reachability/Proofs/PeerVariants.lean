import Reachability.Proofs.PortVariants

/-!
# Variants of networks

Two variants of the catalogue pick a peer by its address: one by the address alone, the other by the
network around the address less the address itself. Together they pick that network, and no address
twice.

Membership in a network is decided by shifting away the bits that do not matter. What it means is
said by the bits that do, counted from the front, and without a shift (`Address.SharesBits`): so
clearing the other bits of a network makes no difference, and a network that leaves out no bit has
one member.
-/

namespace Reachability

/-! ## Bits of addresses -/

namespace Address

/-- A bit of an address, counted from the most significant one. -/
def bit (a : Address) (i : Nat) : Bool :=
  match a with
  | v4 bits => bits.getMsbD i
  | v6 bits => bits.getMsbD i

/-- The addresses are of one family and share so many bits at the front. -/
def SharesBits (length : Nat) (a b : Address) : Prop :=
  a.isV4 = b.isV4 ∧ ∀ i < length, a.bit i = b.bit i

/-- All bits together are the address. -/
theorem sharesBits_width_iff {a b : Address} : a.SharesBits a.width b ↔ b = a := by
  constructor
  · rintro ⟨hfamily, hbits⟩
    cases a <;> cases b
    case v4.v4 => exact congrArg v4 (BitVec.eq_of_getMsbD_eq hbits).symm
    case v6.v6 => exact congrArg v6 (BitVec.eq_of_getMsbD_eq hbits).symm
    all_goals exact absurd hfamily (by simp [isV4])
  · rintro rfl
    exact ⟨rfl, fun _ _ ↦ rfl⟩

end Address

/-! ## Membership -/

section Words

variable {w length : Nat} (h : length ≤ w)
include h

/-- Bits at the front of a word move to the end of it. -/
theorem getMsbD_shiftRight {i : Nat} (hi : i < length) (x : BitVec w) :
    (x >>> (w - length)).getMsbD (i + (w - length)) = x.getMsbD i := by
  rw [BitVec.getMsbD_ushiftRight, decide_eq_true (by omega), decide_eq_false (by omega),
    Nat.add_sub_cancel]
  rfl

/-- What is left of two words after a shift is equal if their bits at the front are. -/
theorem shiftRight_eq_iff {x y : BitVec w} :
    x >>> (w - length) = y >>> (w - length) ↔
      ∀ i < length, x.getMsbD i = y.getMsbD i := by
  constructor
  · intro heq i hi
    rw [← getMsbD_shiftRight h hi, heq, getMsbD_shiftRight h hi]
  · intro hbits
    refine BitVec.eq_of_getMsbD_eq fun i hi ↦ ?_
    rw [BitVec.getMsbD_ushiftRight, BitVec.getMsbD_ushiftRight]
    by_cases hlow : i < w - length
    · simp [hlow]
    · rw [hbits (i - (w - length)) (by omega)]

/-- Bits at the front of a word stay when the others are cleared. -/
theorem getMsbD_cleared {i : Nat} (hi : i < length) (x : BitVec w) :
    (x >>> (w - length) <<< (w - length)).getMsbD i = x.getMsbD i := by
  rw [BitVec.getMsbD_shiftLeft, getMsbD_shiftRight h hi]

end Words

namespace Network

/-- A network contains the addresses that share the bits of its length. -/
theorem contains_iff {net : Network} {a : Address} :
    net.contains a ↔ net.address.SharesBits net.length a := by
  obtain ⟨b, length, h⟩ := net
  cases b <;> cases a
  case v4.v4 x y =>
    have hbits := shiftRight_eq_iff (w := 32) h (x := x) (y := y)
    simpa [contains, Address.SharesBits, Address.isV4, Address.bit] using hbits
  case v6.v6 x y =>
    have hbits := shiftRight_eq_iff (w := 128) h (x := x) (y := y)
    simpa [contains, Address.SharesBits, Address.isV4, Address.bit] using hbits
  all_goals simp [contains, Address.SharesBits, Address.isV4]

/-- The network of a single address contains that address only. -/
theorem contains_host_iff {a b : Address} : (host b).contains a ↔ a = b :=
  contains_iff.trans Address.sharesBits_width_iff

theorem bit_maskAddress {a : Address} {length i : Nat} (h : length ≤ a.width) (hi : i < length) :
    (maskAddress a length).bit i = a.bit i := by
  cases a with
  | v4 bits => exact getMsbD_cleared (w := 32) h hi bits
  | v6 bits => exact getMsbD_cleared (w := 128) h hi bits

theorem isV4_maskAddress (a : Address) (length : Nat) : (maskAddress a length).isV4 = a.isV4 := by
  cases a <;> rfl

/-- Whether bits that do not matter are cleared makes no difference to membership. -/
theorem contains_canonical_iff {net : Network} {a : Address} :
    net.canonical.contains a ↔ net.address.SharesBits net.length a := by
  rw [contains_iff, Address.SharesBits, Address.SharesBits, canonical, isV4_maskAddress]
  refine and_congr_right' (forall₂_congr fun i hi ↦ ?_)
  rw [bit_maskAddress net.bounded hi]

end Network

/-- A match contains what its network contains and none of its exceptions does. -/
theorem NetworkMatch.contains_iff {m : NetworkMatch} {a : Address} :
    m.contains a ↔ m.network.contains a ∧ ∀ net ∈ m.except, ¬net.contains a := by
  simp [contains]

/-! ## Rules with one peer -/

section OnePeer

variable {d : Direction} {traffic : Traffic} {peer : Peer} {p : Policy}

theorem Rule.allowsIn_onePeer_iff :
    (⟨[peer], []⟩ : Rule).AllowsIn d traffic ↔ peer.Matches (traffic.peerEnd d) := by
  simp [AllowsIn, Allows, PeerMatches, CoversPort]

theorem Rule.not_undecidedIn_onePeer : ¬(⟨[peer], []⟩ : Rule).UndecidedIn d traffic := by
  simp [UndecidedIn, Undecided, PortUndecided]

/-- A policy with a single rule for a peer allows the traffic with that peer and denies all other
traffic. -/
theorem Decides.onePeer_outcome {a : Decision} (h : Decides [p] d traffic (.ok a))
    (governs : p.governs (traffic.localEnd d).workload d) (rules : p.rules d = [⟨[peer], []⟩]) :
    (a.outcome = .allowed ↔ peer.Matches (traffic.peerEnd d)) ∧ a.outcome ≠ .unknown := by
  constructor
  · rw [h.single_outcome_eq_allowed_iff, rules]
    simp [governs, Rule.allowsIn_onePeer_iff]
  · refine h.outcome_ne_unknown ?_
    rw [rulesInForce_single governs, rules, List.forall_mem_singleton]
    exact Rule.not_undecidedIn_onePeer

end OnePeer

/-! ## Policies for networks -/

/-- The traffic is let in if the proposition holds and kept out if it does not, and nothing else
stops it. -/
def Explanation.LetsIn (e : Explanation) (P : Prop) : Prop :=
  (P → e.ingress.outcome = .allowed ∧ e.outcome = .allowed) ∧
    (¬P → e.ingress.outcome = .denied ∧ e.outcome = .denied)

theorem Explanation.LetsIn.ingress_allowed_iff {e : Explanation} {P : Prop} (h : e.LetsIn P) :
    e.ingress.outcome = .allowed ↔ P := by
  by_cases hP : P
  · simp [hP, (h.1 hP).1]
  · simp [hP, (h.2 hP).1]

open PolicyIndex

/-- A policy for ingress with a single rule for a network lets in what the network contains. -/
theorem Policy.explain_oneNetwork {t : Topology} (ht : t.Keyed) (haddressed : t.Addressed)
    {source destination : Workload} (hs : source ∈ t.workloads) (hd : destination ∈ t.workloads)
    (port : ServicePort) {p : Policy} {m : NetworkMatch}
    (only : ¬p.target.directions.contains .egress) (governs : p.governs destination .ingress)
    (rules : p.rules .ingress = [⟨[.network m], []⟩]) {a : Address}
    (haddress : source.address = some a) :
    ∃ e, (build t [p]).explainFlow t ⟨source.key, destination.key, port⟩ = .ok e ∧
      e.LetsIn (m.contains a) := by
  obtain ⟨traffic, hof, -, rfl, -, rfl, rfl⟩ := ht.traffic_eq_ok hs hd port
  obtain ⟨e, he, hdecides⟩ := haddressed.exists_explain ht hof [p]
  have hegress : e.egress = ⟨.allowed, .untargeted⟩ := by
    have hnot : ¬p.governs (traffic.localEnd .egress).workload .egress := by
      intro hgoverns
      rw [Policy.governs, Bool.and_eq_true] at hgoverns
      exact only hgoverns.2
    exact Except.ok.inj ((hdecides .egress).unique (.single_of_not_governs hnot))
  obtain ⟨hallowed, hknown⟩ := (hdecides .ingress).onePeer_outcome governs rules
  have hmatches : e.ingress.outcome = .allowed ↔ m.contains a := by
    refine hallowed.trans ?_
    rw [Peer.Matches, show (traffic.peerEnd .ingress).workload.address = some a from haddress]
    simp
  refine ⟨e, (explainFlow_eq hof _).trans he, ?_⟩
  rw [Explanation.LetsIn, ← hmatches, Explanation.outcome, hegress]
  cases ho : e.ingress.outcome with
  | allowed => exact ⟨fun _ ↦ ⟨rfl, rfl⟩, fun h ↦ absurd rfl h⟩
  | denied => exact ⟨fun h ↦ absurd h (by simp), fun _ ↦ ⟨rfl, rfl⟩⟩
  | unknown => exact absurd ho hknown

namespace Catalogue

variable (c : Catalogue)

/-- The addresses near the peer: those that share its first 24 bits in version 4, and its first 120
bits in version 6. -/
def NearPeer (a : Address) : Prop :=
  c.peer.SharesBits (if c.peer.isV4 then 24 else 120) a

theorem surroundings_contains_iff {a : Address} :
    (surroundings c.peer).contains a ↔ c.NearPeer a := by
  rw [surroundings, Network.contains_canonical_iff, NearPeer]
  cases c.peer <;> rfl

/-- The match for the peer alone. -/
def hostMatch : NetworkMatch := ⟨.host c.peer, []⟩

/-- The match for the network around the peer without the peer. -/
def aroundMatch : NetworkMatch := ⟨surroundings c.peer, [.host c.peer]⟩

theorem hostMatch_contains_iff {a : Address} : c.hostMatch.contains a ↔ a = c.peer := by
  rw [NetworkMatch.contains_iff, hostMatch, Network.contains_host_iff]
  simp

theorem aroundMatch_contains_iff {a : Address} :
    c.aroundMatch.contains a ↔ c.NearPeer a ∧ a ≠ c.peer := by
  rw [NetworkMatch.contains_iff, aroundMatch, surroundings_contains_iff, List.forall_mem_singleton,
    Network.contains_host_iff]

/-- The policy of a family for a variant that is a network. -/
def networkPolicy (d : Direction) (variant : String) (m : NetworkMatch) : Policy :=
  c.ofEntry d (c.peerEntry (variant, .network m))

theorem target_networkPolicy (d : Direction) (variant : String) (m : NetworkMatch) :
    (c.networkPolicy d variant m).target = ⟨c.typicalNamespace, typicalTarget, .only d⟩ :=
  c.target_ofEntry d _

theorem rulePolicy?_network {variant : String} {m : NetworkMatch}
    (h : (variant, Peer.network m) ∈ c.peers) (d : Direction) :
    c.rulePolicy? d s!"peer-{variant}" = some (c.networkPolicy d variant m) :=
  c.rulePolicy?_of_mem (c.mem_entries_rules_iff.mpr (Or.inr (Or.inr (Or.inl ⟨_, h, rfl⟩))))

theorem host_mem_peers : ("ip", Peer.network c.hostMatch) ∈ c.peers := by
  simp [peers, hostMatch]

theorem around_mem_peers : ("ip-except", Peer.network c.aroundMatch) ∈ c.peers := by
  simp [peers, aroundMatch]

/-- **The two variants of networks split the network around the peer.** The families of rules
always have both. In a topology in which every workload has an address, and for any traffic into a
workload that they are for, the first lets in what comes from the address of the peer, and the
second what comes from any other address near it: no source is let in by both, and a source near the
peer is let in by one of them. -/
theorem network_variants_split :
    ∃ p q : Direction → Policy,
      (∀ d, c.rulePolicy? d "peer-ip" = some (p d) ∧
        c.rulePolicy? d "peer-ip-except" = some (q d) ∧ (p d).target = (q d).target) ∧
      ∀ t : Topology, t.Built → t.Addressed → ∀ source ∈ t.workloads, ∀ destination ∈ t.workloads,
        ∀ port : ServicePort, (p .ingress).governs destination .ingress →
          ∃ a e e', source.address = some a ∧
            (build t [p .ingress]).explainFlow t ⟨source.key, destination.key, port⟩ = .ok e ∧
            (build t [q .ingress]).explainFlow t ⟨source.key, destination.key, port⟩ = .ok e' ∧
            e.LetsIn (a = c.peer) ∧ e'.LetsIn (c.NearPeer a ∧ a ≠ c.peer) ∧
            ¬(e.ingress.outcome = .allowed ∧ e'.ingress.outcome = .allowed) ∧
            (c.NearPeer a →
              Xor (e.ingress.outcome = .allowed) (e'.ingress.outcome = .allowed)) := by
  refine ⟨fun d ↦ c.networkPolicy d "ip" c.hostMatch,
    fun d ↦ c.networkPolicy d "ip-except" c.aroundMatch, fun d ↦ ?_, ?_⟩
  · exact ⟨c.rulePolicy?_network c.host_mem_peers d, c.rulePolicy?_network c.around_mem_peers d,
      by rw [target_networkPolicy, target_networkPolicy]⟩
  · intro t ht haddressed source hs destination hd port hgoverns
    obtain ⟨a, ha⟩ := Option.ne_none_iff_exists'.mp (haddressed source hs)
    have hexplain : ∀ variant m, ∃ e, (build t [c.networkPolicy .ingress variant m]).explainFlow t
        ⟨source.key, destination.key, port⟩ = .ok e ∧ e.LetsIn (m.contains a) := by
      intro variant m
      refine Policy.explain_oneNetwork ht.keyed haddressed hs hd port ?_ ?_ rfl ha
      · rw [target_networkPolicy]
        exact Bool.false_ne_true
      · -- all policies of the family are for the same target
        rwa [Policy.governs, target_networkPolicy] at hgoverns ⊢
    obtain ⟨e, he, hlets⟩ := hexplain "ip" c.hostMatch
    obtain ⟨e', he', hlets'⟩ := hexplain "ip-except" c.aroundMatch
    rw [hostMatch_contains_iff] at hlets
    rw [aroundMatch_contains_iff] at hlets'
    refine ⟨a, e, e', ha, he, he', hlets, hlets', ?_, fun hnear ↦ ?_⟩
    · rw [hlets.ingress_allowed_iff, hlets'.ingress_allowed_iff]
      exact fun h ↦ h.2.2 h.1
    · rw [hlets.ingress_allowed_iff, hlets'.ingress_allowed_iff]
      by_cases hpeer : a = c.peer
      · exact Or.inl ⟨hpeer, fun h ↦ h.2 hpeer⟩
      · exact Or.inr ⟨⟨hnear, hpeer⟩, hpeer⟩

/-- The peer may reach its neighbour under the one policy, and the neighbour itself under the
other. -/
theorem network_variants_split_runningPair :
    let c : Catalogue := ⟨["x"], .v4 0x0A000002#32, ⟨.tcp, 80⟩, false⟩
    let flow (pod : String) : Flow := ⟨⟨"x", pod⟩, ⟨"x", "a"⟩, ⟨.tcp, 80⟩⟩
    ∃ p q, c.rulePolicy? .ingress "peer-ip" = some p ∧
      c.rulePolicy? .ingress "peer-ip-except" = some q ∧
      (∃ e e', (build .runningPair [p]).explainFlow .runningPair (flow "b") = .ok e ∧
        (build .runningPair [q]).explainFlow .runningPair (flow "b") = .ok e' ∧
        e.ingress.outcome = .allowed ∧ e'.ingress.outcome = .denied) ∧
      ∃ e e', (build .runningPair [p]).explainFlow .runningPair (flow "a") = .ok e ∧
        (build .runningPair [q]).explainFlow .runningPair (flow "a") = .ok e' ∧
        e.ingress.outcome = .denied ∧ e'.ingress.outcome = .allowed := by
  intro c flow
  let pod (name : String) (a : Address) : Workload :=
    { Topology.pairPod name with address := some a }
  have ha : pod "a" (.v4 0x0A000001#32) ∈ Topology.runningPair.workloads := by decide +kernel
  have hb : pod "b" (.v4 0x0A000002#32) ∈ Topology.runningPair.workloads := by decide +kernel
  obtain ⟨p, q, hpolicies, hsplit⟩ := c.network_variants_split
  obtain ⟨hp, hq, -⟩ := hpolicies .ingress
  have hgoverns : (p .ingress).governs (pod "a" (.v4 0x0A000001#32)) .ingress := by
    have hfound : (c.rulePolicy? .ingress "peer-ip").all
        (·.governs (pod "a" (.v4 0x0A000001#32)) .ingress) := by decide +kernel
    rwa [hp] at hfound
  have hexplained := fun source hs ↦ hsplit .runningPair Topology.built_runningPair
    Topology.addressed_runningPair source hs _ ha ⟨.tcp, 80⟩ hgoverns
  refine ⟨p .ingress, q .ingress, hp, hq, ?_, ?_⟩
  · obtain ⟨a, e, e', haddress, he, he', hlets, hlets', -⟩ := hexplained _ hb
    obtain rfl := Option.some.inj haddress
    exact ⟨e, e', he, he', (hlets.1 rfl).1, (hlets'.2 fun h ↦ h.2 rfl).1⟩
  · obtain ⟨a, e, e', haddress, he, he', hlets, hlets', -⟩ := hexplained _ ha
    obtain rfl := Option.some.inj haddress
    have hother : (Address.v4 0x0A000001#32) ≠ c.peer := by decide
    have hnear : c.NearPeer (.v4 0x0A000001#32) := ⟨rfl, by decide +kernel⟩
    exact ⟨e, e', he, he', (hlets.2 hother).1, (hlets'.1 ⟨hnear, hother⟩).1⟩

end Catalogue

end Reachability
