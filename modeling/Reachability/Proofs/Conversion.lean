import Reachability.Document.Conversion
import Reachability.Proofs.Address
import Reachability.Proofs.Sequence
import Reachability.Proofs.SortedMap

/-!
# Policies through documents

What is left of a policy that is written as a document and read again. Reading finds two kinds of
defects in what was written, both in numbered ports: a port zero, and a range that ends before it
starts (`PortMatch.complaint?`). Without a defect the policy comes back, except that peers have a
canonical form (`Policy.norm`): another namespace is picked by the label that carries its name, and
a selector beside a namespace selector has no part if it asks for nothing.

Every layer of the format is a list inside of an optional field, an absent field and an empty list
being the same. `mapM_eq_of_complaint` carries the statement about a layer over to a list of them:
either every element reads back, or the first complaint about an element is the complaint about the
list.
-/

namespace Reachability

/-! ## Lists in documents -/

/-- What reading gives: the first complaint if there is one, and else the value. -/
def readResult {α : Type} (complaint : Option String) (a : α) : Except String α :=
  complaint.elim (.ok a) .error

theorem mapM_eq_of_complaint {α β γ : Type} {read : β → Except String γ} {write : α → β}
    {norm : α → γ} {complaint : α → Option String}
    (h : ∀ a, read (write a) = readResult (complaint a) (norm a)) (l : List α) :
    (l.map write).mapM read = readResult (l.findSome? complaint) (l.map norm) := by
  induction l with
  | nil => rfl
  | cons a l ih =>
    rw [List.map_cons, List.mapM_cons, h, ih, List.findSome?_cons]
    cases complaint a with
    | some reason => rfl
    | none => cases l.findSome? complaint <;> rfl

theorem mapM_map_eq_ok {α β γ : Type} {read : β → Except String γ} {write : α → β}
    {norm : α → γ} (h : ∀ a, read (write a) = .ok (norm a)) (l : List α) :
    (l.map write).mapM read = .ok (l.map norm) := by
  rw [List.mapM_map]
  exact mapM_eq_ok_map fun a _ ↦ h a

/-- An absent list is read as an empty one. -/
@[simp] theorem Policy.getD_nonempty {α : Type} (l : List α) : (nonempty l).getD [] = l := by
  cases l <;> rfl

/-! ## Selectors -/

theorem Operator.parse_name (op : Operator) : parse op.name = .ok op := by
  cases op <;> decide +kernel

theorem Requirement.ofWire_toWire (r : Requirement) : ofWire r.toWire = .ok r := by
  have hvalues : SortedSet.ofList (r.toWire.values.getD []) = r.values := by
    rw [toWire]
    split
    · rename_i hempty
      rw [← SortedSet.ofList_members r.values, SortedSet.isEmpty_iff.mp hempty]
      rfl
    · exact SortedSet.ofList_members r.values
  rw [ofWire, hvalues, toWire, Operator.parse_name]
  rfl

/-- Absent and empty parts of a selector are kept apart. -/
theorem Selector.ofWire_toWire (s : Selector) : ofWire s.toWire = .ok s := by
  obtain ⟨labels, requirements⟩ := s
  cases requirements with
  | none => rfl
  | some rs =>
    have hread := mapM_map_eq_ok Requirement.ofWire_toWire rs
    rw [List.map_id'] at hread
    rw [ofWire, toWire, Option.map_some, Option.mapM_some, hread]
    rfl

namespace Selector

/-- The selector without any part if nothing is asked for. -/
def norm (s : Selector) : Selector := if s.isEmpty then .everything else s

@[simp] theorem norm_norm (s : Selector) : s.norm.norm = s.norm := by
  by_cases hempty : s.isEmpty
  · have hnorm : s.norm = .everything := if_pos hempty
    rw [hnorm]
    rfl
  · have hnorm : s.norm = s := if_neg hempty
    rw [hnorm, hnorm]

theorem optionalSelector_norm (s : Selector) :
    Policy.optionalSelector s.norm = Policy.optionalSelector s := by
  rw [norm]
  split
  · rename_i hempty
    rw [Policy.optionalSelector, Policy.optionalSelector, if_pos hempty]
    rfl
  · rfl

/-- A selector beside a namespace selector. -/
theorem mapM_optionalSelector (s : Selector) :
    ∃ read, (Policy.optionalSelector s).mapM ofWire = .ok read ∧
      read.getD .everything = s.norm := by
  rw [Policy.optionalSelector, norm]
  split
  · exact ⟨none, rfl, rfl⟩
  · refine ⟨some s, ?_, rfl⟩
    rw [Option.mapM_some, ofWire_toWire]
    rfl

end Selector

/-! ## Peers -/

/-- The canonical form of a peer of a policy in a namespace. -/
def Peer.norm (ns : String) : Peer → Peer
  | .pods (.named name) selector =>
    if name = ns then .pods (.named name) selector
    else .pods (.selected (.ofLabel namespaceNameKey name)) selector.norm
  | .pods (.selected namespaces) selector => .pods (.selected namespaces) selector.norm
  | .network net => .network net

namespace Policy

theorem networkOfWire_toString (net : Network) : networkOfWire (toString net) = .ok net := by
  rw [networkOfWire, Network.parseOrHost?_toString]

theorem peerOfWire_selected (ns : String) (namespaces pods : Selector) :
    peerOfWire ns ⟨none, some namespaces.toWire, optionalSelector pods⟩ =
      .ok (.pods (.selected namespaces) pods.norm) := by
  obtain ⟨read, hread, hpods⟩ := pods.mapM_optionalSelector
  rw [peerOfWire, hread, ← hpods, Option.mapM_some, Selector.ofWire_toWire]
  cases read <;> rfl

theorem peerOfWire_peerToWire (ns : String) (p : Peer) :
    peerOfWire ns (peerToWire ns p) = .ok (p.norm ns) := by
  cases p with
  | network m =>
    have hexcept := mapM_map_eq_ok networkOfWire_toString m.except
    rw [List.map_id'] at hexcept
    simp only [peerToWire, peerOfWire, Option.mapM_none, pure_bind, networkOfWire_toString,
      getD_nonempty, hexcept, ok_bind]
    rfl
  | pods namespaces pods =>
    cases namespaces with
    | selected namespaces => exact peerOfWire_selected ns namespaces pods
    | named name =>
      rw [peerToWire, Peer.norm]
      split
      · rename_i hname
        rw [peerOfWire, Option.mapM_some, Selector.ofWire_toWire, hname]
        rfl
      · exact peerOfWire_selected ns _ pods

end Policy

/-! ## Ports -/

/-- The complaint about a port matcher that no document can express. -/
def PortMatch.complaint? : PortMatch → Option String
  | .number _ first last =>
    if first = 0 ∨ last = some 0 then some "invalid port: 0"
    else if last.any (· < first) then some "endPort must not be less than port"
    else none
  | _ => none

/-- A number is a port, and a range does not end before it starts. -/
def PortMatch.Valid : PortMatch → Prop
  | .number _ first last => first ≠ 0 ∧ ∀ n, last = some n → first ≤ n
  | _ => True

theorem PortMatch.complaint?_eq_none_iff {m : PortMatch} : m.complaint? = none ↔ m.Valid := by
  cases m with
  | protocol p => simp [complaint?, Valid]
  | name p name => simp [complaint?, Valid]
  | number p first last =>
    rw [complaint?, Valid]
    by_cases hfirst : first = 0
    · simp [hfirst]
    cases last with
    | none => simp [hfirst]
    | some n =>
      have hpos : first ≤ n → n ≠ 0 := by
        rintro hle rfl
        exact hfirst (UInt16.le_zero_iff.mp hle)
      by_cases hn : n = 0
      · simp [hfirst, hn]
      · simp [hfirst, hn, UInt16.not_lt]

namespace Policy

theorem portNumberOfWire_toNat (n : UInt16) :
    portNumberOfWire (n.toNat : Int) =
      readResult (if n = 0 then some "invalid port: 0" else none) n := by
  rw [portNumberOfWire]
  by_cases hn : n = 0
  · subst hn
    decide +kernel
  · have hpos : n.toNat ≠ 0 := fun h ↦ hn (UInt16.toNat_inj.mp h)
    have hlt : n.toNat < 65536 := n.toNat_lt
    rw [if_pos (by omega), if_neg hn, Int.toNat_natCast]
    exact congrArg Except.ok (UInt16.ofNat_toNat)

theorem portOfWire_portToWire (m : PortMatch) :
    portOfWire (portToWire m) = readResult m.complaint? m := by
  have hprotocol : ∀ p : Protocol, Protocol.parse p.name = .ok p := by
    intro p
    cases p <;> decide +kernel
  cases m with
  | protocol p =>
    simp only [portToWire, portOfWire, Option.mapM_some, hprotocol]
    rfl
  | name p name =>
    simp only [portToWire, portOfWire, Option.mapM_some, hprotocol]
    rfl
  | number p first last =>
    simp only [portToWire, portOfWire, Option.mapM_some, hprotocol, portNumberOfWire_toNat,
      PortMatch.complaint?]
    by_cases hfirst : first = 0
    · simp only [hfirst, if_true, true_or]
      rfl
    · cases last with
      | none =>
        simp only [hfirst, if_false]
        rfl
      | some n =>
        simp only [Option.map_some, Option.mapM_some, portNumberOfWire_toNat, hfirst, if_false]
        by_cases hn : n = 0
        · simp only [hn, if_true]
          rfl
        · -- both numbers are ports, and the range may still be the wrong way round
          have hvalid : ¬(False ∨ some n = some 0) := by simpa using hn
          rw [if_neg hn, if_neg hvalid]
          simp only [readResult, Option.elim_none, map_ok, ok_bind, Option.any_some]
          split
          · rfl
          · rfl

end Policy

/-! ## Rules -/

/-- The canonical form of a rule of a policy in a namespace. -/
def Rule.norm (ns : String) (r : Rule) : Rule := ⟨r.peers.map (·.norm ns), r.ports⟩

/-- The first complaint about a rule. -/
def Rule.complaint? (r : Rule) : Option String := r.ports.findSome? (·.complaint?)

theorem Policy.ruleOfWire_ruleToWire (ns : String) (r : Rule) :
    ruleOfWire ns (ruleToWire ns r) = readResult r.complaint? (r.norm ns) := by
  have hpeers := mapM_map_eq_ok (peerOfWire_peerToWire ns) r.peers
  have hports := mapM_eq_of_complaint portOfWire_portToWire r.ports
  rw [List.map_id'] at hports
  rw [ruleOfWire, ruleToWire, getD_nonempty, getD_nonempty, hpeers, hports, Rule.complaint?,
    Rule.norm]
  cases r.ports.findSome? (·.complaint?) with
  | none => rfl
  | some reason => rfl

/-! ## Policies -/

namespace Policy

/-- The canonical form of a policy. -/
def norm (p : Policy) : Policy where
  name := p.name
  target := p.target
  ingress := p.ingress.map (·.norm p.target.ns)
  egress := p.egress.map (·.norm p.target.ns)

/-- The first complaint about a policy. -/
def complaint? (p : Policy) : Option String := (p.ingress ++ p.egress).findSome? (·.complaint?)

/-- All port matchers of a policy are valid. -/
def PortsValid (p : Policy) : Prop := ∀ (d : Direction), ∀ r ∈ p.rules d, ∀ m ∈ r.ports, m.Valid

/-- The policy governs a direction. -/
def Governs (p : Policy) : Prop := ∃ d, p.target.directions.contains d

theorem complaint?_eq_none_iff {p : Policy} : p.complaint? = none ↔ p.PortsValid := by
  simp only [complaint?, Rule.complaint?, List.findSome?_eq_none_iff, List.mem_append,
    PortMatch.complaint?_eq_none_iff]
  constructor
  · intro h d r hr
    cases d with
    | ingress => exact h r (Or.inl hr)
    | egress => exact h r (Or.inr hr)
  · rintro h r (hr | hr)
    · exact h .ingress r hr
    · exact h .egress r hr

/-- The policy types of a document tell the governed directions. -/
theorem directionsOf_policyTypes {p : Policy} (h : p.Governs) (egress : List Rule) :
    ∃ types, (policyTypes p.target.directions).mapM Direction.ofPolicyType = .ok types ∧
      directionsOf types egress = p.target.directions := by
  obtain ⟨d, hd⟩ := h
  generalize p.target.directions = ds at hd
  obtain ⟨ingress, egress⟩ := ds
  cases ingress <;> cases egress
  · -- only here the list of types is empty, which would be read as a default
    cases d <;> exact absurd hd (by decide)
  · exact ⟨[.egress], rfl, rfl⟩
  · exact ⟨[.ingress], rfl, rfl⟩
  · exact ⟨[.ingress, .egress], rfl, rfl⟩

theorem ofSpec_toDocument {p : Policy} (h : p.Governs) :
    ∃ spec, p.toDocument.spec = some spec ∧
      ofSpec p.name p.target.ns spec = readResult p.complaint? p.norm := by
  refine ⟨_, rfl, ?_⟩
  have hrules := mapM_eq_of_complaint (ruleOfWire_ruleToWire p.target.ns)
  obtain ⟨types, htypes, hdirections⟩ :=
    directionsOf_policyTypes h (p.egress.map (·.norm p.target.ns))
  simp only [ofSpec, Selector.ofWire_toWire, getD_nonempty, hrules, Option.getD_some, htypes,
    complaint?, List.findSome?_append]
  cases p.ingress.findSome? (·.complaint?) with
  | some reason => rfl
  | none =>
    cases p.egress.findSome? (·.complaint?) with
    | some reason => rfl
    | none =>
      simp only [readResult, Option.elim_none, Option.none_or, norm]
      refine congrArg Except.ok ?_
      rw [hdirections]

theorem ofDocument_toDocument_eq {p : Policy} (h : p.Governs) :
    ofDocument p.toDocument = (readResult p.complaint? p.norm).mapError (.invalidPolicy p.id) := by
  obtain ⟨spec, hspec, hread⟩ := ofSpec_toDocument h
  rw [← hread, ofDocument, hspec]
  rfl

end Policy

/-! ## Canonical forms -/

theorem Peer.norm_norm (ns : String) (p : Peer) : (p.norm ns).norm ns = p.norm ns := by
  cases p with
  | network m => rfl
  | pods namespaces pods =>
    cases namespaces with
    | selected namespaces => rw [norm, norm, Selector.norm_norm]
    | named name =>
      by_cases hname : name = ns
      · rw [norm, if_pos hname, norm, if_pos hname]
      · rw [norm, if_neg hname, norm, Selector.norm_norm]

theorem Peer.peerToWire_norm (ns : String) (p : Peer) :
    Policy.peerToWire ns (p.norm ns) = Policy.peerToWire ns p := by
  cases p with
  | network m => rfl
  | pods namespaces pods =>
    cases namespaces with
    | selected namespaces =>
      rw [norm, Policy.peerToWire, Policy.peerToWire, Selector.optionalSelector_norm]
    | named name =>
      by_cases hname : name = ns
      · rw [norm, if_pos hname]
      · rw [norm, if_neg hname, Policy.peerToWire, Policy.peerToWire, if_neg hname,
          Selector.optionalSelector_norm]

theorem Rule.norm_norm (ns : String) (r : Rule) : (r.norm ns).norm ns = r.norm ns := by
  rw [norm, norm, List.map_map]
  congr 1
  exact List.map_congr_left fun p _ ↦ p.norm_norm ns

theorem Rule.ruleToWire_norm (ns : String) (r : Rule) :
    Policy.ruleToWire ns (r.norm ns) = Policy.ruleToWire ns r := by
  rw [Policy.ruleToWire, norm, List.map_map, Policy.ruleToWire]
  congr 2
  exact List.map_congr_left fun p _ ↦ p.peerToWire_norm ns

namespace Policy

theorem norm_norm (p : Policy) : p.norm.norm = p.norm := by
  simp only [norm, List.map_map]
  congr 1
  · exact List.map_congr_left fun r _ ↦ r.norm_norm p.target.ns
  · exact List.map_congr_left fun r _ ↦ r.norm_norm p.target.ns

theorem toDocument_norm (p : Policy) : p.norm.toDocument = p.toDocument := by
  have hrules : ∀ rules : List Rule,
      (rules.map (·.norm p.target.ns)).map (ruleToWire p.target.ns) =
        rules.map (ruleToWire p.target.ns) := by
    intro rules
    rw [List.map_map]
    exact List.map_congr_left fun r _ ↦ r.ruleToWire_norm p.target.ns
  simp only [toDocument, norm, hrules]

/-- **The round trip of a policy through a document.** It fails exactly for an invalid port, and
otherwise gives the canonical form of the policy, which has the same document. -/
theorem ofDocument_toDocument {p : Policy} (h : p.Governs) :
    (∀ q, ofDocument p.toDocument = .ok q ↔ p.PortsValid ∧ q = p.norm) ∧
      (¬p.PortsValid →
        ∃ reason, ofDocument p.toDocument = .error (.invalidPolicy p.id reason)) ∧
      p.norm.norm = p.norm ∧ p.norm.toDocument = p.toDocument := by
  refine ⟨fun q ↦ ?_, fun hports ↦ ?_, p.norm_norm, p.toDocument_norm⟩
  · rw [ofDocument_toDocument_eq h, ← complaint?_eq_none_iff]
    cases p.complaint? with
    | none => simp [readResult, Except.mapError, eq_comm]
    | some reason => simp [readResult, Except.mapError]
  · rw [← complaint?_eq_none_iff, ← ne_eq, Option.ne_none_iff_exists'] at hports
    obtain ⟨reason, hreason⟩ := hports
    refine ⟨reason, ?_⟩
    rw [ofDocument_toDocument_eq h, hreason]
    rfl

/-- Receives on a port from every pod of another namespace. -/
def fromNamespace (port : UInt16) : Policy where
  name := "from"
  target := ⟨"x", .everything, .only .ingress⟩
  ingress := [⟨[.pods (.named "y") (.ofLabels ∅)], [.number .tcp port none]⟩]
  egress := []

/-- The other namespace is picked by its label, and port zero is refused. -/
theorem ofDocument_toDocument_fromNamespace :
    ofDocument (fromNamespace 80).toDocument = .ok { fromNamespace 80 with
        ingress := [⟨[.pods (.selected (.ofLabel namespaceNameKey "y")) .everything],
          [.number .tcp 80 none]⟩] } ∧
      ∃ reason, ofDocument (fromNamespace 0).toDocument =
        .error (.invalidPolicy "x/from" reason) := by
  have hvalid : (fromNamespace 80).PortsValid := complaint?_eq_none_iff.mp (by decide)
  have hinvalid : ¬(fromNamespace 0).PortsValid := by
    rw [← complaint?_eq_none_iff]
    decide
  obtain ⟨hread, -⟩ := ofDocument_toDocument (p := fromNamespace 80) ⟨.ingress, rfl⟩
  obtain ⟨-, hrefused, -⟩ := ofDocument_toDocument (p := fromNamespace 0) ⟨.ingress, rfl⟩
  exact ⟨(hread _).mpr ⟨hvalid, by decide⟩, hrefused hinvalid⟩

end Policy

end Reachability
