import Reachability.Document.Encoding
import Reachability.Policy

/-!
# Policies from documents and back

A document is checked and read as a policy, and a policy is written as a document that means the
same. A document that does not say which directions its policy governs stands for ingress, and for
egress too if it has rules for that. In the other direction the policy types are always written, so
that a governed direction without rules is not lost.

## Main definitions

* `Selector.ofWire`, `Selector.toWire`: selectors.
* `Policy.ofDocument`: the policy of a document, or the first complaint about it.
* `Policy.toDocument`: the document of a policy.
-/

namespace Reachability

/-! ## Selectors -/

/-- The requirement of a document, whose operator must be known. -/
def Requirement.ofWire (r : WireRequirement) : Except String Requirement := do
  return ⟨r.key, ← Operator.parse r.operator, SortedSet.ofList (r.values.getD [])⟩

/-- The requirement as a document writes it. An empty set of values is left out. -/
def Requirement.toWire (r : Requirement) : WireRequirement where
  key := r.key
  operator := r.operator.name
  values := if r.values.isEmpty then none else some r.values.members

/-- The selector of a document, or the complaint about its first unknown operator. -/
def Selector.ofWire (s : WireSelector) : Except String Selector := do
  return ⟨s.matchLabels, ← s.matchExpressions.mapM (·.mapM Requirement.ofWire)⟩

/-- The selector as a document writes it. -/
def Selector.toWire (s : Selector) : WireSelector where
  matchExpressions := s.requirements.map (·.map Requirement.toWire)
  matchLabels := s.matchLabels

/-! ## Policy types -/

/-- The name of a direction among policy types. -/
def Direction.policyType : Direction → String
  | ingress => "Ingress"
  | egress => "Egress"

/-- The direction with exactly the given name among policy types, or the complaint about it. -/
def Direction.ofPolicyType (s : String) : Except String Direction :=
  if s = "Ingress" then .ok .ingress
  else if s = "Egress" then .ok .egress
  else .error s!"invalid policy type: {Text.quoted s}"

/-! ## Reading a policy -/

namespace Policy

/-- The network of a document, which may be a plain address. -/
def networkOfWire (cidr : String) : Except String Network :=
  match Network.parseOrHost? cidr with
  | some net => .ok net
  | none => .error s!"invalid CIDR: {Text.quoted cidr}"

/-- The peer of a document in a namespace. -/
def peerOfWire (ns : String) (p : WirePeer) : Except String Peer := do
  let pods ← p.podSelector.mapM Selector.ofWire
  let namespaces ← p.namespaceSelector.mapM Selector.ofWire
  match pods, namespaces, p.network with
  | none, none, some n =>
    let net ← networkOfWire n.cidr
    return .network ⟨net, ← (n.except.getD []).mapM networkOfWire⟩
  | _, _, some _ => throw "ipBlock may not be combined with selectors"
  | some pods, none, none => return .pods (.named ns) pods
  | pods, some namespaces, none => return .pods (.selected namespaces) (pods.getD .everything)
  | none, none, none => throw "peer selects nothing"

/-- The number of a port of a document. -/
def portNumberOfWire (n : Int) : Except String UInt16 :=
  if 0 < n ∧ n < 65536 then .ok n.toNat.toUInt16 else .error s!"invalid port: {n}"

/-- The port of a document. -/
def portOfWire (p : WirePort) : Except String PortMatch := do
  let protocol ← (p.protocol.mapM Protocol.parse)
  let protocol := protocol.getD .tcp
  match p.port, p.endPort with
  | none, none => return .protocol protocol
  | none, some _ => throw "endPort requires a port"
  | some (.number n), last =>
    let first ← portNumberOfWire n
    let last ← last.mapM portNumberOfWire
    if last.any (· < first) then throw "endPort must not be less than port"
    return .number protocol first last
  | some (.name _), some _ => throw "endPort may not be used with a named port"
  | some (.name name), none => return .name protocol name

/-- The rule of a document in a namespace. -/
def ruleOfWire (ns : String) (r : WireRule) : Except String Rule := do
  let peers ← (r.peers.getD []).mapM (peerOfWire ns)
  return ⟨peers, ← (r.ports.getD []).mapM portOfWire⟩

/-- The directions that policy types name, or those that are meant when there are none. -/
def directionsOf (types : List Direction) (egress : List Rule) : Directions :=
  if types.isEmpty then ⟨true, !egress.isEmpty⟩
  else ⟨types.contains .ingress, types.contains .egress⟩

/-- The policy of a specification with a name and a namespace. -/
def ofSpec (name ns : String) (spec : WireSpec) : Except String Policy := do
  let pods ← Selector.ofWire spec.podSelector
  let ingress ← (spec.ingress.getD []).mapM (ruleOfWire ns)
  let egress ← (spec.egress.getD []).mapM (ruleOfWire ns)
  let types ← (spec.policyTypes.getD []).mapM Direction.ofPolicyType
  return ⟨name, ⟨ns, pods, directionsOf types egress⟩, ingress, egress⟩

/-- The policy of a document, or the first complaint about it. -/
def ofDocument (d : PolicyDocument) : Except Error Policy :=
  match d.metadata.name, d.metadata.ns with
  | none, _ => .error (.invalidPolicy "<unnamed>" "name must be set")
  | some name, none => .error (.invalidPolicy name "namespace must be set")
  | some name, some ns =>
    (ofSpec name ns (d.spec.getD .empty)).mapError (.invalidPolicy s!"{ns}/{name}")

/-! ## Writing a policy -/

/-- A list, or nothing if it is empty. -/
def nonempty {α : Type} (items : List α) : Option (List α) :=
  if items.isEmpty then none else some items

/-- A selector beside a namespace selector, where an empty one need not be written. -/
def optionalSelector (s : Selector) : Option WireSelector :=
  if s.isEmpty then none else some s.toWire

/-- The peer as a document in a namespace writes it. Another namespace can be picked only by the
label that carries its name. -/
def peerToWire (ns : String) : Peer → WirePeer
  | .network m =>
    ⟨some ⟨toString m.network, nonempty (m.except.map toString)⟩, none, none⟩
  | .pods (.named name) pods =>
    if name = ns then ⟨none, none, some pods.toWire⟩
    else ⟨none, some (Selector.ofLabel namespaceNameKey name).toWire, optionalSelector pods⟩
  | .pods (.selected namespaces) pods => ⟨none, some namespaces.toWire, optionalSelector pods⟩

/-- The port as a document writes it. -/
def portToWire : PortMatch → WirePort
  | .protocol p => ⟨none, none, some p.name⟩
  | .number p first last =>
    ⟨last.map fun n ↦ (n.toNat : Int), some (.number first.toNat), some p.name⟩
  | .name p name => ⟨none, some (.name name), some p.name⟩

/-- The rule as a document in a namespace writes it. -/
def ruleToWire (ns : String) (r : Rule) : WireRule :=
  ⟨nonempty (r.peers.map (peerToWire ns)), nonempty (r.ports.map portToWire)⟩

/-- The policy types of the governed directions. -/
def policyTypes (ds : Directions) : List String :=
  ([Direction.ingress, .egress].filter ds.contains).map (·.policyType)

/-- The document of a policy. -/
def toDocument (p : Policy) : PolicyDocument where
  metadata := .named p.name (some p.target.ns)
  spec := some {
    egress := nonempty (p.egress.map (ruleToWire p.target.ns))
    ingress := nonempty (p.ingress.map (ruleToWire p.target.ns))
    podSelector := p.target.pods.toWire
    policyTypes := some (policyTypes p.target.directions) }

end Policy

end Reachability
