import Reachability.Document.Decoding
import Reachability.Json.Reader
import Reachability.Json.Writer
import Reachability.Yaml.Reader
import Reachability.Yaml.Writer

/-!
# Documents as trees and as texts

The tree of a document names its kind first, then its metadata and its specification; inside these,
fields are in alphabetical order. Absent fields are left out, while empty lists, maps and selectors
are written.
-/

namespace Reachability

namespace Encode

/-- A list of texts. -/
def texts (items : List String) : Tree := .list (items.map .text)

/-- A map of texts. -/
def labels (m : SortedMap String String) : Tree := .record (m.toList.map fun e ↦ (e.1, .text e.2))

/-- A timestamp. -/
def timestamp (t : Timestamp) : Tree := .text (toString t)

/-- A requirement. -/
def requirement (r : WireRequirement) : Tree :=
  .recordOf [("key", some (.text r.key)), ("operator", some (.text r.operator)),
    ("values", r.values.map texts)]

/-- A selector. -/
def selector (s : WireSelector) : Tree :=
  .recordOf [("matchExpressions", s.matchExpressions.map fun rs ↦ .list (rs.map requirement)),
    ("matchLabels", s.matchLabels.map labels)]

/-- A network. -/
def network (n : WireNetwork) : Tree :=
  .recordOf [("cidr", some (.text n.cidr)), ("except", n.except.map texts)]

/-- A peer. -/
def peer (p : WirePeer) : Tree :=
  .recordOf [("ipBlock", p.network.map network),
    ("namespaceSelector", p.namespaceSelector.map selector),
    ("podSelector", p.podSelector.map selector)]

/-- A reference to a port. -/
def portRef : WirePortRef → Tree
  | .number n => .int n
  | .name s => .text s

/-- A port. -/
def port (p : WirePort) : Tree :=
  .recordOf [("endPort", p.endPort.map .int), ("port", p.port.map portRef),
    ("protocol", p.protocol.map .text)]

/-- A rule for ingress. -/
def ingressRule (r : WireRule) : Tree :=
  .recordOf [("from", r.peers.map fun ps ↦ .list (ps.map peer)),
    ("ports", r.ports.map fun ps ↦ .list (ps.map port))]

/-- A rule for egress. -/
def egressRule (r : WireRule) : Tree :=
  .recordOf [("ports", r.ports.map fun ps ↦ .list (ps.map port)),
    ("to", r.peers.map fun ps ↦ .list (ps.map peer))]

/-- A specification. -/
def spec (s : WireSpec) : Tree :=
  .recordOf [("egress", s.egress.map fun rs ↦ .list (rs.map egressRule)),
    ("ingress", s.ingress.map fun rs ↦ .list (rs.map ingressRule)),
    ("podSelector", some (selector s.podSelector)),
    ("policyTypes", s.policyTypes.map texts)]

/-- A reference to an owner. -/
def ownerReference (r : OwnerReference) : Tree :=
  .recordOf [("apiVersion", some (.text r.apiVersion)),
    ("blockOwnerDeletion", r.blockOwnerDeletion.map .bool), ("controller", r.controller.map .bool),
    ("kind", some (.text r.kind)), ("name", some (.text r.name)), ("uid", some (.text r.uid))]

/-- A record of managed fields. -/
def managedFields (m : ManagedFields) : Tree :=
  .recordOf [("apiVersion", m.apiVersion.map .text), ("fieldsType", m.fieldsType.map .text),
    ("fieldsV1", m.fields), ("manager", m.manager.map .text), ("operation", m.operation.map .text),
    ("subresource", m.subresource.map .text), ("time", m.time.map timestamp)]

/-- The metadata of an object. -/
def metadata (m : Metadata) : Tree :=
  .recordOf [("annotations", m.annotations.map labels),
    ("creationTimestamp", m.creationTimestamp.map timestamp),
    ("deletionGracePeriodSeconds", m.deletionGracePeriodSeconds.map .int),
    ("deletionTimestamp", m.deletionTimestamp.map timestamp),
    ("finalizers", m.finalizers.map texts), ("generateName", m.generateName.map .text),
    ("generation", m.generation.map .int), ("labels", m.labels.map labels),
    ("managedFields", m.managedFields.map fun ms ↦ .list (ms.map managedFields)),
    ("name", m.name.map .text), ("namespace", m.ns.map .text),
    ("ownerReferences", m.ownerReferences.map fun rs ↦ .list (rs.map ownerReference)),
    ("resourceVersion", m.resourceVersion.map .text), ("selfLink", m.selfLink.map .text),
    ("uid", m.uid.map .text)]

/-- The fields of an object of some kind. -/
def object (apiVersion kind : String) (m : Metadata) (spec : Option Tree) :
    List (String × Tree) :=
  [("apiVersion", .text apiVersion), ("kind", .text kind), ("metadata", metadata m)] ++
    (spec.map fun s ↦ ("spec", s)).toList

end Encode

namespace PolicyDocument

/-- The fields of a policy document. -/
def toFields (d : PolicyDocument) : List (String × Tree) :=
  Encode.object Decoder.policyApiVersion Decoder.policyKind d.metadata (d.spec.map Encode.spec)

/-- The compact JSON text of a document. -/
def toJson (d : PolicyDocument) : String := Json.render (.record d.toFields)

/-- The YAML text of a document. -/
def toYaml (d : PolicyDocument) : String := Yaml.render d.toFields

/-- Reads a document from a JSON text. -/
def ofJson (s : String) : Option PolicyDocument := do Decoder.policyDocument (← Json.read s)

/-- Reads the documents of a YAML stream. -/
def ofYaml (s : String) : Option (List PolicyDocument) := do
  (← Yaml.read s).mapM Decoder.policyDocument

end PolicyDocument

end Reachability
