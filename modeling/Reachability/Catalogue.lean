import Reachability.Policy

/-!
# The catalogue of typical policies

Four families of policies that together exercise what policies can say. Two of them vary the rule of
a policy on a typical target, one for each direction; the other two apply a typical rule to several
targets in several namespaces.

On request, policies for egress also allow DNS look-ups, without which a workload cannot find the
services that it is allowed to reach.
-/

namespace Reachability

/-- The families of policies. -/
inductive CatalogueMode where
  /-- The peers and ports of a rule vary. -/
  | rules (direction : Direction)
  /-- The namespace and the target of a policy vary. -/
  | targets (direction : Direction)
deriving DecidableEq, Repr

namespace CatalogueMode

/-- The name of a family. -/
def name : CatalogueMode → String
  | rules d => d.name
  | targets d => "vary-" ++ d.name

/-- The family with exactly the given name. -/
def parse? (s : String) : Option CatalogueMode :=
  [rules .ingress, rules .egress, targets .ingress, targets .egress].find? (·.name == s)

end CatalogueMode

/-- What the policies of the catalogue are about. -/
structure Catalogue where
  /-- The namespaces of targets, of which the first is the typical one. -/
  namespaces : List String
  /-- The address of a workload, for rules about networks. -/
  peer : Address
  /-- The port that the typical rule allows. -/
  port : ServicePort
  /-- Whether policies for egress allow DNS. -/
  allowDns : Bool

namespace Catalogue

/-! ## Parts of policies -/

/-- The typical target: the pods labelled `a`. -/
def typicalTarget : Selector := .ofLabel "pod" "a"

/-- Allows DNS look-ups with any peer. -/
def dnsRule : Rule := ⟨[], [.number .udp 53 none, .number .tcp 53 none]⟩

/-- The namespace of typical targets. -/
def typicalNamespace (c : Catalogue) : String := c.namespaces.head?.getD "default"

/-- The typical peer: the pods labelled `b` in any namespace. -/
def typicalPeer : Peer := .pods (.selected .everything) (.ofLabel "pod" "b")

/-- The typical port. -/
def typicalPort (c : Catalogue) : PortMatch := .number c.port.protocol c.port.number none

/-- A policy for one direction. -/
def policy (c : Catalogue) (name ns : String) (pods : Selector) (d : Direction)
    (rules : List Rule) : Policy :=
  let name := s!"{d}-{name}"
  let target : Target := ⟨ns, pods, .only d⟩
  match d with
  | .ingress => ⟨name, target, rules, []⟩
  | .egress => ⟨name, target, [], if c.allowDns then rules ++ [dnsRule] else rules⟩

/-- The network around the peer: its address less the last eight bits. -/
def surroundings (a : Address) : Network :=
  Network.canonical ⟨a, a.width - 8, Nat.sub_le _ _⟩

/-- The variants of peers. -/
def peers (c : Catalogue) : List (String × Peer) :=
  let ns := c.typicalNamespace
  [("same-namespace-pod-b", .pods (.named ns) (.ofLabel "pod" "b")),
    ("same-namespace-all", .pods (.named ns) .everything),
    ("all-namespaces-pod-b", typicalPeer)] ++
  (match c.namespaces with
    | _ :: other :: _ =>
      let namespaces := NamespaceMatch.selected (.ofLabel "ns" other)
      [("other-namespace", .pods namespaces .everything),
        ("other-namespace-pod-c", .pods namespaces (.ofLabel "pod" "c"))]
    | _ => []) ++
  [("ip", .network ⟨.host c.peer, []⟩),
    ("ip-except", .network ⟨surroundings c.peer, [.host c.peer]⟩)]

/-- The variants of ports. Numbers beside the typical one stay in the range of ports. -/
def ports (c : Catalogue) : List (String × PortMatch) :=
  let p := c.port.protocol
  let n := c.port.number
  let before := if n ≤ 1 then 1 else n - 1
  let after := if n = 65535 then 65535 else n + 1
  let other := if n = 65535 then 1 else n + 1
  [("numbered", .number p n none),
    ("named", .name p s!"serve-{n.toNat}-{p.lowerName}"),
    ("other-number", .number p other none),
    ("protocol-only", .protocol p),
    ("undeclared-name", .name p "serve-missing"),
    ("range", .number p before (some after))]

/-- The variants of targets. -/
def targets : List (String × Selector) :=
  let pod (op : Operator) (values : List String) :=
    Selector.ofRequirements [⟨"pod", op, SortedSet.ofList values⟩]
  [("all", .everything), ("pod-a", typicalTarget), ("pod-a-or-b", pod .anyOf ["a", "b"]),
    ("not-pod-a", pod .noneOf ["a"])]

/-! ## Families -/

/-- The policies on the typical target, one for each variant of the rule. -/
def ruleVariants (c : Catalogue) (d : Direction) : List Policy :=
  let on (name : String) (rules : List Rule) : Policy :=
    c.policy name c.typicalNamespace typicalTarget d rules
  [on "deny-all" [], on "allow-all" [.allowAll]] ++
    c.peers.map (fun (name, peer) ↦ on s!"peer-{name}" [⟨[peer], []⟩]) ++
    c.ports.map (fun (name, port) ↦ on s!"port-{name}" [⟨[], [port]⟩])

/-- The typical rule on every target in every namespace. -/
def targetVariants (c : Catalogue) (d : Direction) : List Policy :=
  c.namespaces.flatMap fun ns ↦ targets.map fun (name, pods) ↦
    c.policy s!"{ns}-{name}" ns pods d [⟨[typicalPeer], [c.typicalPort]⟩]

/-- The policies of a family. -/
def policies (c : Catalogue) : CatalogueMode → List Policy
  | .rules d => c.ruleVariants d
  | .targets d => c.targetVariants d

end Catalogue

end Reachability
