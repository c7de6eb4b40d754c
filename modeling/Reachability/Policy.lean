import Reachability.Outcome
import Reachability.Topology

/-!
# Network policies

A policy picks workloads of its namespace and governs one or both directions of their traffic. For
each direction it lists rules; traffic that some rule allows may pass. A direction that is governed
without any rule denies all traffic, which is not the same as a direction that is not governed.

## Main definitions

* `Peer.admits`, `PortMatch.allows`, `Rule.allows`: what the parts of a rule say about a flow.
* `Policy`: a target and the rules for each direction.
-/

namespace Reachability

/-! ## Directions -/

/-- Traffic as its destination receives it or as its source sends it. -/
inductive Direction where
  | ingress
  | egress
deriving DecidableEq, Repr

/-- The name of a direction. -/
def Direction.name : Direction → String
  | ingress => "ingress"
  | egress => "egress"

instance : ToString Direction := ⟨Direction.name⟩

/-- The directions that a policy governs. -/
structure Directions where
  ingress : Bool
  egress : Bool
deriving DecidableEq, Repr

namespace Directions

/-- One direction only. -/
def only : Direction → Directions
  | .ingress => ⟨true, false⟩
  | .egress => ⟨false, true⟩

/-- Whether a direction is governed. -/
def contains (ds : Directions) : Direction → Bool
  | .ingress => ds.ingress
  | .egress => ds.egress

end Directions

/-! ## Peers -/

/-- Picks namespaces, by name or by label. -/
inductive NamespaceMatch where
  | named (name : String)
  | selected (selector : Selector)
deriving DecidableEq

/-- Whether the namespace of an endpoint is picked. -/
def NamespaceMatch.admits (m : NamespaceMatch) (e : Endpoint) : Bool :=
  match m with
  | named name => name == e.workload.key.ns
  | selected selector => selector.selects e.namespaceLabels

/-- Picks the counterparts of traffic, by their labels or by their address. -/
inductive Peer where
  | pods (namespaces : NamespaceMatch) (pods : Selector)
  | network (net : NetworkMatch)
deriving DecidableEq

/-- Whether an endpoint is picked. A network can only be decided for an endpoint with an address. -/
def Peer.admits (p : Peer) (e : Endpoint) : Except Error Bool :=
  match p with
  | .pods namespaces selector =>
    .ok (namespaces.admits e && selector.selects e.workload.labels)
  | .network net => do return net.contains (← e.workload.requireAddress)

/-! ## Ports -/

/-- Picks ports of the destination. -/
inductive PortMatch where
  /-- Every port of a protocol. -/
  | protocol (protocol : Protocol)
  /-- One number, or the numbers from `first` up to and including `last`. -/
  | number (protocol : Protocol) (first : UInt16) (last : Option UInt16)
  /-- The port that the destination declares under a name. -/
  | name (protocol : Protocol) (name : String)
deriving DecidableEq

namespace PortMatch

/-- Whether the port is picked. It is unknown when the destination declares no port of that name. -/
def allows (m : PortMatch) (port : ServicePort) (destination : Workload) : Outcome :=
  match m with
  | protocol p => .ofBool (p == port.protocol)
  | number p first last =>
    .ofBool (p == port.protocol && first ≤ port.number && port.number ≤ last.getD first)
  | name p n =>
    if p == port.protocol then
      match destination.resolveNamed n p with
      | some resolved => .ofBool (resolved == port.number)
      | none => .unknown
    else .denied

instance : ToString PortMatch where
  toString
    | protocol p => s!"{p}/*"
    | number p first none => s!"{p}/{first.toNat}"
    | number p first (some last) => s!"{p}/{first.toNat}-{last.toNat}"
    | name p n => s!"{p}/{n}"

end PortMatch

/-! ## Rules -/

/-- Allows traffic with any of the peers on any of the ports. An empty list of either stands for
all. -/
structure Rule where
  peers : List Peer
  ports : List PortMatch
deriving DecidableEq

namespace Rule

/-- The rule that allows all traffic. -/
def allowAll : Rule := ⟨[], []⟩

/-- Whether the rule allows all traffic by stating nothing. -/
def isAllowAll (r : Rule) : Bool := r.peers.isEmpty && r.ports.isEmpty

/-- Whether some peer of the list picks the endpoint. The peers after the first that does are not
looked at, so they cannot fail. -/
def anyAdmits (e : Endpoint) : List Peer → Except Error Bool
  | [] => .ok false
  | p :: rest => do if ← p.admits e then return true else anyAdmits e rest

/-- What the rule's peers say about the counterpart of the traffic. -/
def admitsPeer (r : Rule) (peer : Endpoint) : Except Error Bool :=
  if r.peers.isEmpty then .ok true else anyAdmits peer r.peers

/-- What the rule's ports say about a port of the destination. -/
def allowsPort (r : Rule) (port : ServicePort) (destination : Workload) : Outcome :=
  if r.ports.isEmpty then .allowed
  else r.ports.foldl (fun o m ↦ o.or (m.allows port destination)) .denied

/-- Whether the rule allows traffic with a peer on a port of the destination. -/
def allows (r : Rule) (peer : Endpoint) (port : ServicePort) (destination : Workload) :
    Except Error Outcome := do
  return if ← r.admitsPeer peer then r.allowsPort port destination else .denied

end Rule

/-! ## Policies -/

/-- Picks the workloads and the directions of their traffic that a policy governs. -/
structure Target where
  ns : String
  pods : Selector
  directions : Directions
deriving DecidableEq

/-- Whether a workload is picked. -/
def Target.admits (t : Target) (w : Workload) : Bool :=
  w.key.ns == t.ns && t.pods.selects w.labels

/-- A policy, with its rules for each direction. -/
structure Policy where
  name : String
  target : Target
  ingress : List Rule
  egress : List Rule
deriving DecidableEq

namespace Policy

/-- The rules for a direction. -/
def rules (p : Policy) : Direction → List Rule
  | .ingress => p.ingress
  | .egress => p.egress

/-- Whether the policy governs a direction without any rule. -/
def deniesAll (p : Policy) (d : Direction) : Bool :=
  p.target.directions.contains d && (p.rules d).isEmpty

/-- Whether the policy governs a direction with a rule that allows all traffic. -/
def allowsAll (p : Policy) (d : Direction) : Bool :=
  p.target.directions.contains d && (p.rules d).any (·.isAllowAll)

/-- The namespace and the name of the policy. -/
def id (p : Policy) : String := s!"{p.target.ns}/{p.name}"

/-- Whether the policy governs a direction of the traffic of a workload. -/
def governs (p : Policy) (w : Workload) (d : Direction) : Bool :=
  p.target.admits w && p.target.directions.contains d

end Policy

end Reachability
