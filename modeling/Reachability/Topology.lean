import Reachability.Error
import Reachability.Network
import Reachability.Selector

/-!
# Topologies

The model of a cluster: namespaces, each with labels and workloads, each of those with labels, an
address once it runs, and containers that declare ports. A topology is changed only by adding a
namespace, adding a workload to a namespace, and assigning an address, so that every namespace and
every workload is stored under the name that it carries.

## Main definitions

* `Workload`, `Namespace`, `Topology`.
* `Topology.conventional`: the model in which every pod of a list runs in every namespace of a list.
* `Topology.endpoint`: a workload with the labels of its namespace, as policies see it.
-/

namespace Reachability

/-! ## Workloads -/

/-- A port that a container declares. -/
structure ContainerPort where
  name : Option String
  number : UInt16
  protocol : Protocol
deriving DecidableEq

/-- The port that a declaration is for. -/
def ContainerPort.servicePort (p : ContainerPort) : ServicePort := ⟨p.protocol, p.number⟩

/-- A container of a workload. -/
structure Container where
  name : String
  ports : List ContainerPort
deriving DecidableEq

/-- A container that declares one port and is named after it. -/
def Container.serving (port : ServicePort) : Container :=
  let suffix := s!"{port.number.toNat}-{port.protocol.lowerName}"
  { name := s!"cont-{suffix}"
    ports := [⟨some s!"serve-{suffix}", port.number, port.protocol⟩] }

/-- A workload of a cluster. -/
structure Workload where
  key : WorkloadKey
  labels : Labels
  /-- The address, once the workload runs. -/
  address : Option Address
  containers : List Container
deriving DecidableEq

namespace Workload

/-- The address, which must be known. -/
def requireAddress (w : Workload) : Except Error Address :=
  match w.address with
  | some a => .ok a
  | none => .error (.missingAddress w.key)

/-- Every declared port with the container that declares it. -/
def declarations (w : Workload) : List (Container × ContainerPort) :=
  w.containers.flatMap fun c ↦ c.ports.map (c, ·)

/-- Every declared port, in the order of containers. -/
def ports (w : Workload) : List ContainerPort := w.containers.flatMap (·.ports)

/-- The number of the first port declared with this name and protocol. -/
def resolveNamed (w : Workload) (name : String) (protocol : Protocol) : Option UInt16 :=
  (w.ports.find? fun p ↦ p.protocol == protocol && p.name == some name).map (·.number)

/-- The first port declared with this number and protocol. -/
def resolveNumbered (w : Workload) (number : UInt16) (protocol : Protocol) :
    Option ContainerPort :=
  w.ports.find? fun p ↦ p.protocol == protocol && p.number == number

end Workload

/-! ## Namespaces -/

/-- A namespace and the workloads in it. -/
structure Namespace where
  name : String
  labels : Labels
  workloads : SortedMap String Workload
deriving DecidableEq

/-- A namespace without workloads. It carries its name among its labels, whatever labels are given.
-/
def Namespace.new (name : String) (labels : Labels) : Namespace :=
  ⟨name, labels.insert namespaceNameKey name, ∅⟩

/-! ## Topologies -/

/-- The namespaces of a cluster by name. -/
structure Topology where
  namespaces : SortedMap String Namespace
deriving DecidableEq

/-- A workload with the labels of its namespace. -/
structure Endpoint where
  workload : Workload
  namespaceLabels : Labels
deriving DecidableEq

namespace Topology

/-- The topology without namespaces. -/
def empty : Topology := ⟨∅⟩

instance : EmptyCollection Topology := ⟨empty⟩

instance : Inhabited Topology := ⟨empty⟩

/-- A namespace in which every pod of the list serves every port of the list. -/
def populate (ns : Namespace) (pods : List String) (ports : List ServicePort) : Namespace :=
  { ns with
    workloads := pods.foldl (fun ws pod ↦ ws.insert pod
      { key := ⟨ns.name, pod⟩
        labels := SortedMap.ofList [("pod", pod)]
        address := none
        containers := ports.map Container.serving }) ns.workloads }

/-- The conventional model: every pod in every namespace, each labelled with its own name, with one
container for each port. -/
def conventional (namespaces pods : List String) (ports : List ServicePort) : Topology :=
  namespaces.foldl (fun t name ↦
    let ns := (t.namespaces.get? name).getD (Namespace.new name (SortedMap.ofList [("ns", name)]))
    ⟨t.namespaces.insert name (populate ns pods ports)⟩) empty

/-- Adds a namespace, whose name must be new. -/
def addNamespace (t : Topology) (name : String) (labels : Labels) : Except Error Topology :=
  if t.namespaces.contains name then .error (.duplicateNamespace name)
  else .ok ⟨t.namespaces.insert name (Namespace.new name labels)⟩

/-- Adds a workload to its namespace, which must exist and have no workload of that name. -/
def addWorkload (t : Topology) (w : Workload) : Except Error Topology :=
  match t.namespaces.get? w.key.ns with
  | none => .error (.unknownNamespace w.key.ns)
  | some ns =>
    if ns.workloads.contains w.key.name then .error (.duplicateWorkload w.key)
    else .ok ⟨t.namespaces.insert w.key.ns
      { ns with workloads := ns.workloads.insert w.key.name w }⟩

/-- Assigns the address of a workload, over an earlier one. -/
def setAddress (t : Topology) (key : WorkloadKey) (a : Address) : Except Error Topology :=
  match t.namespaces.get? key.ns with
  | none => .error (.unknownWorkload key)
  | some ns =>
    match ns.workloads.get? key.name with
    | none => .error (.unknownWorkload key)
    | some w => .ok ⟨t.namespaces.insert key.ns
        { ns with workloads := ns.workloads.insert key.name { w with address := some a } }⟩

/-- The workload with a key. -/
def workload? (t : Topology) (key : WorkloadKey) : Option Workload := do
  (← t.namespaces.get? key.ns).workloads.get? key.name

/-- All workloads, by namespace and then by name. -/
def workloads (t : Topology) : List Workload :=
  t.namespaces.values.flatMap (·.workloads.values)

/-- The endpoint with a key. -/
def endpoint (t : Topology) (key : WorkloadKey) : Except Error Endpoint :=
  match t.namespaces.get? key.ns with
  | none => .error (.unknownNamespace key.ns)
  | some ns =>
    match ns.workloads.get? key.name with
    | none => .error (.unknownWorkload key)
    | some w => .ok ⟨w, ns.labels⟩

/-- Checks that every workload has an address, and names the first that has none. -/
def requireAddresses (t : Topology) : Except Error Unit :=
  match t.workloads.find? (·.address.isNone) with
  | some w => .error (.missingAddress w.key)
  | none => .ok ()

end Topology

end Reachability
