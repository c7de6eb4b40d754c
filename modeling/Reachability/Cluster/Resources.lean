import Reachability.Cluster.Request
import Reachability.Document.Encoding
import Reachability.Job

/-!
# The resources of a topology

A topology is brought to life by an object for each namespace, and a pod and a service for each
workload. The pod runs a server for each declared port; the service lets the ports be reached by the
name of the workload. Objects are applied in an order in which each finds what it needs: all
namespaces first, and the pod of a workload before its service.
-/

namespace Reachability

namespace Manifest

/-- The image that serves and probes ports. -/
def serverImage : String := "registry.k8s.io/e2e-test-images/agnhost:2.43"

/-- The command that serves the declared ports of a container. -/
def serverCommand (c : Container) : List String :=
  "/agnhost" :: c.ports.flatMap fun p ↦ match p.protocol with
    | .sctp => ["porter"]
    | protocol => ["serve-hostname", "--http=false", s!"--{protocol.lowerName}",
        s!"--port={p.number.toNat}"]

/-- The environment by which SCTP ports are served. -/
def serverEnvironment (c : Container) : List Tree :=
  (c.ports.filter (·.protocol == .sctp)).map fun p ↦
    .record [("name", .text s!"SERVE_SCTP_PORT_{p.number.toNat}"), ("value", .text "foo")]

/-- A declared port of a container. -/
def containerPort (p : ContainerPort) : Tree :=
  .recordOf [("containerPort", some (.int p.number.toNat)), ("name", p.name.map .text),
    ("protocol", some (.text p.protocol.name))]

/-- A container. -/
def container (c : Container) : Tree :=
  let env := serverEnvironment c
  .recordOf [("command", some (Encode.texts (serverCommand c))),
    ("env", if env.isEmpty then none else some (.list env)), ("image", some (.text serverImage)),
    ("imagePullPolicy", some (.text "IfNotPresent")), ("name", some (.text c.name)),
    ("ports", some (.list (c.ports.map containerPort)))]

/-- The object of a namespace. -/
def ofNamespace (ns : Namespace) : Tree :=
  .record (Encode.object "v1" "Namespace"
    { Metadata.named ns.name none with labels := some ns.labels } none)

/-- The pod of a workload. -/
def pod (w : Workload) : Tree :=
  .record (Encode.object "v1" "Pod"
    { Metadata.named w.key.name (some w.key.ns) with labels := some w.labels }
    (some (.record [("containers", .list (w.containers.map container)),
      ("terminationGracePeriodSeconds", .int 0)])))

/-- A port of a service, which leads to the port of the same number. -/
def servicePort (p : ContainerPort) : Tree :=
  .recordOf [("name", p.name.map .text), ("port", some (.int p.number.toNat)),
    ("protocol", some (.text p.protocol.name)), ("targetPort", some (.int p.number.toNat))]

/-- The service of a workload. -/
def service (w : Workload) : Tree :=
  .record (Encode.object "v1" "Service" (.named (serviceName w) (some w.key.ns))
    (some (.record [("ports", .list (w.ports.map servicePort)),
      ("selector", Encode.labels w.labels)])))

end Manifest

namespace Cluster

/-- The name under which fields are managed. -/
def fieldManager : String := "netpol-verifier"

/-- The step that applies an object with a name to a collection. -/
def applyStep (collection name : String) (object : Tree) (complaint : String) : RequestStep where
  request := Request.ofName "PATCH" collection name
    [("force", "true"), ("fieldManager", fieldManager)] (some object)
  complaint := complaint

/-- The step for a namespace. -/
def namespaceStep (ns : Namespace) : RequestStep :=
  applyStep s!"{Request.coreRoot}/namespaces" ns.name (Manifest.ofNamespace ns)
    s!"failed to apply namespace {ns.name}"

/-- The step for the pod of a workload. -/
def podStep (w : Workload) : RequestStep :=
  applyStep (Request.namespacedPath Request.coreRoot w.key.ns "pods") w.key.name (Manifest.pod w)
    s!"failed to apply pod {w.key}"

/-- The step for the service of a workload. -/
def serviceStep (w : Workload) : RequestStep :=
  applyStep (Request.namespacedPath Request.coreRoot w.key.ns "services") (serviceName w)
    (Manifest.service w) s!"failed to apply service for {w.key}"

/-- The steps that bring a topology to life. -/
def applySteps (t : Topology) : List RequestStep :=
  t.namespaces.values.map namespaceStep ++
    t.workloads.flatMap fun w ↦ [podStep w, serviceStep w]

end Cluster

end Reachability
