import Reachability.Cluster.Request
import Reachability.Job

/-!
# Probing from inside a cluster

A probe is run in the first container of the source's pod. Which container that is, is looked up
when the prober is set up, so a workload that was added later, or has no container, cannot be probed
from.
-/

namespace Reachability

/-- The containers from which workloads are probed. -/
structure ClusterProber where
  containers : SortedMap WorkloadKey String

namespace ClusterProber

/-- The prober for the workloads of a topology. -/
def build (t : Topology) : ClusterProber :=
  ⟨SortedMap.ofList (t.workloads.filterMap fun w ↦ w.containers.head?.map (w.key, ·.name))⟩

/-- The target under which a command is run in a container of a pod. -/
def target (pod : WorkloadKey) (container : String) (command : List String) : String :=
  Request.target (Request.namespacedPath Request.coreRoot pod.ns "pods" ++ s!"/{pod.name}/exec")
    ([("stderr", "true"), ("container", container)] ++ command.map ("command", ·))

/-- The request that runs the command of a job, or the complaint that there is no container for it
or no such request. -/
def request (p : ClusterProber) (j : Job) : Except String Request :=
  let source := j.source.key
  match p.containers.get? source with
  | none => .error s!"no container to probe from in {source}"
  | some container =>
    (Request.ofTarget "GET" (target source container j.command) none).mapError (·.message)

end ClusterProber

end Reachability
