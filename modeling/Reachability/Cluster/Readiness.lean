import Reachability.Cluster.Request
import Reachability.Duration
import Reachability.Topology

/-!
# Waiting for pods

A workload can be probed once its pod is ready and has an address. The workloads of a topology are
waited for in order; each address is recorded as soon as it is known, so a failure leaves the
addresses of the workloads before it. An answer takes time, if only a little, so no pod is ready
within no time at all; but a request that cannot be made fails at once.
-/

namespace Reachability

/-- A condition of a pod. -/
structure PodCondition where
  type : String
  status : String

/-- What a cluster reports about a pod. -/
structure PodStatus where
  address : Option String
  conditions : List PodCondition

namespace PodStatus

/-- The address of the pod, if it has one that can be read. -/
def address? (s : PodStatus) : Option Address := s.address.bind Address.parse?

/-- Whether the pod is ready and has an address. -/
def isReady (s : PodStatus) : Bool :=
  (s.conditions.any fun c ↦ c.type == "Ready" && c.status == "True") && s.address?.isSome

end PodStatus

/-- What a cluster reports about a pod while it is waited for. -/
structure PodHistory where
  /-- The status at first sight, if the request succeeds and the pod exists. -/
  first : Except Unit (Option PodStatus)
  /-- The statuses that are reported before the time is up. -/
  later : List PodStatus
  /-- The status when it is asked for in the end, if it is. -/
  final : Option PodStatus

namespace PodHistory

/-- The path of the pods of a namespace. -/
def podsPath (ns : String) : String := Request.namespacedPath Request.coreRoot ns "pods"

/-- The request that looks for the pod of a workload. -/
def listRequest (key : WorkloadKey) : Except RequestError Request :=
  Request.ofTarget "GET"
    (Request.target (podsPath key.ns) [("fieldSelector", s!"metadata.name={key.name}")]) none

/-- The request for the pod of a workload. -/
def getRequest (key : WorkloadKey) : Except RequestError Request :=
  Request.ofName "GET" (podsPath key.ns) key.name [] none

/-- Whether the pod is reported to be ready before the time is up. -/
def becomesReady (h : PodHistory) (first : Option PodStatus) : Bool :=
  first.any (·.isReady) || h.later.any (·.isReady)

/-- Waits until a pod is ready. -/
def awaitReady (h : PodHistory) (limit : Duration) (key : WorkloadKey) : Except String Unit :=
  let late := s!"timed out waiting for pod {key} to be ready"
  match listRequest key, h.first with
  | .error _, _ => .error s!"failed to watch pod {key}"
  | .ok _, first =>
    if limit.nanoseconds = 0 then .error late
    else match first with
      | .error () => .error s!"failed to watch pod {key}"
      | .ok first => if h.becomesReady first then .ok () else .error late

/-- The address of a pod that is ready. -/
def finalAddress (h : PodHistory) (key : WorkloadKey) : Except String Address :=
  match getRequest key, h.final with
  | .error _, _ | .ok _, none => .error s!"failed to get pod {key}"
  | .ok _, some status =>
    match status.address? with
    | none => .error s!"pod {key} has no IP"
    | some a => .ok a

/-- The address of a pod that becomes ready in time. -/
def readyAddress (h : PodHistory) (limit : Duration) (key : WorkloadKey) :
    Except String Address := do
  h.awaitReady limit key
  h.finalAddress key

end PodHistory

namespace Topology

/-- Waits for workloads in order and records their addresses, until one of them fails. -/
def awaitEach (limit : Duration) (history : WorkloadKey → PodHistory) (t : Topology) :
    List WorkloadKey → Topology × Except String Unit
  | [] => (t, .ok ())
  | key :: rest =>
    match (history key).readyAddress limit key with
    | .error complaint => (t, .error complaint)
    | .ok a =>
      match t.setAddress key a with
      | .error e => (t, .error e.message)
      | .ok t => awaitEach limit history t rest

/-- Waits for every workload of a topology. -/
def awaitAddresses (t : Topology) (limit : Duration) (history : WorkloadKey → PodHistory) :
    Topology × Except String Unit :=
  t.awaitEach limit history (t.workloads.map (·.key))

end Topology

end Reachability
