import Reachability.Duration
import Reachability.Matrix
import Reachability.Topology

/-!
# Probe jobs

A job is one connection to try: a source, a destination, the host to connect to, and a port. Jobs
are enumerated for every ordered pair of workloads, either for every port that the destination
declares or for one configured port. A configured port that a destination does not declare makes no
job for it; the pair is set aside as unresolved instead.

## Main definitions

* `ProbeConfig`: which ports are probed, and how destinations are addressed.
* `JobBuilder.build`: the jobs of a topology.
* `Job.target`, `Job.command`: what the source connects to, and the command that does it.
-/

namespace Reachability

/-! ## Configuration -/

/-- How a probe addresses its destination. -/
inductive ProbeMode where
  | serviceName
  | podAddress
deriving DecidableEq, Repr

/-- The mode with the given name. -/
def ProbeMode.parse (s : String) : Except Error ProbeMode :=
  if s = "service-name" then .ok .serviceName
  else if s = "pod-ip" then .ok .podAddress
  else .error (.invalidProbeConfig s!"unknown probe mode: {Text.quoted s}")

/-- The name of a mode. -/
def ProbeMode.name : ProbeMode → String
  | serviceName => "service-name"
  | podAddress => "pod-ip"

/-- Which ports are probed. -/
inductive PortSelection where
  /-- Every port that a destination declares. -/
  | all
  /-- One port of every destination. -/
  | single (port : PortRef) (protocol : Protocol)
deriving DecidableEq

/-- What to probe. -/
structure ProbeConfig where
  ports : PortSelection
  mode : ProbeMode
deriving DecidableEq

/-- The configuration with the given texts for port and protocol. Every declared port is probed
unless a port is given, and a protocol makes sense only together with a port. -/
def ProbeConfig.parse (port protocol : Option String) (mode : ProbeMode) :
    Except Error ProbeConfig := do
  let protocol ← protocol.mapM fun p ↦ (Protocol.parse p).mapError .invalidProbeConfig
  match port with
  | some text =>
    let port ← (PortRef.parse text).mapError .invalidProbeConfig
    return ⟨.single port (protocol.getD .tcp), mode⟩
  | none =>
    if protocol.isSome then throw (.invalidProbeConfig "a protocol requires a port")
    return ⟨.all, mode⟩

/-! ## Jobs -/

/-- One side of a probe. -/
structure JobEndpoint where
  key : WorkloadKey
  labels : Labels
  address : Option Address
deriving DecidableEq

/-- A workload as a side of a probe. -/
def JobEndpoint.of (w : Workload) : JobEndpoint := ⟨w.key, w.labels, w.address⟩

/-- One connection to try. -/
structure Job where
  source : JobEndpoint
  destination : JobEndpoint
  /-- The host name or address that the source connects to. -/
  host : String
  port : ServicePort
  portName : Option String
  timeout : Duration
  expected : Option Outcome
deriving DecidableEq

namespace Job

/-- The flow that the job tries. -/
def flow (j : Job) : Flow := ⟨j.source.key, j.destination.key, j.port⟩

/-- The host and port that the source connects to, with brackets around a host that itself has
colons. -/
def target (j : Job) : String :=
  let port := toString j.port.number.toNat
  if ':' ∈ j.host.toList then "[" ++ j.host ++ "]:" ++ port else j.host ++ ":" ++ port

/-- The command that the source runs. It waits for at least one second. -/
def command (j : Job) : List String :=
  ["/agnhost", "connect", j.target, s!"--timeout={max j.timeout.seconds 1}s",
    s!"--protocol={j.port.protocol.lowerName}"]

instance : ToString Job := ⟨fun j ↦ toString j.flow⟩

end Job

/-- A pair of workloads for which the configured port does not resolve. -/
structure UnresolvedJob where
  source : WorkloadKey
  destination : WorkloadKey
  port : PortRef
  protocol : Protocol
deriving DecidableEq

/-- Jobs, and the pairs set aside because of the name or the number of the configured port. -/
structure Jobs where
  valid : List Job
  unresolvedNames : List UnresolvedJob
  unresolvedNumbers : List UnresolvedJob
deriving DecidableEq

namespace Jobs

/-- The jobs of several enumerations, one after the other. -/
def concat (parts : List Jobs) : Jobs where
  valid := parts.flatMap (·.valid)
  unresolvedNames := parts.flatMap (·.unresolvedNames)
  unresolvedNumbers := parts.flatMap (·.unresolvedNumbers)

/-- Whether some pair was set aside. A matrix of the jobs then has gaps. -/
def hasUnresolved (js : Jobs) : Bool :=
  !js.unresolvedNames.isEmpty || !js.unresolvedNumbers.isEmpty

end Jobs

/-! ## Building jobs -/

/-- The name of the service that fronts a workload. -/
def serviceName (w : Workload) : String := s!"s-{w.key.ns}-{w.key.name}"

/-- What all jobs of a build share. -/
structure JobBuilder where
  timeout : Duration
  clusterDomain : String

namespace JobBuilder

/-- The host name of the service that fronts a workload. -/
def serviceHost (b : JobBuilder) (w : Workload) : String :=
  s!"{serviceName w}.{w.key.ns}.svc.{b.clusterDomain}"

/-- The host by which a mode addresses a workload. -/
def host (b : JobBuilder) (mode : ProbeMode) (w : Workload) : Except Error String :=
  match mode with
  | .serviceName => .ok (b.serviceHost w)
  | .podAddress => do return toString (← w.requireAddress)

/-- The job for one port of a destination, yet without an expected outcome. -/
def job (b : JobBuilder) (mode : ProbeMode) (source destination : Workload) (port : ServicePort)
    (portName : Option String) : Except Error Job := do
  return { source := .of source, destination := .of destination, host := ← b.host mode destination,
           port, portName, timeout := b.timeout, expected := none }

/-- The jobs for one pair of workloads. -/
def pairJobs (b : JobBuilder) (config : ProbeConfig) (source destination : Workload) :
    Except Error Jobs :=
  match config.ports with
  | .all => do
    let valid ← destination.ports.mapM fun p ↦
      b.job config.mode source destination p.servicePort p.name
    return ⟨valid, [], []⟩
  | .single (.number n) protocol =>
    match destination.resolveNumbered n protocol with
    | some p => do
      return ⟨[← b.job config.mode source destination ⟨protocol, n⟩ p.name], [], []⟩
    | none => .ok ⟨[], [], [⟨source.key, destination.key, .number n, protocol⟩]⟩
  | .single (.name name) protocol =>
    match destination.resolveNamed name protocol with
    | some n => do
      return ⟨[← b.job config.mode source destination ⟨protocol, n⟩ (some name)], [], []⟩
    | none => .ok ⟨[], [⟨source.key, destination.key, .name name, protocol⟩], []⟩

/-- The jobs for every ordered pair of workloads, in the order of sources and then of
destinations. -/
def enumerate (b : JobBuilder) (t : Topology) (config : ProbeConfig) : Except Error Jobs := do
  let pairs := t.workloads.flatMap fun source ↦ t.workloads.map (source, ·)
  return Jobs.concat (← pairs.mapM fun (source, destination) ↦
    b.pairJobs config source destination)

/-- A job with the outcome that a matrix has for it. -/
def expect (m : Matrix) (j : Job) : Except Error Job :=
  match m.get? j.flow with
  | some o => .ok { j with expected := some o }
  | none => .error (.missingExpectation j.flow)

/-- The jobs for every ordered pair of workloads. If expected outcomes are given, every job carries
its own, which must be there. -/
def build (b : JobBuilder) (t : Topology) (config : ProbeConfig) (expected : Option Matrix) :
    Except Error Jobs := do
  let jobs ← b.enumerate t config
  match expected with
  | none => return jobs
  | some m => return { jobs with valid := ← jobs.valid.mapM (expect m) }

end JobBuilder

end Reachability
