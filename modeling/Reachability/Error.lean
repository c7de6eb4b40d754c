import Reachability.Flow

/-!
# Failures

What can stop a prediction. A port that does not resolve on its destination is not among them: such
probes are set aside when the probes are enumerated.
-/

namespace Reachability

/-- A failure of building a topology, reading a policy or predicting a flow. -/
inductive Error where
  | invalidProbeConfig (reason : String)
  | invalidPolicy (policy reason : String)
  | missingAddress (workload : WorkloadKey)
  | duplicateNamespace (ns : String)
  | unknownNamespace (ns : String)
  | duplicateWorkload (workload : WorkloadKey)
  | unknownWorkload (workload : WorkloadKey)
  | missingExpectation (flow : Flow)
deriving DecidableEq

namespace Error

/-- The message that reports the failure. -/
def message : Error → String
  | invalidProbeConfig reason => s!"invalid probe configuration: {reason}"
  | invalidPolicy policy reason => s!"invalid network policy {policy}: {reason}"
  | missingAddress workload => s!"workload {workload} has no IP address"
  | duplicateNamespace ns => s!"namespace {ns} already exists"
  | unknownNamespace ns => s!"namespace {ns} does not exist"
  | duplicateWorkload workload => s!"workload {workload} already exists"
  | unknownWorkload workload => s!"workload {workload} does not exist"
  | missingExpectation flow => s!"no expected outcome for {flow}"

end Error

end Reachability
