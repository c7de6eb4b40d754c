import Reachability.Policy

/-!
# Decisions

Policies are indexed by the workloads of a topology: for each workload and direction, the policies
that govern it, in the order in which they were given. A direction that no policy governs lets all
traffic pass. Otherwise the rules of the governing policies are tried in order, and the first that
allows the traffic decides; if there is none, the traffic is denied, unless some rule could not be
decided for want of a declared port.

A flow passes if its source may send it and its destination may receive it.

## Main definitions

* `PolicyIndex.build`: the index of policies over a topology.
* `PolicyIndex.decide`: the decision for one direction of a flow.
* `Explanation.outcome`: the outcome of the flow as a whole.
-/

namespace Reachability

/-! ## Indexing -/

/-- The policies that govern each direction of a workload's traffic. -/
structure Governing where
  ingress : List Policy
  egress : List Policy

/-- The policies that govern a direction. -/
def Governing.of (g : Governing) : Direction → List Policy
  | .ingress => g.ingress
  | .egress => g.egress

/-- Policies, and which of them govern which workload of a topology. -/
structure PolicyIndex where
  policies : List Policy
  governing : SortedMap WorkloadKey Governing

namespace PolicyIndex

/-- Indexes policies over the workloads of a topology. -/
def build (t : Topology) (policies : List Policy) : PolicyIndex where
  policies := policies
  governing := SortedMap.ofList (t.workloads.map fun w ↦
    (w.key, { ingress := policies.filter (·.governs w .ingress)
              egress := policies.filter (·.governs w .egress) }))

/-- The policies that govern a direction of the traffic of a workload that was indexed. -/
def targeting (index : PolicyIndex) (key : WorkloadKey) (d : Direction) :
    Except Error (List Policy) :=
  match index.governing.get? key with
  | some g => .ok (g.of d)
  | none => .error (.unknownWorkload key)

end PolicyIndex

/-! ## Traffic -/

/-- A flow with what a topology says about its two ends. -/
structure Traffic where
  source : Endpoint
  destination : Endpoint
  port : ServicePort

namespace Traffic

/-- The traffic of a flow, both ends of which must exist. -/
def of (t : Topology) (f : Flow) : Except Error Traffic := do
  return ⟨← t.endpoint f.source, ← t.endpoint f.destination, f.port⟩

/-- The end whose policies govern a direction. -/
def localEnd (traffic : Traffic) : Direction → Endpoint
  | .ingress => traffic.destination
  | .egress => traffic.source

/-- The other end. -/
def peerEnd (traffic : Traffic) : Direction → Endpoint
  | .ingress => traffic.source
  | .egress => traffic.destination

end Traffic

/-! ## Deciding -/

/-- Why traffic passes or does not. -/
inductive Reason where
  /-- No policy governs the workload in this direction. -/
  | untargeted
  /-- A rule of the policy allows the traffic. -/
  | allowedBy (policy : String)
  /-- The governing policies have no rules. -/
  | noRules
  /-- No rule of the governing policies allows the traffic. -/
  | noMatchingRule
  /-- No rule allows the traffic, and some rule names a port that the destination does not
  declare. -/
  | unresolvedPort
deriving DecidableEq

instance : ToString Reason where
  toString
    | .untargeted => "no policy applies"
    | .allowedBy policy => s!"allowed by {policy}"
    | .noRules => "no rules"
    | .noMatchingRule => "no rule matches"
    | .unresolvedPort => "named port not declared"

/-- An outcome for one direction of a flow. -/
structure Decision where
  outcome : Outcome
  reason : Reason
deriving DecidableEq

/-- The decisions for both directions of a flow. -/
structure Explanation where
  egress : Decision
  ingress : Decision
deriving DecidableEq

/-- The flow passes if both directions do. -/
def Explanation.outcome (e : Explanation) : Outcome := e.egress.outcome.and e.ingress.outcome

namespace PolicyIndex

/-- Tries rules in order, each with the identifier of its policy. The flag tells whether an earlier
rule could not be decided. -/
def tryRules (peer : Endpoint) (port : ServicePort) (destination : Workload) :
    List (String × Rule) → Bool → Except Error Decision
  | [], false => .ok ⟨.denied, .noMatchingRule⟩
  | [], true => .ok ⟨.unknown, .unresolvedPort⟩
  | (policy, rule) :: rest, unresolved => do
    match ← rule.allows peer port destination with
    | .allowed => return ⟨.allowed, .allowedBy policy⟩
    | .unknown => tryRules peer port destination rest true
    | .denied => tryRules peer port destination rest unresolved

/-- The decision that the policies governing a direction make together. -/
def decideBy (policies : List Policy) (d : Direction) (traffic : Traffic) :
    Except Error Decision :=
  if policies.isEmpty then .ok ⟨.allowed, .untargeted⟩
  else
    match policies.flatMap fun p ↦ (p.rules d).map (p.id, ·) with
    | [] => .ok ⟨.denied, .noRules⟩
    | rules => tryRules (traffic.peerEnd d) traffic.port traffic.destination.workload rules false

/-- The decision for one direction. The policies are those of the end that the direction governs;
the port is always the destination's. -/
def decide (index : PolicyIndex) (d : Direction) (traffic : Traffic) : Except Error Decision := do
  decideBy (← index.targeting (traffic.localEnd d).workload.key d) d traffic

/-- The decisions for both directions, the sender's first. -/
def explain (index : PolicyIndex) (traffic : Traffic) : Except Error Explanation := do
  return ⟨← index.decide .egress traffic, ← index.decide .ingress traffic⟩

/-- The outcome of the flow as a whole. -/
def evaluate (index : PolicyIndex) (traffic : Traffic) : Except Error Outcome := do
  return (← index.explain traffic).outcome

end PolicyIndex

end Reachability
