import Reachability.Cluster.Request
import Reachability.Document.Encoding

/-!
# Policies in a cluster

Before a policy is verified, the policies of all namespaces concerned are deleted and the policy is
created.
-/

namespace Reachability.Cluster

/-- The path of the policies of a namespace. -/
def policiesPath (ns : String) : String :=
  Request.namespacedPath Request.networkingRoot ns "networkpolicies"

/-- The steps that delete the policies of namespaces. -/
def deleteSteps (namespaces : List String) : List RequestStep :=
  namespaces.map fun ns ↦
    ⟨Request.ofTarget "DELETE" (Request.target (policiesPath ns) []) none,
      s!"failed to delete network policies in {ns}"⟩

/-- The name of a document, or the stem from which the cluster makes one. -/
def displayName (d : PolicyDocument) : String :=
  (d.metadata.name.or d.metadata.generateName).getD ""

/-- The step that creates a policy, whose document must name its namespace. -/
def createStep (d : PolicyDocument) : Except String RequestStep :=
  match d.metadata.ns with
  | none => .error s!"network policy {displayName d} has no namespace"
  | some ns => .ok
      ⟨Request.ofTarget "POST" (Request.target (policiesPath ns) []) (some (.record d.toFields)),
        s!"failed to create network policy {ns}/{displayName d}"⟩

end Reachability.Cluster
