import Reachability.Comparison
import Reachability.Document.Conversion
import Reachability.Prediction

/-!
# Verification

Verifying a policy means to predict the outcome of every probe under that policy, to probe, and to
compare. For every disagreement the decisions that led to the prediction are kept, so that a report
can say why another outcome was expected.
-/

namespace Reachability

/-- What a verification finds. -/
structure Report where
  policy : Policy
  jobs : Jobs
  prediction : Prediction
  observed : Matrix
  comparison : Comparison
  /-- The disagreements, with the decisions behind their predictions. -/
  disagreements : List (Disagreement × Explanation)

/-- What can stop a verification. -/
inductive VerificationError where
  | model (e : Error)
  /-- The batch of probes could not be run. -/
  | aborted
deriving DecidableEq

/-- Verifies a policy against what `observe` finds for a list of jobs. The jobs are built twice:
once to know what to predict, and again with the outcome that is expected of each. -/
def verify (observe : List Job → Option Matrix) (t : Topology) (policy : Policy)
    (config : ProbeConfig) (builder : JobBuilder) : Except VerificationError Report := do
  let index := PolicyIndex.build t [policy]
  let unlabelled ← (builder.build t config none).mapError .model
  let prediction ← (index.predict t unlabelled.valid).mapError .model
  let jobs ← (builder.build t config (some prediction.combined)).mapError .model
  match observe jobs.valid with
  | none => throw .aborted
  | some observed =>
    let comparison := prediction.combined.compare observed
    let disagreements ← comparison.disagreements.mapM fun d ↦ do
      return (d, ← (index.explainFlow t d.flow).mapError .model)
    return { policy, jobs, prediction, observed, comparison, disagreements }

namespace Report

/-- Whether no definite observation contradicts the prediction. -/
def isConsistent (r : Report) : Bool := r.disagreements.isEmpty

/-- The line that sums the report up. -/
def summary (r : Report) : String := s!"policy {r.policy.id}: {r.comparison.counts}\n"

/-- A disagreement with the reasons for its prediction. -/
def disagreementLine (d : Disagreement × Explanation) : String :=
  s!"  {d.1} (egress: {d.2.egress.reason}, ingress: {d.2.ingress.reason})\n"

/-- The policy and the disagreements. -/
def complaints (r : Report) : String :=
  s!"\n{r.policy.toDocument.toYaml}\ndisagreements:\n" ++
    String.join (r.disagreements.map disagreementLine)

/-- The matrices of the report, if they can be drawn. -/
def tables (r : Report) : Option String := do
  let parts ← [("ingress", r.prediction.ingress.table), ("egress", r.prediction.egress.table),
      ("expected", r.prediction.combined.table), ("observed", r.observed.table),
      ("comparison", r.comparison.table)].mapM fun (title, table) ↦ do
    return s!"\n{title}:\n{← table.render}\n"
  return String.join parts

/-- The text of the report, if its matrices can be drawn. They are left out if there is no
disagreement, unless `noisy` is set. -/
def render (r : Report) (noisy : Bool) : Option String := do
  let tables ← if noisy || !r.isConsistent then r.tables else some ""
  return r.summary ++ (if r.isConsistent then "" else r.complaints) ++ tables

end Report

end Reachability
