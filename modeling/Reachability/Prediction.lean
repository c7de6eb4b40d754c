import Reachability.Decision
import Reachability.Job

/-!
# Predictions

The outcomes that policies lead one to expect for a list of jobs, for each direction alone and for
the flow as a whole. Only the combined matrix says whether a connection succeeds; the other two show
which side is responsible if it does not.
-/

namespace Reachability

/-- Expected outcomes by direction and combined. -/
structure Prediction where
  ingress : Matrix
  egress : Matrix
  combined : Matrix
deriving DecidableEq

namespace Prediction

/-- The prediction for no jobs. -/
def empty : Prediction := ⟨∅, ∅, ∅⟩

/-- A prediction with one more flow explained. -/
def record (p : Prediction) (f : Flow) (e : Explanation) : Prediction where
  ingress := p.ingress.set f e.ingress.outcome
  egress := p.egress.set f e.egress.outcome
  combined := p.combined.set f e.outcome

end Prediction

/-- The decisions for a flow of a topology. -/
def PolicyIndex.explainFlow (index : PolicyIndex) (t : Topology) (f : Flow) :
    Except Error Explanation := do
  index.explain (← Traffic.of t f)

/-- Predicts every job of a list. -/
def PolicyIndex.predict (index : PolicyIndex) (t : Topology) (jobs : List Job) :
    Except Error Prediction :=
  jobs.foldlM (fun p j ↦ do return p.record j.flow (← index.explainFlow t j.flow)) .empty

end Reachability
