import Reachability.Matrix

/-!
# Comparisons

Two matrices are compared cell by cell. A cell that only one of them has counts as unknown on the
other side. Only two definite outcomes can agree or disagree.
-/

namespace Reachability

/-- What a comparison says about a cell. -/
inductive Verdict where
  | agree
  | disagree
  /-- At least one side is unknown. -/
  | noValue
deriving DecidableEq, Repr

/-- The character that stands for the verdict in a table. -/
def Verdict.mark : Verdict → Char
  | agree => '.'
  | disagree => 'X'
  | noValue => '?'

/-- The two outcomes for a flow. -/
structure ComparedCell where
  expected : Outcome
  observed : Outcome
deriving DecidableEq

/-- Whether the two outcomes agree. -/
def ComparedCell.verdict (c : ComparedCell) : Verdict :=
  match c.expected, c.observed with
  | .unknown, _ | _, .unknown => .noValue
  | e, o => if e = o then .agree else .disagree

/-- The numbers of verdicts of each kind. -/
structure VerdictCounts where
  agree : Nat
  disagree : Nat
  noValue : Nat
deriving DecidableEq

namespace VerdictCounts

/-- The number of all verdicts. -/
def total (c : VerdictCounts) : Nat := c.agree + c.disagree + c.noValue

instance : ToString VerdictCounts where
  toString c := s!"true: {c.agree}, false: {c.disagree}, no value: {c.noValue}"

end VerdictCounts

/-- A flow whose two outcomes disagree. -/
structure Disagreement where
  flow : Flow
  expected : Outcome
  observed : Outcome
deriving DecidableEq

instance : ToString Disagreement where
  toString d := s!"{d.flow}: expected {d.expected}, observed {d.observed}"

/-- The cells of two matrices side by side. -/
structure Comparison where
  cells : SortedMap Flow ComparedCell
deriving DecidableEq

/-- Compares expected outcomes with observed ones. -/
def Matrix.compare (expected observed : Matrix) : Comparison :=
  let both : SortedMap Flow ComparedCell := SortedMap.ofList (expected.toList.map fun (f, e) ↦
    (f, ⟨e, (observed.get? f).getD .unknown⟩))
  ⟨observed.toList.foldl (fun cells (f, o) ↦ cells.insertNew f ⟨.unknown, o⟩) both⟩

namespace Comparison

/-- The outcomes for a flow. -/
def get? (c : Comparison) (f : Flow) : Option ComparedCell := c.cells.get? f

/-- The compared cells, in the order of flows. -/
def toList (c : Comparison) : List (Flow × ComparedCell) := c.cells.toList

/-- The number of cells. -/
def size (c : Comparison) : Nat := c.cells.size

/-- Whether there is no cell. -/
def isEmpty (c : Comparison) : Bool := c.cells.isEmpty

/-- The verdicts, in the order of flows. -/
def verdicts (c : Comparison) : List Verdict := c.cells.values.map (·.verdict)

/-- The numbers of verdicts of each kind. -/
def counts (c : Comparison) : VerdictCounts :=
  ⟨c.verdicts.count .agree, c.verdicts.count .disagree, c.verdicts.count .noValue⟩

/-- The flows whose outcomes disagree, in the order of flows. -/
def disagreements (c : Comparison) : List Disagreement :=
  (c.toList.filter (·.2.verdict == .disagree)).map fun (f, cell) ↦ ⟨f, cell.expected, cell.observed⟩

/-- The grid of the marks of the verdicts. -/
def table (c : Comparison) : Table := Table.grid (c.toList.map fun e ↦ (e.1, e.2.verdict.mark))

end Comparison

end Reachability
