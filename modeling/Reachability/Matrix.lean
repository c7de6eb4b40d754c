import Reachability.Outcome
import Reachability.Table

/-!
# Matrices

Outcomes by flow. Cells are kept in the order of flows, so that listing and rendering a matrix does
not depend on how it was filled.
-/

namespace Reachability

/-- Outcomes by flow. -/
structure Matrix where
  cells : SortedMap Flow Outcome
deriving DecidableEq

namespace Matrix

/-- The matrix without cells. -/
def empty : Matrix := ⟨∅⟩

instance : EmptyCollection Matrix := ⟨empty⟩

instance : Inhabited Matrix := ⟨empty⟩

/-- Records an outcome, over an earlier one for the same flow. -/
def set (m : Matrix) (f : Flow) (o : Outcome) : Matrix := ⟨m.cells.insert f o⟩

/-- The outcome recorded for a flow. -/
def get? (m : Matrix) (f : Flow) : Option Outcome := m.cells.get? f

/-- The recorded cells, in the order of flows. -/
def toList (m : Matrix) : List (Flow × Outcome) := m.cells.toList

/-- The number of cells. -/
def size (m : Matrix) : Nat := m.cells.size

/-- Whether there is no cell. -/
def isEmpty (m : Matrix) : Bool := m.cells.isEmpty

/-- The matrix of recorded outcomes, of which later ones replace earlier ones. -/
def ofList (cells : List (Flow × Outcome)) : Matrix := ⟨SortedMap.ofList cells⟩

/-- The grid of the marks of the outcomes. -/
def table (m : Matrix) : Table := Table.grid (m.toList.map fun c ↦ (c.1, c.2.mark))

end Matrix

end Reachability
