import Reachability.Matrix
import Reachability.Proofs.SortedMap

/-!
# Cells of matrices

Matrices are maps by flow, and what matters of a matrix beside its outcomes is which flows it has
cells for (`Matrix.Covers`). Where the outcome goes with the flow (`Matrix.Holds`), matrices are
compared by their flows alone: if these are joined or narrowed down, so are the matrices.
-/

namespace Reachability

namespace Matrix

theorem get?_set_self (m : Matrix) (f : Flow) (o : Outcome) : (m.set f o).get? f = some o :=
  SortedMap.get?_insert_self m.cells f o

theorem get?_set_of_ne (m : Matrix) {f g : Flow} (h : g ≠ f) (o : Outcome) :
    (m.set f o).get? g = m.get? g := SortedMap.get?_insert_of_ne m.cells h o

/-- Matrices with the same cells are equal. -/
theorem ext_get? {m m' : Matrix} (h : ∀ f, m.get? f = m'.get? f) : m = m' := by
  have hcells : m.cells = m'.cells := SortedMap.ext_get? h
  cases m
  cases m'
  rw [Matrix.mk.injEq]
  exact hcells

/-- The matrix has a cell for each of these flows and for no other. -/
def Covers (m : Matrix) (flows : List Flow) : Prop := ∀ f, (m.get? f).isSome ↔ f ∈ flows

theorem covers_ofList (cells : List (Flow × Outcome)) :
    (ofList cells).Covers (cells.map Prod.fst) := fun _ ↦ SortedMap.isSome_get?_ofList

/-- The matrix has a cell for each of these flows that has an outcome, and no other cell. -/
def Holds (m : Matrix) (flows : List Flow) (R : Flow → Outcome → Prop) : Prop :=
  ∀ f o, m.get? f = some o ↔ f ∈ flows ∧ R f o

/-- The matrix has the cells of both others, and no other cell. -/
def IsUnion (m left right : Matrix) : Prop :=
  ∀ f o, m.get? f = some o ↔ left.get? f = some o ∨ right.get? f = some o

/-- The matrix has the cells of another one for the flows with a property, and no other cell. -/
def IsRestriction (m whole : Matrix) (P : Flow → Prop) : Prop :=
  ∀ f o, m.get? f = some o ↔ whole.get? f = some o ∧ P f

section Holds

variable {m m' q : Matrix} {flows flows' : List Flow} {R : Flow → Outcome → Prop}

theorem IsUnion.eq (h : q.IsUnion m m') {q' : Matrix} (h' : q'.IsUnion m m') : q = q' :=
  ext_get? fun f ↦ Option.ext fun o ↦ (h f o).trans (h' f o).symm

theorem Holds.isUnion (hq : q.Holds (flows ++ flows') R) (h : m.Holds flows R)
    (h' : m'.Holds flows' R) : q.IsUnion m m' := by
  intro f o
  rw [hq f o, h f o, h' f o, List.mem_append, or_and_right]

theorem Holds.isRestriction (h : m.Holds flows R) (h' : m'.Holds flows' R) {P : Flow → Prop}
    (hflows : ∀ f, f ∈ flows ↔ f ∈ flows' ∧ P f) : m.IsRestriction m' P := by
  intro f o
  rw [h f o, h' f o, hflows f, and_right_comm]

end Holds

end Matrix

end Reachability
