import Reachability.Comparison
import Reachability.Proofs.SortedMap

/-!
# What a comparison says

Two matrices are joined at the flows that either has (`Matrix.get?_compare`), and the disagreements
are the flows at which both outcomes are definite and differ (`Comparison.mem_disagreements_iff`).
-/

namespace Reachability

/-! ## Joining -/

/-- The cell for a flow with these outcomes, if there is one at all. -/
def joinCells : Option Outcome → Option Outcome → Option ComparedCell
  | none, none => none
  | e, o => some ⟨e.getD .unknown, o.getD .unknown⟩

theorem Matrix.get?_compare (expected observed : Matrix) (f : Flow) :
    (expected.compare observed).get? f = joinCells (expected.get? f) (observed.get? f) := by
  have hboth := SortedMap.get?_ofList_map expected.cells
    (fun f e ↦ (⟨e, (observed.get? f).getD .unknown⟩ : ComparedCell)) f
  have hfold := SortedMap.get?_foldl_insertNew (fun o ↦ (⟨.unknown, o⟩ : ComparedCell))
    observed.cells.toList (SortedMap.ofList (expected.cells.toList.map fun e ↦
      (e.1, (⟨e.2, (observed.get? e.1).getD .unknown⟩ : ComparedCell)))) f
  rw [hboth] at hfold
  refine hfold.trans ?_
  simp only [Matrix.get?, SortedMap.get?]
  cases lookupEntry f expected.cells.toList <;> cases lookupEntry f observed.cells.toList <;> rfl

theorem Matrix.isSome_get?_compare {expected observed : Matrix} {f : Flow} :
    ((expected.compare observed).get? f).isSome ↔
      (expected.get? f).isSome ∨ (observed.get? f).isSome := by
  rw [get?_compare]
  cases expected.get? f <;> cases observed.get? f <;> simp [joinCells]

/-- Where the matrices have the same cells, so has the comparison. -/
theorem Matrix.get?_compare_eq_some_iff {expected observed : Matrix} {f : Flow}
    (h : (expected.get? f).isSome ↔ (observed.get? f).isSome) {c : ComparedCell} :
    (expected.compare observed).get? f = some c ↔
      expected.get? f = some c.expected ∧ observed.get? f = some c.observed := by
  rw [get?_compare]
  obtain ⟨e, o⟩ := c
  cases he : expected.get? f with
  | none =>
    have ho : observed.get? f = none := by simpa [he] using h
    simp [ho, joinCells]
  | some e' =>
    obtain ⟨o', ho⟩ := Option.isSome_iff_exists.mp (h.mp (by simp [he]))
    simp [ho, joinCells]

/-! ## Verdicts -/

namespace ComparedCell

theorem verdict_eq_noValue_iff {c : ComparedCell} :
    c.verdict = .noValue ↔ c.expected = .unknown ∨ c.observed = .unknown := by
  obtain ⟨e, o⟩ := c
  cases e <;> cases o <;> simp [verdict]

theorem verdict_eq_disagree_iff {c : ComparedCell} :
    c.verdict = .disagree ↔
      c.expected ≠ .unknown ∧ c.observed ≠ .unknown ∧ c.expected ≠ c.observed := by
  obtain ⟨e, o⟩ := c
  cases e <;> cases o <;> simp [verdict]

end ComparedCell

/-! ## Disagreements -/

namespace Comparison

variable (c : Comparison)

theorem mem_disagreements_iff {d : Disagreement} :
    d ∈ c.disagreements ↔ c.get? d.flow = some ⟨d.expected, d.observed⟩ ∧
      d.expected ≠ .unknown ∧ d.observed ≠ .unknown ∧ d.expected ≠ d.observed := by
  rw [← (ComparedCell.verdict_eq_disagree_iff (c := ⟨d.expected, d.observed⟩)), get?,
    ← SortedMap.mem_toList_iff, disagreements, List.mem_map]
  constructor
  · rintro ⟨⟨f, cell⟩, hmem, rfl⟩
    obtain ⟨hcell, hverdict⟩ := List.mem_filter.mp hmem
    exact ⟨hcell, beq_iff_eq.mp hverdict⟩
  · rintro ⟨hcell, hverdict⟩
    exact ⟨(d.flow, ⟨d.expected, d.observed⟩),
      List.mem_filter.mpr ⟨hcell, beq_iff_eq.mpr hverdict⟩, rfl⟩

theorem disagreements_eq_nil_iff :
    c.disagreements = [] ↔ ∀ f cell, c.get? f = some cell → cell.verdict ≠ .disagree := by
  rw [List.eq_nil_iff_forall_not_mem]
  constructor
  · intro h f cell hcell hverdict
    exact h ⟨f, cell.expected, cell.observed⟩ ((c.mem_disagreements_iff).mpr
      ⟨hcell, ComparedCell.verdict_eq_disagree_iff.mp hverdict⟩)
  · intro h d hd
    obtain ⟨hcell, hverdict⟩ := c.mem_disagreements_iff.mp hd
    exact h d.flow _ hcell (ComparedCell.verdict_eq_disagree_iff.mpr hverdict)

/-- Disagreements are listed in the order of flows, and none is listed twice. -/
theorem sorted_disagreements :
    c.disagreements.Pairwise fun d d' ↦ compare d.flow d'.flow = .lt := by
  rw [disagreements, List.pairwise_map]
  exact c.cells.sorted.filter _

end Comparison

end Reachability
