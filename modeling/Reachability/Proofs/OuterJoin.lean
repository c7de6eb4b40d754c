import Mathlib.Data.Finset.Card
import Mathlib.Data.Finset.Lattice.Basic
import Reachability.Proofs.Comparison

/-!
# Comparing as joining

The comparison of two matrices is their outer join. A flow is compared if either matrix has a cell
for it, and the side without a cell counts as unknown. Everything else that a comparison offers is
read off its list of cells: the size, the counts and the disagreements are counted on one list, so
they agree with each other, and a change of sides changes the cells of that list and nothing else
(`Matrix.compare_comm`).
-/

namespace Reachability

/-! ## The order of flows -/

/-- The order in which flows are listed: by source, then by destination, then by port. -/
def Flow.Precedes (f g : Flow) : Prop :=
  compare f.source g.source = .lt ∨ f.source = g.source ∧
    (compare f.destination g.destination = .lt ∨ f.destination = g.destination ∧
      compare f.port g.port = .lt)

theorem Flow.compare_eq_lt_iff {f g : Flow} : compare f g = .lt ↔ f.Precedes g := by
  have hcompare : compare f g = ((compare f.source g.source).then
      (compare f.destination g.destination)).then (compare f.port g.port) := rfl
  rw [hcompare, Ordering.then_eq_lt, Ordering.then_eq_lt, Ordering.then_eq_eq,
    Std.LawfulEqCmp.compare_eq_iff_eq, Std.LawfulEqCmp.compare_eq_iff_eq, or_assoc, and_assoc,
    ← and_or_left, Precedes]

/-! ## Cells -/

/-- The flows that a matrix has a cell for. -/
def Matrix.flows (m : Matrix) : Finset Flow := m.cells.keys.toFinset

theorem Matrix.mem_flows {m : Matrix} {f : Flow} : f ∈ m.flows ↔ (m.get? f).isSome := by
  rw [flows, List.mem_toFinset, SortedMap.mem_keys_iff, Matrix.get?]

theorem Comparison.size_eq_card (c : Comparison) : c.size = c.cells.keys.toFinset.card := by
  rw [List.toFinset_card_of_nodup c.cells.nodup_keys, SortedMap.keys, List.length_map]
  rfl

theorem Comparison.sorted_toList (c : Comparison) :
    (c.toList.map Prod.fst).Pairwise Flow.Precedes :=
  c.cells.sorted_keys.imp Flow.compare_eq_lt_iff.mp

/-- A flow is compared if either matrix has a cell for it. -/
theorem Matrix.keys_compare (expected observed : Matrix) :
    (expected.compare observed).cells.keys.toFinset = expected.flows ∪ observed.flows := by
  ext f
  rw [List.mem_toFinset, SortedMap.mem_keys_iff, Finset.mem_union, mem_flows, mem_flows]
  exact isSome_get?_compare

/-! ## Counting -/

theorem Verdict.count_add_count_add_count (l : List Verdict) :
    l.count .agree + l.count .disagree + l.count .noValue = l.length := by
  induction l with
  | nil => rfl
  | cons v l ih => cases v <;> simp <;> omega

theorem Comparison.total_counts (c : Comparison) : c.counts.total = c.size := by
  rw [VerdictCounts.total, counts, Verdict.count_add_count_add_count, verdicts, SortedMap.values,
    List.length_map, List.length_map]
  rfl

theorem Comparison.length_disagreements (c : Comparison) :
    c.disagreements.length = c.counts.disagree := by
  have hcount : c.counts.disagree = c.verdicts.count .disagree := rfl
  rw [hcount, disagreements, List.length_map, ← List.countP_eq_length_filter, verdicts,
    SortedMap.values, List.count, List.countP_map, List.countP_map]
  rfl

/-! ## Changing sides -/

/-- The cell with its sides changed. -/
def ComparedCell.swap (c : ComparedCell) : ComparedCell := ⟨c.observed, c.expected⟩

theorem ComparedCell.verdict_swap (c : ComparedCell) : c.swap.verdict = c.verdict := by
  obtain ⟨e, o⟩ := c
  cases e <;> cases o <;> rfl

/-- The comparison with the sides of every cell changed. -/
def Comparison.swap (c : Comparison) : Comparison := ⟨c.cells.mapValues ComparedCell.swap⟩

theorem Comparison.counts_swap (c : Comparison) : c.swap.counts = c.counts := by
  have hverdicts : c.swap.verdicts = c.verdicts := by
    simp only [verdicts, swap, SortedMap.values, SortedMap.mapValues, List.map_map]
    exact List.map_congr_left fun e _ ↦ e.2.verdict_swap
  rw [counts, counts, hverdicts]

theorem Matrix.compare_comm (expected observed : Matrix) :
    observed.compare expected = (expected.compare observed).swap := by
  refine congrArg Comparison.mk (SortedMap.ext_get? fun f ↦ ?_)
  rw [SortedMap.get?_mapValues]
  refine (get?_compare observed expected f).trans ?_
  rw [show (expected.compare observed).cells.get? f = _ from get?_compare expected observed f]
  cases expected.get? f <;> cases observed.get? f <;> rfl

/-! ## The outer join -/

/-- A matrix agrees with itself, unless it does not know. -/
theorem Matrix.disagreements_compare_self (m : Matrix) : (m.compare m).disagreements = [] := by
  rw [Comparison.disagreements_eq_nil_iff]
  intro f cell hcell hverdict
  obtain ⟨he, ho⟩ := (get?_compare_eq_some_iff Iff.rfl).mp hcell
  have hsame : cell.expected = cell.observed := Option.some.inj (he.symm.trans ho)
  exact (ComparedCell.verdict_eq_disagree_iff.mp hverdict).2.2 hsame

/-- The comparison has one cell for each flow that either matrix has a cell for, in the order of
flows, with unknown for a side without a cell. -/
structure Comparison.IsOuterJoin (c : Comparison) (expected observed : Matrix) : Prop where
  get?_eq_some_iff (f : Flow) (cell : ComparedCell) : c.get? f = some cell ↔
    ((expected.get? f).isSome ∨ (observed.get? f).isSome) ∧
      cell.expected = (expected.get? f).getD .unknown ∧
      cell.observed = (observed.get? f).getD .unknown
  mem_toList_iff (f : Flow) (cell : ComparedCell) : (f, cell) ∈ c.toList ↔ c.get? f = some cell
  sorted : (c.toList.map Prod.fst).Pairwise Flow.Precedes
  size_eq : c.size = (expected.flows ∪ observed.flows).card

theorem Matrix.isOuterJoin_compare (expected observed : Matrix) :
    (expected.compare observed).IsOuterJoin expected observed where
  get?_eq_some_iff := by
    rintro f ⟨e, o⟩
    rw [get?_compare]
    cases expected.get? f <;> cases observed.get? f <;> simp [joinCells, eq_comm]
  mem_toList_iff _ _ := SortedMap.mem_toList_iff
  sorted := (expected.compare observed).sorted_toList
  size_eq := by rw [Comparison.size_eq_card, keys_compare]

/-- **A comparison is the outer join of two matrices.** Its counts add up to its size. Its
disagreements are listed in the order of flows, they are the cells whose sides are definite and
differ, and there are as many as are counted. A change of sides changes the sides of each cell and
no count, and no matrix disagrees with itself. -/
theorem Matrix.compare_outerJoin (expected observed : Matrix) :
    (expected.compare observed).IsOuterJoin expected observed ∧
      (expected.compare observed).counts.total = (expected.compare observed).size ∧
      (∀ d : Disagreement, d ∈ (expected.compare observed).disagreements ↔
        (expected.compare observed).get? d.flow = some ⟨d.expected, d.observed⟩ ∧
          d.expected ≠ .unknown ∧ d.observed ≠ .unknown ∧ d.expected ≠ d.observed) ∧
      ((expected.compare observed).disagreements.map (·.flow)).Pairwise Flow.Precedes ∧
      (expected.compare observed).disagreements.length =
        (expected.compare observed).counts.disagree ∧
      (observed.compare expected).toList =
        (expected.compare observed).toList.map (fun e ↦ (e.1, ⟨e.2.observed, e.2.expected⟩)) ∧
      (observed.compare expected).counts = (expected.compare observed).counts ∧
      (expected.compare expected).disagreements = [] := by
  have hcomm := compare_comm expected observed
  refine ⟨isOuterJoin_compare expected observed, Comparison.total_counts _,
    fun d ↦ Comparison.mem_disagreements_iff _, ?_, Comparison.length_disagreements _, ?_, ?_,
    disagreements_compare_self expected⟩
  · rw [List.pairwise_map]
    exact (expected.compare observed).sorted_disagreements.imp Flow.compare_eq_lt_iff.mp
  · rw [hcomm]
    rfl
  · rw [hcomm, Comparison.counts_swap]

end Reachability
