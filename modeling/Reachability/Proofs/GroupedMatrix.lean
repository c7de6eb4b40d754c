import Mathlib.Algebra.GroupWithZero.Nat
import Reachability.Proofs.Matrix
import Reachability.Proofs.OuterJoin

/-!
# Matrices as canonical maps

A matrix does not remember how it was written. What a sequence of writes leaves is the last outcome
for every flow (`Matrix.Leaves`), and everything that can be seen of a matrix is determined by that.

Cells may as well be kept in groups, by the two ends of a flow and then by port. A group is made
when a cell is first written to it and a cell is never taken out, so no group is empty
(`GroupedMatrix.IsTidy`). This is what makes the second form canonical too: an empty group would
show in equality and in `isEmpty`, although it holds no cell.
-/

namespace Reachability

theorem SortedMap.isEmpty_iff {κ ν : Type} [Ord κ] {m : SortedMap κ ν} : m.isEmpty ↔ m = ∅ := by
  obtain ⟨entries, sorted⟩ := m
  rw [isEmpty, List.isEmpty_iff]
  refine ⟨fun h ↦ ?_, congrArg SortedMap.toList⟩
  cases h
  rfl

/-! ## What writes leave -/

namespace Matrix

/-- The last of the writes for the flow is of this outcome. -/
def Leaves (cells : List (Flow × Outcome)) (f : Flow) (o : Outcome) : Prop :=
  ∃ before after, cells = before ++ (f, o) :: after ∧ ∀ c ∈ after, c.1 ≠ f

theorem ofList_concat (cells : List (Flow × Outcome)) (c : Flow × Outcome) :
    ofList (cells ++ [c]) = (ofList cells).set c.1 c.2 :=
  congrArg Matrix.mk (SortedMap.ofList_concat cells c)

theorem foldl_set (cells : List (Flow × Outcome)) :
    cells.foldl (fun m c ↦ m.set c.1 c.2) ∅ = ofList cells := by
  induction cells using List.reverseRecOn with
  | nil => rfl
  | append_singleton cells c ih => rw [List.foldl_concat, ih, ofList_concat]

@[simp] theorem ofList_toList (m : Matrix) : ofList m.toList = m :=
  congrArg Matrix.mk (SortedMap.ofList_toList m.cells)

theorem get?_ofList_eq_some_iff {cells : List (Flow × Outcome)} {f : Flow} {o : Outcome} :
    (ofList cells).get? f = some o ↔ Leaves cells f o := by
  constructor
  · intro h
    -- the writes are looked at from the last one on
    induction cells using List.reverseRecOn with
    | nil => exact absurd h (by simp [ofList, get?, SortedMap.get?_empty])
    | append_singleton cells c ih =>
      rw [ofList_concat] at h
      by_cases hc : c.1 = f
      · rw [← hc, get?_set_self, Option.some.injEq] at h
        exact ⟨cells, [], by rw [← hc, ← h], by simp⟩
      · rw [get?_set_of_ne _ (Ne.symm hc)] at h
        obtain ⟨before, after, rfl, hlast⟩ := ih h
        refine ⟨before, after ++ [c], by simp, fun d hd ↦ ?_⟩
        rcases List.mem_append.mp hd with hd | hd
        · exact hlast d hd
        · rwa [List.mem_singleton.mp hd]
  · rintro ⟨before, after, rfl, hlast⟩
    exact SortedMap.get?_ofList_last hlast

theorem get?_ofList_eq_none_iff {cells : List (Flow × Outcome)} {f : Flow} :
    (ofList cells).get? f = none ↔ ∀ c ∈ cells, c.1 ≠ f := by
  have hsome := covers_ofList cells f
  rw [← Option.not_isSome_iff_eq_none, hsome, List.mem_map]
  exact not_exists.trans (forall_congr' fun _ ↦ not_and)

theorem isEmpty_iff {m : Matrix} : m.isEmpty ↔ m = ∅ := by
  rw [isEmpty, SortedMap.isEmpty_iff]
  exact ⟨congrArg Matrix.mk, congrArg Matrix.cells⟩

theorem size_eq_card (m : Matrix) : m.size = m.flows.card := by
  rw [flows, List.toFinset_card_of_nodup m.cells.nodup_keys, SortedMap.keys, List.length_map]
  rfl

theorem flows_ofList (cells : List (Flow × Outcome)) :
    (ofList cells).flows = (cells.map Prod.fst).toFinset := by
  ext f
  rw [mem_flows, covers_ofList cells f, List.mem_toFinset]

/-- Writes that leave the same outcomes make the same matrix. -/
theorem ofList_eq_iff {cells cells' : List (Flow × Outcome)} :
    ofList cells = ofList cells' ↔ ∀ f o, Leaves cells f o ↔ Leaves cells' f o := by
  simp only [← get?_ofList_eq_some_iff]
  exact ⟨fun h f o ↦ by rw [h], fun h ↦ ext_get? fun f ↦ Option.ext fun o ↦ h f o⟩

end Matrix

/-! ## Groups of cells -/

/-- Pairs of ends are ordered by source first. -/
instance : Ord (WorkloadKey × WorkloadKey) := ⟨compareLex (compareOn Prod.fst) (compareOn Prod.snd)⟩

instance : Std.TransOrd (WorkloadKey × WorkloadKey) :=
  inferInstanceAs (Std.TransCmp (compareLex (compareOn Prod.fst) (compareOn Prod.snd)))

instance : Std.LawfulEqOrd (WorkloadKey × WorkloadKey) :=
  lawfulEqCmp_compareLex fun _ _ ↦ Prod.ext

/-- Outcomes by the ends of a flow and then by its port. -/
structure GroupedMatrix where
  groups : SortedMap (WorkloadKey × WorkloadKey) (SortedMap ServicePort Outcome)

namespace GroupedMatrix

/-- The matrix without groups. -/
def empty : GroupedMatrix := ⟨∅⟩

/-- The group for two ends, which is new if there is none yet. -/
def group (m : GroupedMatrix) (ends : WorkloadKey × WorkloadKey) : SortedMap ServicePort Outcome :=
  (m.groups.get? ends).getD ∅

/-- Records an outcome in the group of the flow, over an earlier one for the same flow. -/
def set (m : GroupedMatrix) (f : Flow) (o : Outcome) : GroupedMatrix :=
  ⟨m.groups.insert f.ends ((m.group f.ends).insert f.port o)⟩

/-- The outcome recorded for a flow. -/
def get? (m : GroupedMatrix) (f : Flow) : Option Outcome :=
  (m.groups.get? f.ends).bind (·.get? f.port)

/-- The cells of a group. -/
def cells (g : (WorkloadKey × WorkloadKey) × SortedMap ServicePort Outcome) :
    List (Flow × Outcome) :=
  g.2.toList.map fun e ↦ (⟨g.1.1, g.1.2, e.1⟩, e.2)

/-- The recorded cells, group by group. -/
def toList (m : GroupedMatrix) : List (Flow × Outcome) := m.groups.toList.flatMap cells

/-- The number of cells, counted by groups. -/
def size (m : GroupedMatrix) : Nat := (m.groups.values.map SortedMap.size).sum

/-- Whether there is no group. -/
def isEmpty (m : GroupedMatrix) : Bool := m.groups.isEmpty

/-- The matrix of recorded outcomes, of which later ones replace earlier ones. -/
def ofList (cells : List (Flow × Outcome)) : GroupedMatrix :=
  cells.foldl (fun m c ↦ m.set c.1 c.2) empty

/-- No group is empty. -/
def IsTidy (m : GroupedMatrix) : Prop :=
  ∀ ends group, m.groups.get? ends = some group → group ≠ ∅

variable {m m' : GroupedMatrix} {f g : Flow}

theorem get?_eq_get?_group (m : GroupedMatrix) (f : Flow) :
    m.get? f = (m.group f.ends).get? f.port := by
  rw [get?, group]
  cases m.groups.get? f.ends with
  | none => rfl
  | some group => rfl

theorem group_set_self (m : GroupedMatrix) (f : Flow) (o : Outcome) :
    (m.set f o).group f.ends = (m.group f.ends).insert f.port o := by
  rw [group, set, SortedMap.get?_insert_self, Option.getD_some]

theorem group_set_of_ne (m : GroupedMatrix) {ends : WorkloadKey × WorkloadKey} (h : ends ≠ f.ends)
    (o : Outcome) : (m.set f o).group ends = m.group ends := by
  rw [group, set, SortedMap.get?_insert_of_ne _ h, ← group]

theorem get?_set_self (m : GroupedMatrix) (f : Flow) (o : Outcome) :
    (m.set f o).get? f = some o := by
  rw [get?_eq_get?_group, group_set_self, SortedMap.get?_insert_self]

theorem get?_set_of_ne (m : GroupedMatrix) (h : g ≠ f) (o : Outcome) :
    (m.set f o).get? g = m.get? g := by
  rw [get?_eq_get?_group, get?_eq_get?_group]
  by_cases hends : g.ends = f.ends
  · -- flows of one group differ in their ports
    have hport : g.port ≠ f.port := by
      rintro hport
      obtain ⟨hsource, hdestination⟩ := Prod.mk.inj hends
      cases f
      cases g
      simp_all
    rw [hends, group_set_self, SortedMap.get?_insert_of_ne _ hport]
  · rw [group_set_of_ne _ hends]

theorem isTidy_empty : empty.IsTidy := by
  intro ends group h
  rw [empty, SortedMap.get?_empty] at h
  exact absurd h (by simp)

theorem IsTidy.set (h : m.IsTidy) (f : Flow) (o : Outcome) : (m.set f o).IsTidy := by
  refine SortedMap.forall_get?_insert h fun hempty ↦ ?_
  have hsome := SortedMap.get?_insert_self (m.group f.ends) f.port o
  rw [hempty, SortedMap.get?_empty] at hsome
  exact absurd hsome (by simp)

/-- However a matrix is written, no group of it is empty. -/
theorem isTidy_ofList (cells : List (Flow × Outcome)) : (ofList cells).IsTidy := by
  rw [ofList]
  generalize hm : empty = m
  have h : m.IsTidy := hm ▸ isTidy_empty
  clear hm
  induction cells generalizing m with
  | nil => exact h
  | cons c cells ih => exact ih _ (h.set c.1 c.2)

theorem mem_toList_iff {o : Outcome} : (f, o) ∈ m.toList ↔ m.get? f = some o := by
  rw [toList, List.mem_flatMap, get?, Option.bind_eq_some_iff]
  constructor
  · rintro ⟨⟨ends, group⟩, hgroup, hcell⟩
    obtain ⟨⟨port, o⟩, hport, heq⟩ := List.mem_map.mp hcell
    cases heq
    exact ⟨group, SortedMap.mem_toList_iff.mp hgroup, SortedMap.mem_toList_iff.mp hport⟩
  · rintro ⟨group, hgroup, hport⟩
    exact ⟨(f.ends, group), SortedMap.mem_toList_iff.mpr hgroup,
      List.mem_map.mpr ⟨(f.port, o), SortedMap.mem_toList_iff.mpr hport, rfl⟩⟩

theorem compare_ends_eq_lt_iff {e e' : WorkloadKey × WorkloadKey} :
    compare e e' = .lt ↔ compare e.1 e'.1 = .lt ∨ e.1 = e'.1 ∧ compare e.2 e'.2 = .lt := by
  have hcompare : compare e e' = (compare e.1 e'.1).then (compare e.2 e'.2) := rfl
  rw [hcompare, Ordering.then_eq_lt, Std.LawfulEqCmp.compare_eq_iff_eq]

/-- Groups are in the order of ends, and the cells of a group in the order of ports. -/
theorem sorted_toList (m : GroupedMatrix) : SortedEntries m.toList := by
  rw [SortedEntries, toList, List.pairwise_flatMap]
  constructor
  · rintro ⟨ends, group⟩ -
    rw [cells, List.pairwise_map]
    refine List.Pairwise.imp (fun {e e'} hport ↦ ?_) group.sorted
    exact Flow.compare_eq_lt_iff.mpr (Or.inr ⟨rfl, Or.inr ⟨rfl, hport⟩⟩)
  · refine m.groups.sorted.imp fun {g g'} hends c hc c' hc' ↦ ?_
    obtain ⟨e, -, rfl⟩ := List.mem_map.mp hc
    obtain ⟨e', -, rfl⟩ := List.mem_map.mp hc'
    rw [Flow.compare_eq_lt_iff]
    exact (compare_ends_eq_lt_iff.mp hends).imp_right fun h ↦ ⟨h.1, Or.inl h.2⟩

/-- The matrix with the groups put one after the other. -/
def flatten (m : GroupedMatrix) : Matrix := ⟨⟨m.toList, m.sorted_toList⟩⟩

theorem get?_flatten (m : GroupedMatrix) (f : Flow) : m.flatten.get? f = m.get? f := by
  refine Option.ext fun o ↦ ?_
  rw [← mem_toList_iff]
  exact SortedMap.mem_toList_iff.symm

theorem flatten_set (m : GroupedMatrix) (f : Flow) (o : Outcome) :
    (m.set f o).flatten = m.flatten.set f o := by
  refine Matrix.ext_get? fun g ↦ ?_
  by_cases hg : g = f
  · rw [hg, get?_flatten, get?_set_self, Matrix.get?_set_self]
  · rw [get?_flatten, get?_set_of_ne m hg, Matrix.get?_set_of_ne _ hg, get?_flatten]

theorem flatten_ofList (cells : List (Flow × Outcome)) :
    (ofList cells).flatten = Matrix.ofList cells := by
  induction cells using List.reverseRecOn with
  | nil => rfl
  | append_singleton cells c ih =>
    have hconcat : ofList (cells ++ [c]) = (ofList cells).set c.1 c.2 := by
      rw [ofList, List.foldl_concat, ← ofList]
    rw [hconcat, flatten_set, ih, Matrix.ofList_concat]

theorem toList_ofList (cells : List (Flow × Outcome)) :
    (ofList cells).toList = (Matrix.ofList cells).toList := by
  rw [← flatten_ofList]
  rfl

theorem size_flatten (m : GroupedMatrix) : m.flatten.size = m.size := by
  have hlength : m.flatten.size = (m.groups.toList.flatMap cells).length := rfl
  rw [hlength, List.length_flatMap, size, SortedMap.values, List.map_map]
  refine congrArg List.sum (List.map_congr_left fun g _ ↦ ?_)
  rw [cells, List.length_map]
  rfl

/-- There is a group wherever there are cells to put in it, and nowhere else. -/
theorem IsTidy.get?_groups (h : m.IsTidy) (ends : WorkloadKey × WorkloadKey) :
    m.groups.get? ends = if m.group ends = ∅ then none else some (m.group ends) := by
  rw [group]
  cases hgroup : m.groups.get? ends with
  | none => rfl
  | some group => rw [Option.getD_some, if_neg (h ends group hgroup)]

theorem IsTidy.eq_of_flatten_eq (h : m.IsTidy) (h' : m'.IsTidy) (heq : m.flatten = m'.flatten) :
    m = m' := by
  have hgroup : ∀ ends, m.group ends = m'.group ends := by
    intro ends
    refine SortedMap.ext_get? fun port ↦ ?_
    have hcell : m.get? ⟨ends.1, ends.2, port⟩ = m'.get? ⟨ends.1, ends.2, port⟩ := by
      rw [← get?_flatten, heq, get?_flatten]
    rwa [get?_eq_get?_group, get?_eq_get?_group] at hcell
  have hgroups : m.groups = m'.groups :=
    SortedMap.ext_get? fun ends ↦ by rw [h.get?_groups, h'.get?_groups, hgroup]
  cases m
  cases m'
  exact congrArg GroupedMatrix.mk hgroups

theorem isEmpty_iff {m : GroupedMatrix} : m.isEmpty ↔ m = empty := by
  rw [isEmpty, SortedMap.isEmpty_iff]
  exact ⟨congrArg GroupedMatrix.mk, congrArg GroupedMatrix.groups⟩

theorem IsTidy.isEmpty_flatten (h : m.IsTidy) : m.flatten.isEmpty = m.isEmpty := by
  rw [Bool.eq_iff_iff, isEmpty_iff, Matrix.isEmpty_iff]
  exact ⟨h.eq_of_flatten_eq isTidy_empty, fun hm ↦ by rw [hm]; rfl⟩

end GroupedMatrix

/-! ## The canonical map -/

/-- What is seen of a matrix is what a sequence of writes leaves: `lookup`, `size`, `isEmpty` and
`cells` are its four views. -/
structure Matrix.Records (writes : List (Flow × Outcome)) (lookup : Flow → Option Outcome)
    (size : Nat) (isEmpty : Bool) (cells : List (Flow × Outcome)) : Prop where
  lookup_eq_some_iff (f : Flow) (o : Outcome) : lookup f = some o ↔ Leaves writes f o
  lookup_eq_none_iff (f : Flow) : lookup f = none ↔ ∀ c ∈ writes, c.1 ≠ f
  size_eq : size = (writes.map Prod.fst).toFinset.card
  isEmpty_iff : isEmpty ↔ size = 0
  mem_cells_iff (f : Flow) (o : Outcome) : (f, o) ∈ cells ↔ lookup f = some o
  sorted : (cells.map Prod.fst).Pairwise Flow.Precedes

theorem Matrix.records_ofList (writes : List (Flow × Outcome)) :
    Records writes (ofList writes).get? (ofList writes).size (ofList writes).isEmpty
      (ofList writes).toList where
  lookup_eq_some_iff _ _ := get?_ofList_eq_some_iff
  lookup_eq_none_iff _ := get?_ofList_eq_none_iff
  size_eq := by rw [size_eq_card, flows_ofList]
  isEmpty_iff := by
    rw [isEmpty, SortedMap.isEmpty, List.isEmpty_iff, size, SortedMap.size, List.length_eq_zero_iff]
  mem_cells_iff _ _ := SortedMap.mem_toList_iff
  sorted := (ofList writes).cells.sorted_keys.imp Flow.compare_eq_lt_iff.mp

/-- The groups show the same as the matrix that they make up. -/
theorem GroupedMatrix.records_ofList (writes : List (Flow × Outcome)) :
    Matrix.Records writes (ofList writes).get? (ofList writes).size (ofList writes).isEmpty
      (ofList writes).toList := by
  have hrecords := Matrix.records_ofList writes
  have hlookup : (ofList writes).get? = (Matrix.ofList writes).get? :=
    funext fun f ↦ by rw [← get?_flatten, flatten_ofList]
  rwa [hlookup, toList_ofList, ← size_flatten, ← (isTidy_ofList writes).isEmpty_flatten,
    flatten_ofList]

theorem GroupedMatrix.ofList_eq_iff {writes writes' : List (Flow × Outcome)} :
    ofList writes = ofList writes' ↔ Matrix.ofList writes = Matrix.ofList writes' := by
  rw [← flatten_ofList, ← flatten_ofList]
  exact ⟨congrArg flatten, (isTidy_ofList writes).eq_of_flatten_eq (isTidy_ofList writes')⟩

/-- Ports are ordered by protocol, and by number within a protocol. -/
def ServicePort.Precedes (p q : ServicePort) : Prop :=
  p.protocol.rank < q.protocol.rank ∨ p.protocol = q.protocol ∧ p.number < q.number

theorem ServicePort.compare_eq_lt_iff {p q : ServicePort} : compare p q = .lt ↔ p.Precedes q := by
  have hcompare : compare p q = (compare p.protocol q.protocol).then (compare p.number q.number) :=
    rfl
  have hprotocol : compare p.protocol q.protocol = compare p.protocol.rank q.protocol.rank := rfl
  rw [hcompare, Ordering.then_eq_lt, Std.LawfulEqCmp.compare_eq_iff_eq, hprotocol,
    Std.compare_eq_lt, Std.compare_eq_lt, Precedes]

/-- **A matrix is a canonical map.** After any writes it shows the last outcome for each flow that
was written, each flow once and in order, and nothing else; matrices are equal exactly if the writes
leave the same outcomes, and writing the cells of a matrix gives that matrix back. All of this holds
as well if the cells are kept in groups, because no group is ever empty, and the groups hold the
same cells in the same order. -/
theorem writes_canonical :
    (∀ writes : List (Flow × Outcome),
      writes.foldl (fun m c ↦ m.set c.1 c.2) ∅ = Matrix.ofList writes ∧
      Matrix.Records writes (Matrix.ofList writes).get? (Matrix.ofList writes).size
        (Matrix.ofList writes).isEmpty (Matrix.ofList writes).toList ∧
      Matrix.ofList (Matrix.ofList writes).toList = Matrix.ofList writes) ∧
    (∀ writes writes' : List (Flow × Outcome), Matrix.ofList writes = Matrix.ofList writes' ↔
      ∀ f o, Matrix.Leaves writes f o ↔ Matrix.Leaves writes' f o) ∧
    (∀ writes : List (Flow × Outcome), (GroupedMatrix.ofList writes).IsTidy ∧
      Matrix.Records writes (GroupedMatrix.ofList writes).get? (GroupedMatrix.ofList writes).size
        (GroupedMatrix.ofList writes).isEmpty (GroupedMatrix.ofList writes).toList ∧
      (GroupedMatrix.ofList writes).toList = (Matrix.ofList writes).toList ∧
      GroupedMatrix.ofList (GroupedMatrix.ofList writes).toList = GroupedMatrix.ofList writes) ∧
    (∀ writes writes' : List (Flow × Outcome),
      GroupedMatrix.ofList writes = GroupedMatrix.ofList writes' ↔
        ∀ f o, Matrix.Leaves writes f o ↔ Matrix.Leaves writes' f o) ∧
    ∀ p q : ServicePort, compare p q = .lt ↔ p.Precedes q := by
  refine ⟨fun writes ↦ ⟨?_, Matrix.records_ofList writes, Matrix.ofList_toList _⟩,
    fun _ _ ↦ Matrix.ofList_eq_iff, fun writes ↦ ⟨GroupedMatrix.isTidy_ofList writes,
      GroupedMatrix.records_ofList writes, GroupedMatrix.toList_ofList writes, ?_⟩,
    fun _ _ ↦ GroupedMatrix.ofList_eq_iff.trans Matrix.ofList_eq_iff,
    fun _ _ ↦ ServicePort.compare_eq_lt_iff⟩
  · exact Matrix.foldl_set writes
  · rw [GroupedMatrix.ofList_eq_iff, GroupedMatrix.toList_ofList, Matrix.ofList_toList]

end Reachability
