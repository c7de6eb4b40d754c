import Mathlib.Algebra.BigOperators.Group.Finset.Basic
import Mathlib.Algebra.GroupWithZero.Nat
import Reachability.Proofs.Numeral
import Reachability.Proofs.OuterJoin

/-!
# Grids of cells

A grid shows the cells of a map by flow, with a row for each source and a column for each
destination. The reader of a grid has the header and the rows; what is said here is how the map can
be told from them (`Table.Shows`): where the entry of two workloads is, and what it shows of the
ports between them.

Every cell has its mark in one entry. The cells are divided into rows by their sources and a row
into entries by destinations, and dividing by keys that are all listed, and listed once, loses and
repeats nothing (`sum_length_filter`). An entry has as many marks as cells because nothing else that
it shows is a mark.
-/

namespace Reachability

/-! ## Dividing a list by keys -/

/-- A list is divided by a list of distinct keys that has the key of every element. -/
theorem sum_length_filter {α κ : Type} [DecidableEq κ] {keys : List κ} (hnodup : keys.Nodup)
    {l : List α} (key : α → κ) (hkeys : ∀ a ∈ l, key a ∈ keys) :
    (keys.map fun k ↦ (l.filter (key · == k)).length).sum = l.length := by
  have hcount : ∀ k,
      (l.filter (key · == k)).length = Multiset.count k (l.map key : Multiset κ) := by
    intro k
    rw [Multiset.coe_count, List.count, List.countP_map, List.countP_eq_length_filter]
    rfl
  have hmem : ∀ k ∈ (l.map key : Multiset κ), k ∈ keys.toFinset := by
    intro k hk
    obtain ⟨a, ha, rfl⟩ := List.mem_map.mp (Multiset.mem_coe.mp hk)
    exact List.mem_toFinset.mpr (hkeys a ha)
  simp only [hcount]
  rw [← List.sum_toFinset _ hnodup, Multiset.sum_count_eq_card hmem, Multiset.coe_card,
    List.length_map]

namespace SortedSet

variable {α : Type} [Ord α] [Std.TransOrd α] [Std.LawfulEqOrd α]

theorem mem_members_ofList {l : List α} {a : α} : a ∈ (ofList l).members ↔ a ∈ l := by
  rw [members, SortedMap.mem_keys_iff, ofList, SortedMap.isSome_get?_ofList, List.map_map]
  simp

end SortedSet

namespace Table

/-! ## Entries -/

/-- The entry for two workloads, where `mark?` has the marks of the ports between them. -/
structure IsEntry (mark? : ServicePort → Option Char) (ports : List (ServicePort × Char))
    (entry : String) : Prop where
  /-- The marked ports are listed in their order. -/
  sorted : (ports.map Prod.fst).Pairwise fun p q ↦ compare p q = .lt
  mem_iff : ∀ p c, (p, c) ∈ ports ↔ mark? p = some c
  eq_empty_iff : entry = "" ↔ ∀ p, mark? p = none
  /-- A port that is the only one is shown by its mark. -/
  single : ∀ p c, ports = [(p, c)] → entry = String.singleton c
  /-- Several ports are shown with their marks. -/
  several : 2 ≤ ports.length → entry = " ".intercalate (ports.map fun (p, c) ↦ s!"{p}:{c}")

theorem entry_of_two_le {ports : List (ServicePort × Char)} (h : 2 ≤ ports.length) :
    entry ports = " ".intercalate (ports.map fun (p, c) ↦ s!"{p}:{c}") := by
  match ports, h with
  | _ :: _ :: _, _ => rfl

theorem entry_eq_empty_iff {ports : List (ServicePort × Char)} : entry ports = "" ↔ ports = [] := by
  match ports with
  | [] => exact iff_of_true rfl rfl
  | [(p, c)] => exact iff_of_false String.singleton_ne_empty (by simp)
  | a :: b :: ports =>
    refine iff_of_false (fun h ↦ ?_) (by simp)
    rw [entry_of_two_le (by simp), List.map_cons, List.map_cons, String.intercalate_cons_cons] at h
    have hchars := congrArg String.toList h
    simp at hchars

theorem isEntry_entry {mark? : ServicePort → Option Char} {ports : List (ServicePort × Char)}
    (sorted : (ports.map Prod.fst).Pairwise fun p q ↦ compare p q = .lt)
    (mem_iff : ∀ p c, (p, c) ∈ ports ↔ mark? p = some c) : IsEntry mark? ports (entry ports) where
  sorted := sorted
  mem_iff := mem_iff
  eq_empty_iff := by
    rw [entry_eq_empty_iff, List.eq_nil_iff_forall_not_mem]
    constructor
    · intro h p
      exact Option.eq_none_iff_forall_ne_some.mpr fun c hc ↦ h (p, c) ((mem_iff p c).mpr hc)
    · intro h e he
      have hmark := (mem_iff e.1 e.2).mp he
      rw [h] at hmark
      exact absurd hmark (by simp)
  single := by
    rintro p c rfl
    rfl
  several := entry_of_two_le

/-! ## Counting marks -/

/-- The characters that mark cells. -/
def isMark (c : Char) : Bool := c ∈ ['.', 'X', '?']

theorem isMark_outcome (o : Outcome) : isMark o.mark := by cases o <;> rfl

theorem isMark_verdict (v : Verdict) : isMark v.mark := by cases v <;> rfl

theorem isDigit_eq_false_of_isMark {c : Char} (h : isMark c) : c.isDigit = false := by
  simp only [isMark, List.mem_cons, List.not_mem_nil, or_false, decide_eq_true_eq] at h
  obtain rfl | rfl | rfl := h <;> rfl

/-- The number of marks in an entry. -/
def marksIn (entry : String) : Nat := entry.toList.countP isMark

/-- The number of marks in a table. The names at the start of the rows do not count. -/
def markCount (t : Table) : Nat := (t.rows.map fun row ↦ (row.tail.map marksIn).sum).sum

theorem marksIn_append (s s' : String) : marksIn (s ++ s') = marksIn s + marksIn s' := by
  rw [marksIn, String.toList_append, List.countP_append]
  rfl

theorem marksIn_port (p : ServicePort) : marksIn (toString p) = 0 := by
  have hprotocol : marksIn p.protocol.name = 0 := by cases p.protocol <;> decide
  have hdigits : marksIn (toString p.number.toNat) = 0 := by
    refine List.countP_eq_zero.mpr fun c hc hmark ↦ ?_
    have hdigit : c.isDigit := Text.isDigit_of_mem_toDigits (n := p.number.toNat) (by
      simpa [toString, Nat.repr] using hc)
    rw [isDigit_eq_false_of_isMark hmark] at hdigit
    exact Bool.false_ne_true hdigit
  rw [show toString p = p.protocol.name ++ "/" ++ toString p.number.toNat from rfl, marksIn_append,
    marksIn_append, hprotocol, hdigits]
  rfl

theorem marksIn_singleton {c : Char} (h : isMark c) : marksIn (String.singleton c) = 1 := by
  simp [marksIn, h]

theorem marksIn_markedPort {e : ServicePort × Char} (h : isMark e.2) :
    marksIn s!"{e.1}:{e.2}" = 1 := by
  rw [show s!"{e.1}:{e.2}" = toString e.1 ++ ":" ++ String.singleton e.2 from rfl, marksIn_append,
    marksIn_append, marksIn_port, marksIn_singleton h]
  rfl

theorem marksIn_intercalate {parts : List String} (h : ∀ s ∈ parts, marksIn s = 1) :
    marksIn (" ".intercalate parts) = parts.length := by
  induction parts with
  | nil => rfl
  | cons s parts ih =>
    obtain ⟨hs, hparts⟩ := List.forall_mem_cons.mp h
    cases parts with
    | nil => rw [String.intercalate_singleton, hs, List.length_singleton]
    | cons s' parts =>
      rw [String.intercalate_cons_cons, marksIn_append, marksIn_append, hs, ih hparts,
        List.length_cons (a := s)]
      have hspace : marksIn " " = 0 := by decide
      omega

/-- An entry has a mark for each port. -/
theorem marksIn_entry {ports : List (ServicePort × Char)} (h : ∀ e ∈ ports, isMark e.2) :
    marksIn (entry ports) = ports.length := by
  match ports, h with
  | [], _ => rfl
  | [(p, c)], h => exact marksIn_singleton (h _ (List.mem_singleton_self _))
  | a :: b :: ports, h =>
    rw [entry_of_two_le (by simp), marksIn_intercalate, List.length_map]
    intro s hs
    obtain ⟨e, he, rfl⟩ := List.mem_map.mp hs
    exact marksIn_markedPort (h e he)

/-! ## Rows and columns -/

/-- The marked ports between two workloads, as a grid collects them. -/
def portsBetween (cells : List (Flow × Char)) (source destination : WorkloadKey) :
    List (ServicePort × Char) :=
  ((cells.filter (·.1.source == source)).filter (·.1.destination == destination)).map
    fun c ↦ (c.1.port, c.2)

theorem mem_portsBetween {cells : List (Flow × Char)} {source destination : WorkloadKey}
    {p : ServicePort} {c : Char} :
    (p, c) ∈ portsBetween cells source destination ↔ (⟨source, destination, p⟩, c) ∈ cells := by
  simp only [portsBetween, List.mem_map, List.mem_filter, beq_iff_eq]
  constructor
  · rintro ⟨⟨⟨s, d, q⟩, c'⟩, ⟨⟨hmem, rfl⟩, rfl⟩, heq⟩
    obtain ⟨rfl, rfl⟩ := Prod.mk.inj heq
    exact hmem
  · exact fun hmem ↦ ⟨_, ⟨⟨hmem, rfl⟩, rfl⟩, rfl⟩

theorem sorted_portsBetween (marks : SortedMap Flow Char) (source destination : WorkloadKey) :
    ((portsBetween marks.toList source destination).map Prod.fst).Pairwise
      fun p q ↦ compare p q = .lt := by
  rw [portsBetween, List.map_map, List.pairwise_map]
  refine ((marks.sorted.filter _).filter _).imp_of_mem fun {a b} ha hb hlt ↦ ?_
  simp only [List.mem_filter, beq_iff_eq] at ha hb
  -- the ends are the same, so the ports make the difference
  have hirrefl : ∀ k : WorkloadKey, compare k k ≠ .lt := fun k h ↦ by simp at h
  rcases Flow.compare_eq_lt_iff.mp hlt with h | ⟨-, h | ⟨-, h⟩⟩
  · rw [ha.1.2, hb.1.2] at h
    exact absurd h (hirrefl source)
  · rw [ha.2, hb.2] at h
    exact absurd h (hirrefl destination)
  · exact h

/-- Every row has as many entries as the header, which has at least one. -/
structure IsRectangular (t : Table) : Prop where
  header_ne_nil : t.header ≠ []
  length_row : ∀ row ∈ t.rows, row.length = t.header.length

theorem isRectangular_grid (cells : List (Flow × Char)) : (grid cells).IsRectangular where
  header_ne_nil := List.cons_ne_nil _ _
  length_row := by
    intro row hrow
    obtain ⟨source, -, rfl⟩ := List.mem_map.mp hrow
    rw [gridRow, grid, List.length_cons, List.length_cons, List.length_map, List.length_map]

/-- How the marks of flows can be read from a table, with the sources of its rows and the
destinations of its columns. -/
structure Shows (t : Table) (mark? : Flow → Option Char) (sources destinations : List WorkloadKey) :
    Prop where
  sorted_sources : sources.Pairwise fun k l ↦ compare k l = .lt
  mem_sources_iff : ∀ k, k ∈ sources ↔ ∃ f, (mark? f).isSome ∧ f.source = k
  sorted_destinations : destinations.Pairwise fun k l ↦ compare k l = .lt
  mem_destinations_iff : ∀ k, k ∈ destinations ↔ ∃ f, (mark? f).isSome ∧ f.destination = k
  header : t.header = "-" :: destinations.map toString
  /-- There is a row for each source, and in the row an entry for each destination. -/
  rows : List.Forall₂ (fun source row ↦ ∃ entries, row = toString source :: entries ∧
    List.Forall₂ (fun destination entry ↦
      ∃ ports, IsEntry (fun p ↦ mark? ⟨source, destination, p⟩) ports entry) destinations entries)
    sources t.rows
  length_row : ∀ row ∈ t.rows, row.length = t.header.length

theorem mem_members_iff {marks : SortedMap Flow Char} {key : Flow → WorkloadKey} {k : WorkloadKey} :
    k ∈ (SortedSet.ofList (marks.toList.map fun c ↦ key c.1)).members ↔
      ∃ f, (marks.get? f).isSome ∧ key f = k := by
  rw [SortedSet.mem_members_ofList, List.mem_map]
  constructor
  · rintro ⟨e, he, rfl⟩
    exact ⟨e.1, by rw [SortedMap.mem_toList_iff.mp he]; rfl, rfl⟩
  · rintro ⟨f, hf, rfl⟩
    obtain ⟨c, hc⟩ := Option.isSome_iff_exists.mp hf
    exact ⟨(f, c), SortedMap.mem_toList_iff.mpr hc, rfl⟩

/-- The sources of marked flows, in order. -/
def sourcesOf (cells : List (Flow × Char)) : List WorkloadKey :=
  (SortedSet.ofList (cells.map (·.1.source))).members

/-- The destinations of marked flows, in order. -/
def destinationsOf (cells : List (Flow × Char)) : List WorkloadKey :=
  (SortedSet.ofList (cells.map (·.1.destination))).members

theorem rows_grid (cells : List (Flow × Char)) : (grid cells).rows =
    (sourcesOf cells).map fun source ↦ toString source ::
      (destinationsOf cells).map fun destination ↦ entry (portsBetween cells source destination) :=
  rfl

theorem shows_grid (marks : SortedMap Flow Char) : (grid marks.toList).Shows marks.get?
    (sourcesOf marks.toList) (destinationsOf marks.toList) where
  sorted_sources := SortedMap.sorted_keys _
  mem_sources_iff _ := mem_members_iff
  sorted_destinations := SortedMap.sorted_keys _
  mem_destinations_iff _ := mem_members_iff
  header := rfl
  rows := by
    rw [rows_grid, List.forall₂_map_right_iff, List.forall₂_same]
    refine fun source _ ↦ ⟨_, rfl, ?_⟩
    rw [List.forall₂_map_right_iff, List.forall₂_same]
    refine fun destination _ ↦ ⟨portsBetween marks.toList source destination,
      isEntry_entry (sorted_portsBetween marks source destination) fun p c ↦ ?_⟩
    rw [mem_portsBetween, SortedMap.mem_toList_iff]
  length_row := (isRectangular_grid _).length_row

/-- A grid has a mark for each cell. -/
theorem markCount_grid (marks : SortedMap Flow Char)
    (hmarks : ∀ f c, marks.get? f = some c → isMark c) :
    (grid marks.toList).markCount = marks.size := by
  have hentry : ∀ source destination,
      marksIn (entry (portsBetween marks.toList source destination)) =
      ((marks.toList.filter (·.1.source == source)).filter
        (·.1.destination == destination)).length := by
    intro source destination
    rw [marksIn_entry, portsBetween, List.length_map]
    intro e he
    exact hmarks _ _ (SortedMap.mem_toList_iff.mp (mem_portsBetween.mp he))
  have hrow : ∀ source, ((destinationsOf marks.toList).map fun destination ↦
      marksIn (entry (portsBetween marks.toList source destination))).sum =
        (marks.toList.filter (·.1.source == source)).length := by
    intro source
    have hlisted : ∀ c ∈ marks.toList.filter (·.1.source == source),
        c.1.destination ∈ destinationsOf marks.toList := fun c hc ↦
      SortedSet.mem_members_ofList.mpr (List.mem_map_of_mem (List.mem_of_mem_filter hc))
    simp only [hentry]
    exact sum_length_filter (SortedMap.nodup_keys _) (fun c : Flow × Char ↦ c.1.destination) hlisted
  have hlisted : ∀ c ∈ marks.toList, c.1.source ∈ sourcesOf marks.toList := fun c hc ↦
    SortedSet.mem_members_ofList.mpr (List.mem_map_of_mem hc)
  rw [markCount, rows_grid, List.map_map]
  simp only [Function.comp_def, List.tail_cons, List.map_map, hrow]
  exact sum_length_filter (SortedMap.nodup_keys _) (fun c : Flow × Char ↦ c.1.source) hlisted

/-- A grid of the values of a map shows them all, however they are marked. -/
theorem showsCells_grid {ν : Type} (cells : SortedMap Flow ν) {mark : ν → Char}
    (hmark : ∀ v, isMark (mark v)) : ∃ sources destinations,
      (grid (cells.toList.map fun c ↦ (c.1, mark c.2))).Shows (fun f ↦ (cells.get? f).map mark)
        sources destinations ∧
      (grid (cells.toList.map fun c ↦ (c.1, mark c.2))).markCount = cells.size := by
  have hget : (cells.mapValues mark).get? = fun f ↦ (cells.get? f).map mark :=
    funext fun f ↦ SortedMap.get?_mapValues mark cells f
  refine ⟨_, _, hget ▸ shows_grid (cells.mapValues mark), ?_⟩
  have hmarks : ∀ f c, (cells.mapValues mark).get? f = some c → isMark c := by
    intro f c hc
    rw [hget] at hc
    obtain ⟨v, -, rfl⟩ := Option.map_eq_some_iff.mp hc
    exact hmark v
  exact (markCount_grid (cells.mapValues mark) hmarks).trans (List.length_map _)

end Table

/-- **A table shows every cell once, and where it belongs.** This holds of the outcomes of a matrix
and of the verdicts of a comparison. There are as many marks as cells. -/
theorem table_showsCells :
    (∀ m : Matrix, ∃ sources destinations,
      m.table.Shows (fun f ↦ (m.get? f).map Outcome.mark) sources destinations ∧
        m.table.markCount = m.size) ∧
    ∀ c : Comparison, ∃ sources destinations,
      c.table.Shows (fun f ↦ (c.get? f).map fun cell ↦ cell.verdict.mark) sources destinations ∧
        c.table.markCount = c.size :=
  ⟨fun m ↦ Table.showsCells_grid m.cells Table.isMark_outcome,
    fun c ↦ Table.showsCells_grid c.cells fun cell ↦ Table.isMark_verdict cell.verdict⟩

end Reachability
