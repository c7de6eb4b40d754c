import Mathlib.Data.String.Basic
import Reachability.Proofs.Acceptance

/-!
# Selectors through documents

A document lists the values of a requirement in any order and any number of times, and a selector
has a set of them. What is lost on the way is said here without the reader: a selector that is
written again lists the values in order and once (`WireSelector.Tidied`). And nothing that matters
is lost, since it picks the objects that the document asks for with its own lists
(`WireSelector.Selects`).

A selector that was read stands for the document (`WireSelector.StandsFor`), and both facts follow
from that alone, requirement by requirement.
-/

namespace Reachability

/-! ## What a document asks for -/

/-- The labels meet a requirement of a document. It is the name of the operator that says how, and
operators for presence do not look at the values. -/
@[mk_iff]
structure WireRequirement.Holds (r : WireRequirement) (labels : Labels) : Prop where
  anyOf : r.operator = "In" → ∃ v, labels.get? r.key = some v ∧ v ∈ r.values.getD []
  noneOf : r.operator = "NotIn" → ∀ v, labels.get? r.key = some v → v ∉ r.values.getD []
  present : r.operator = "Exists" → labels.get? r.key ≠ none
  absent : r.operator = "DoesNotExist" → labels.get? r.key = none

/-- The labels have every value that a document asks for, and meet all its requirements. -/
@[mk_iff]
structure WireSelector.Selects (w : WireSelector) (labels : Labels) : Prop where
  values : ∀ m ∈ w.matchLabels, ∀ k v, m.get? k = some v → labels.get? k = some v
  requirements : ∀ r ∈ w.matchExpressions.getD [], r.Holds labels

/-! ## Tidy documents -/

/-- The same values in increasing order and once each, or nothing if there are none. -/
def IsTidy (values : List String) : Option (List String) → Prop
  | none => values = []
  | some tidy => tidy ≠ [] ∧ tidy.Pairwise (· < ·) ∧ ∀ v, v ∈ tidy ↔ v ∈ values

/-- The same requirement with tidy values. -/
structure WireRequirement.Tidied (r r' : WireRequirement) : Prop where
  key : r'.key = r.key
  operator : r'.operator = r.operator
  values : IsTidy (r.values.getD []) r'.values

/-- The same selector with tidy values in each requirement. -/
structure WireSelector.Tidied (w w' : WireSelector) : Prop where
  labels : w'.matchLabels = w.matchLabels
  requirements : Option.Rel (List.Forall₂ WireRequirement.Tidied) w.matchExpressions
    w'.matchExpressions

/-! ## Complaints -/

/-- The complaint about the operator of a requirement. -/
def WireRequirement.complaint (r : WireRequirement) : String :=
  s!"invalid label selector operator: {Text.quoted r.operator}"

namespace Requirement

theorem ofWire_eq_error_iff {r : WireRequirement} {e : String} :
    ofWire r = .error e ↔ ¬r.Valid ∧ e = r.complaint := by
  have hreads := Operator.reads_parse r.operator
  rw [ofWire]
  cases hparse : Operator.parse r.operator with
  | ok op =>
    rw [hparse] at hreads
    exact iff_of_false (by simp) fun h ↦ h.1 hreads.1
  | error complaint =>
    rw [hparse] at hreads
    have hcomplaint : complaint = r.complaint := by
      rw [Operator.parse] at hparse
      split at hparse
      · exact absurd hparse (by simp)
      · exact (Except.error.inj hparse).symm
    rw [error_bind, Except.error.injEq, hcomplaint, eq_comm]
    exact (and_iff_right hreads).symm

end Requirement

namespace Selector

variable {w : WireSelector}

/-- The complaint is about the first unknown operator. -/
theorem ofWire_eq_error_iff {e : String} :
    ofWire w = .error e ↔
      Meets WireRequirement.Valid (fun r ↦ ¬r.Valid ∧ e = r.complaint)
        (w.matchExpressions.getD []) := by
  obtain ⟨requirements, labels⟩ := w
  cases requirements with
  | none => exact iff_of_false (by rintro ⟨⟩) not_meets_nil
  | some rs =>
    -- labels are taken as they are, so only requirements can be refused
    have hfails : ofWire ⟨some rs, labels⟩ = .error e ↔ rs.mapM Requirement.ofWire = .error e := by
      rw [ofWire, Option.mapM_some]
      cases rs.mapM Requirement.ofWire with
      | ok qs => exact iff_of_false (by rintro ⟨⟩) (by simp)
      | error complaint =>
        change Except.error complaint = Except.error e ↔ _
        rw [Except.error.injEq, Except.error.injEq]
    rw [hfails, mapM_eq_error_iff]
    simp only [(Requirement.reads_ofWire _).exists_ok_iff, Requirement.ofWire_eq_error_iff,
      Option.getD_some]

end Selector

/-! ## What is lost, and what is not -/

/-- The members of a set with the same elements are tidy. -/
theorem Requirement.isTidy_toWire_values {q : Requirement} {values : List String}
    (h : ∀ v, q.values.contains v ↔ v ∈ values) : IsTidy values q.toWire.values := by
  have hmembers : ∀ v, v ∈ q.values.members ↔ v ∈ values := fun v ↦
    SortedMap.mem_keys_iff.trans (h v)
  rw [toWire]
  split
  · rename_i hempty
    have hnil : q.values.members = [] := SortedSet.isEmpty_iff.mp hempty
    exact List.eq_nil_iff_forall_not_mem.mpr fun v hv ↦ by simpa [hnil] using (hmembers v).mpr hv
  · rename_i hempty
    refine ⟨mt SortedSet.isEmpty_iff.mpr hempty, ?_, hmembers⟩
    exact q.values.sorted_keys.imp compare_lt_iff_lt.mp

namespace WireRequirement.StandsFor

variable {r : WireRequirement} {q : Requirement} (h : r.StandsFor q)
include h

theorem tidied : r.Tidied q.toWire :=
  ⟨h.key, h.operator, Requirement.isTidy_toWire_values h.values⟩

/-- Listed values are the members of the set, however often they are listed. -/
theorem holds_iff {labels : Labels} : q.holds labels ↔ r.Holds labels := by
  obtain ⟨hkey, hoperator, hvalues⟩ := h
  rw [WireRequirement.holds_iff, Requirement.holds, ← hkey, ← hoperator]
  simp only [← hvalues]
  -- what is left depends on the operator and on the value of the key only
  cases q.operator <;> cases labels.get? q.key <;> simp [Operator.name]

end WireRequirement.StandsFor

namespace WireSelector.StandsFor

variable {w : WireSelector} {s : Selector} (h : w.StandsFor s)
include h

theorem requirements_getD :
    List.Forall₂ WireRequirement.StandsFor (w.matchExpressions.getD [])
      (s.requirements.getD []) := by
  obtain ⟨rs, labels⟩ := w
  obtain ⟨labels', qs⟩ := s
  cases h.requirements with
  | none => exact .nil
  | some hrequirements => exact hrequirements

theorem tidied : w.Tidied s.toWire := by
  obtain ⟨rs, labels⟩ := w
  obtain ⟨labels', qs⟩ := s
  refine ⟨h.labels, ?_⟩
  cases h.requirements with
  | none => exact .none
  | some hrequirements =>
    exact .some (List.forall₂_map_right_iff.mpr (hrequirements.imp fun _ _ h ↦ h.tidied))

/-- A selector picks what the document asks for. -/
theorem selects_iff {labels : Labels} : s.selects labels ↔ w.Selects labels := by
  have hrequirements : ((s.requirements.getD []).all (·.holds labels)) ↔
      ∀ r ∈ w.matchExpressions.getD [], r.Holds labels := by
    rw [List.all_eq_true]
    exact (forall_iff_of_forall₂ h.requirements_getD fun r q h ↦ h.holds_iff.symm).symm
  have hlabels : ((s.matchLabels.getD ∅).toList.all fun e ↦ labels.get? e.1 == some e.2) ↔
      ∀ m ∈ w.matchLabels, ∀ k v, m.get? k = some v → labels.get? k = some v := by
    rw [h.labels, List.all_eq_true]
    simp only [← SortedMap.mem_toList_iff, beq_iff_eq, Prod.forall]
    cases w.matchLabels with
    | none => simp [EmptyCollection.emptyCollection, SortedMap.empty]
    | some m => simp
  rw [Selector.selects, Bool.and_eq_true, hrequirements, hlabels, WireSelector.selects_iff,
    and_comm]

end WireSelector.StandsFor

namespace Selector

/-- **Conversion of selectors is exact.** A selector that is written to a document and read again
comes back. A document is refused if and only if it has an unknown operator, and then the complaint
is about the first one. From any other document comes a selector that is written as the same
document with tidy values, and that picks exactly what the document asks for. -/
theorem conversion_exact :
    (∀ s : Selector, ofWire s.toWire = .ok s) ∧
      ∀ w : WireSelector,
        (∀ e, ofWire w = .error e ↔
          Meets WireRequirement.Valid (fun r ↦ ¬r.Valid ∧ e = r.complaint)
            (w.matchExpressions.getD [])) ∧
        (w.Valid → ∃ s, ofWire w = .ok s ∧ w.Tidied s.toWire ∧
          ∀ labels, s.selects labels ↔ w.Selects labels) := by
  refine ⟨ofWire_toWire, fun w ↦ ⟨fun e ↦ ofWire_eq_error_iff, fun hvalid ↦ ?_⟩⟩
  obtain ⟨s, hs, hstands⟩ := (reads_ofWire w).exists_ok hvalid
  exact ⟨s, hs, hstands.tidied, fun labels ↦ hstands.selects_iff⟩

/-- Values that are written in no order and more than once, and two operators that do not exist. -/
theorem conversion_exact_untidy :
    let r : WireRequirement := ⟨"app", "NotIn", some ["web", "db", "web"]⟩
    (∃ s, ofWire ⟨some [r], none⟩ = .ok s ∧
      s.toWire = ⟨some [⟨"app", "NotIn", some ["db", "web"]⟩], none⟩ ∧
      s.selects ∅ ∧ ¬s.selects (SortedMap.ofList [("app", "db")])) ∧
    ofWire ⟨some [r, ⟨"app", "in", none⟩, ⟨"app", "out", none⟩], none⟩ =
      .error "invalid label selector operator: \"in\"" := by
  intro r
  constructor
  · have hvalid : WireSelector.Valid ⟨some [r], none⟩ := by
      simp [WireSelector.Valid, WireRequirement.Valid, r]
    obtain ⟨s, hs, -, hselects⟩ := (conversion_exact.2 ⟨some [r], none⟩).2 hvalid
    have hread : ofWire ⟨some [r], none⟩ =
        .ok ⟨none, some [⟨"app", .noneOf, SortedSet.ofList ["db", "web"]⟩]⟩ := by decide +kernel
    rw [hs, Except.ok.injEq] at hread
    refine ⟨s, hs, by rw [hread]; decide +kernel, (hselects ∅).mpr ?_, fun hselected ↦ ?_⟩
    · simp [WireSelector.selects_iff, WireRequirement.holds_iff, r]
    · have hholds := ((hselects _).mp hselected).requirements r (List.mem_singleton_self r)
      exact hholds.noneOf rfl "db" (by decide +kernel) (by decide)
  · refine ((conversion_exact.2 _).1 _).mpr ⟨[r], _, _, rfl, ?_, ?_, by decide +kernel⟩
    · simp [WireRequirement.Valid, r]
    · simp [WireRequirement.Valid]

end Selector

end Reachability
