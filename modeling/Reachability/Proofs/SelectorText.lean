import Reachability.Document.SelectorText
import Reachability.Proofs.Conversion
import Reachability.Proofs.JsonText

/-!
# The two text forms of a selector

A selector is written in two ways, by itself and as a part of a document, and it is read in two
ways. The two writers differ only in which part they write first, so what they write is one form
(`Tree.WritesSelector`): an absent part is left out, and so is an empty set of values, while an
empty map and an empty list are written. The form does not fix the order of the fields of a record,
because nothing does in JSON.

That both readers find the selector again is then said of the form, in whatever order the fields
are. Both look for a field by its name (`Decoder.filter_of_perm`), and a record of the form has no
name twice.
-/

namespace Reachability

namespace Tree

/-! ## The form -/

/-- The tree is a record of those fields that have a value, in any order. -/
def IsRecordOf (fs : List (String × Option Tree)) (t : Tree) : Prop :=
  ∃ written, t = record written ∧ written.Perm (Decoder.present fs)

/-- The tree has a text for every label. -/
def WritesLabels (t : Tree) (m : Labels) : Prop :=
  ∃ entries : List (String × String),
    t = record (entries.map fun e ↦ (e.1, text e.2)) ∧ entries.Perm m.toList

/-- The tree has the parts of a requirement, and its values in order, if there are any. -/
def WritesRequirement (t : Tree) (r : Requirement) : Prop :=
  t.IsRecordOf [("key", some (text r.key)), ("operator", some (text r.operator.name)),
    ("values", if r.values.members = [] then none else some (list (r.values.members.map text)))]

/-- The tree is a list of requirements. -/
def WritesRequirements (t : Tree) (rs : List Requirement) : Prop :=
  ∃ items, t = list items ∧ List.Forall₂ WritesRequirement items rs

/-- The tree has the parts of a selector that are not absent. -/
def WritesSelector (t : Tree) (s : Selector) : Prop :=
  ∃ labels requirements,
    t.IsRecordOf [("matchLabels", labels), ("matchExpressions", requirements)] ∧
    Option.Rel WritesLabels labels s.matchLabels ∧
    Option.Rel WritesRequirements requirements s.requirements

theorem isRecordOf_recordOf (fs : List (String × Option Tree)) : (recordOf fs).IsRecordOf fs :=
  ⟨_, rfl, .refl _⟩

/-! ## Writing -/

theorem writesLabels_labels (m : Labels) : (Encode.labels m).WritesLabels m :=
  ⟨m.toList, rfl, .refl _⟩

theorem writesRequirement_requirementTree (r : Requirement) :
    (Selector.requirementTree r).WritesRequirement r := by
  rw [WritesRequirement, ← if_congr SortedSet.isEmpty_iff rfl rfl]
  exact isRecordOf_recordOf _

end Tree

/-- A requirement has one form, by itself and in a document. -/
theorem Requirement.requirement_toWire (r : Requirement) :
    Encode.requirement r.toWire = Selector.requirementTree r := by
  rw [Encode.requirement, Selector.requirementTree, toWire]
  split <;> rfl

/-- The two forms have the same parts, of which one comes first in the one and last in the other. -/
theorem Selector.writers_agree (s : Selector) :
    ∃ written written', s.toTree = .record written ∧
      Encode.selector s.toWire = .record written' ∧ written.Perm written' := by
  obtain ⟨labels, requirements⟩ := s
  refine ⟨_, _, rfl, rfl, ?_⟩
  have hrequirements : (requirements.map (·.map Requirement.toWire)).map
      (fun rs ↦ Tree.list (rs.map Encode.requirement)) =
      requirements.map fun rs ↦ .list (rs.map requirementTree) := by
    simp [Function.comp_def, Requirement.requirement_toWire]
  rw [toWire, hrequirements]
  cases labels <;> cases requirements <;> simp [List.Perm.swap]

namespace Tree

theorem writesRequirements_list (rs : List Requirement) :
    (list (rs.map Selector.requirementTree)).WritesRequirements rs :=
  ⟨_, rfl, List.forall₂_map_left_iff.mpr (List.forall₂_same.mpr fun r _ ↦
    writesRequirement_requirementTree r)⟩

theorem writesSelector_toTree (s : Selector) : s.toTree.WritesSelector s :=
  ⟨_, _, isRecordOf_recordOf _, Decoder.rel_map_write fun m _ ↦ writesLabels_labels m,
    Decoder.rel_map_write fun rs _ ↦ writesRequirements_list rs⟩

theorem writesSelector_toWire (s : Selector) : (Encode.selector s.toWire).WritesSelector s := by
  obtain ⟨written, written', htree, hwire, hperm⟩ := s.writers_agree
  obtain ⟨labels, requirements, ⟨fields, hfields, hwritten⟩, hparts⟩ := writesSelector_toTree s
  obtain rfl := record.inj (htree.symm.trans hfields)
  exact ⟨labels, requirements, ⟨written', hwire, hperm.symm.trans hwritten⟩, hparts⟩

end Tree

/-! ## Reading a part of a document -/

theorem Requirement.values_toWire (r : Requirement) :
    r.toWire.values.map Encode.texts =
      if r.values.members = [] then none else some (.list (r.values.members.map .text)) := by
  rw [toWire, ← if_congr SortedSet.isEmpty_iff rfl rfl]
  split <;> rfl

namespace Decoder

theorem recovers_of_writesLabels {t : Tree} {m : Labels} (h : t.WritesLabels m) :
    Recovers labels t m := by
  obtain ⟨entries, rfl, hperm⟩ := h
  exact recovers_entries hperm

theorem recovers_of_writesRequirement {t : Tree} {r : Requirement} (h : t.WritesRequirement r) :
    Recovers requirement t r.toWire := by
  obtain ⟨written, rfl, hperm⟩ := h
  rw [← r.values_toWire] at hperm
  exact recovers_record (requirement_of_perm hperm)

theorem recovers_of_writesRequirements {t : Tree} {rs : List Requirement}
    (h : t.WritesRequirements rs) : Recovers (list requirement) t (rs.map Requirement.toWire) := by
  obtain ⟨items, rfl, hitems⟩ := h
  exact recovers_items (List.forall₂_map_right_iff.mpr
    (hitems.imp fun _ _ h ↦ recovers_of_writesRequirement h))

theorem selector_of_writesSelector {t : Tree} {s : Selector} (h : t.WritesSelector s) :
    selector t = some s.toWire := by
  obtain ⟨matchLabels, rs⟩ := s
  obtain ⟨labels, requirements, ⟨written, rfl, hperm⟩, hlabels, hrequirements⟩ := h
  -- documents have their parts in alphabetical order
  refine selector_of_perm ?_ ?_ (hperm.trans ((List.Perm.swap _ _ _).filterMap _))
  · cases hrequirements with
    | none => exact .none
    | some h => exact .some (recovers_of_writesRequirements h)
  · cases hlabels with
    | none => exact .none
    | some h => exact .some (recovers_of_writesLabels h)

end Decoder

/-! ## Reading a selector by itself -/

namespace Selector

open Decoder

theorem unique_of_perm {fs : List (String × Option Tree)} (hnames : (fs.map Prod.fst).Nodup)
    {written : List (String × Tree)} (hperm : written.Perm (present fs)) {name : String}
    {node : Option Tree} (hmem : (name, node) ∈ fs) : unique written name = some node := by
  rw [unique, filter_of_perm hnames hperm hmem]
  cases node <;> rfl

/-- A part is absent if its node is, and else what its node writes. -/
theorem readPart_eq_some {α : Type} {part : Decoder α} {Writes : Tree → α → Prop}
    (hpart : ∀ {t a}, Writes t a → Recovers part t a) {node : Option Tree} {a : Option α}
    (h : Option.Rel Writes node a) : readPart part node = some a := by
  cases h with
  | none => rfl
  | some h => exact hpart h

theorem readOperator_name (op : Operator) : readOperator (.text op.name) = some op := by
  cases op <;> decide +kernel

/-- An empty set is read from nothing, and any other one from the list of its members. -/
theorem readValues_members (values : SortedSet String) :
    readValues (if values.members = [] then none else some (.list (values.members.map .text))) =
      some values := by
  split
  · rename_i hempty
    rw [← SortedSet.ofList_members values, hempty]
    rfl
  · have hmembers : list text (.list (values.members.map .text)) = some values.members :=
      (recovers_texts values.members).eq_some
    rw [readValues, hmembers, Option.bind_eq_bind, Option.bind_some, SortedSet.ofList_members]
    rfl

theorem recovers_readRequirement {t : Tree} {r : Requirement} (h : t.WritesRequirement r) :
    Recovers readRequirement t r := by
  obtain ⟨written, rfl, hperm⟩ := h
  have hkey := unique_of_perm (by simp) hperm (.head _)
  have hoperator := unique_of_perm (by simp) hperm (.tail _ (.head _))
  have hvalues := unique_of_perm (by simp) hperm (.tail _ (.tail _ (.head _)))
  have htext : text (.text r.key) = some r.key := (recovers_text r.key).eq_some
  refine recovers_record ?_
  simp only [readRequirement, hkey, hoperator, hvalues, Option.bind_eq_bind, Option.bind_some,
    readRequirementParts, htext, readOperator_name, readValues_members]
  rfl

theorem recovers_readRequirements {t : Tree} {rs : List Requirement} (h : t.WritesRequirements rs) :
    Recovers (list readRequirement) t rs := by
  obtain ⟨items, rfl, hitems⟩ := h
  exact recovers_items (hitems.imp fun _ _ h ↦ recovers_readRequirement h)

theorem ofTree?_of_writesSelector {t : Tree} {s : Selector} (h : t.WritesSelector s) :
    ofTree? t = some s := by
  obtain ⟨labels, requirements, ⟨written, rfl, hperm⟩, hlabels, hrequirements⟩ := h
  have huniqueLabels := unique_of_perm (by simp) hperm (.head _)
  have huniqueRequirements := unique_of_perm (by simp) hperm (.tail _ (.head _))
  have hreadLabels := readPart_eq_some recovers_of_writesLabels hlabels
  have hreadRequirements := readPart_eq_some recovers_readRequirements hrequirements
  simp only [ofTree?, readParts, huniqueLabels, huniqueRequirements, hreadLabels,
    hreadRequirements, Option.bind_eq_bind, Option.bind_some]
  rfl

end Selector

/-! ## Texts -/

namespace Tree

variable {depth : Nat}

theorem Plain.record_perm {written fields : List (String × Tree)}
    (h : Plain (depth + 1) (record fields)) (hperm : written.Perm fields) :
    Plain (depth + 1) (record written) :=
  ⟨(hperm.map Prod.fst).nodup_iff.mpr h.1, fun f hf ↦ h.2 f (hperm.mem_iff.mp hf)⟩

theorem IsRecordOf.plain {fs : List (String × Option Tree)} {t : Tree} (h : t.IsRecordOf fs)
    (hnames : (fs.map Prod.fst).Nodup) (hplain : ∀ f ∈ fs, ∀ u ∈ f.2, Plain depth u) :
    Plain (depth + 1) t := by
  obtain ⟨written, rfl, hperm⟩ := h
  exact (plain_recordOf hnames hplain).record_perm hperm

theorem WritesLabels.plain {t : Tree} {m : Labels} (h : t.WritesLabels m) :
    Plain (depth + 1) t := by
  obtain ⟨entries, rfl, hperm⟩ := h
  exact (plain_labels m).record_perm (hperm.map _)

theorem WritesRequirement.plain {t : Tree} {r : Requirement} (h : t.WritesRequirement r) :
    Plain (depth + 2) t := by
  refine IsRecordOf.plain h (by simp) ?_
  simp only [List.forall_mem_cons, List.not_mem_nil, false_implies, implies_true, and_true]
  refine ⟨plain_some (plain_text _), plain_some (plain_text _), fun u hu ↦ ?_⟩
  split at hu
  · exact absurd hu (by simp)
  · exact plain_some (plain_texts _) u hu

theorem WritesRequirements.plain {t : Tree} {rs : List Requirement} (h : t.WritesRequirements rs) :
    Plain (depth + 3) t := by
  obtain ⟨items, rfl, hitems⟩ := h
  intro u hu
  obtain ⟨r, -, hr⟩ := exists_of_forall₂ hitems.flip hu
  exact WritesRequirement.plain hr

theorem plain_of_rel {α : Type} {Writes : Tree → α → Prop}
    (hplain : ∀ {t a}, Writes t a → Plain depth t) {node : Option Tree} {a : Option α}
    (h : Option.Rel Writes node a) : ∀ t ∈ node, Plain depth t := by
  cases h with
  | none => simp
  | some h => exact plain_some (hplain h)

theorem WritesSelector.plain {t : Tree} {s : Selector} (h : t.WritesSelector s) :
    Plain (depth + 4) t := by
  obtain ⟨labels, requirements, hrecord, hlabels, hrequirements⟩ := h
  refine hrecord.plain (by simp) ?_
  simp only [List.forall_mem_cons, List.not_mem_nil, false_implies, implies_true, and_true]
  exact ⟨plain_of_rel WritesLabels.plain hlabels,
    plain_of_rel WritesRequirements.plain hrequirements⟩

end Tree

namespace Selector

/-- **The two forms of a selector agree.** A selector is written by itself and in a document as the
same fields, if in another order. Whatever has this form, in any order of the fields of any record,
both readers read as the selector again, by itself or from a document, and so they do from a text
of it. -/
theorem forms_agree (s : Selector) :
    (∃ written written', s.toTree = .record written ∧ Encode.selector s.toWire = .record written' ∧
      written.Perm written') ∧
    s.toTree.WritesSelector s ∧ (Encode.selector s.toWire).WritesSelector s ∧
    ∀ t : Tree, t.WritesSelector s →
      (ofTree? t = some s ∧ (Decoder.selector t).map ofWire = some (.ok s)) ∧
      ofJson? (Json.render t) = some s ∧
        ((Json.read (Json.render t)).bind Decoder.selector).map ofWire = some (.ok s) := by
  refine ⟨s.writers_agree, Tree.writesSelector_toTree s, Tree.writesSelector_toWire s,
    fun t ht ↦ ?_⟩
  have hwire : (Decoder.selector t).map ofWire = some (.ok s) := by
    rw [Decoder.selector_of_writesSelector ht, Option.map_some, ofWire_toWire]
  have hplain : t.Plain 4 := ht.plain
  have hread : Json.read (Json.render t) = some t := Json.read_render (hplain.mono (by decide))
  refine ⟨⟨ofTree?_of_writesSelector ht, hwire⟩, ?_, ?_⟩
  · rw [ofJson?, hread, Option.bind_eq_bind, Option.bind_some, ofTree?_of_writesSelector ht]
  · rw [hread, Option.bind_some, hwire]

/-- A part that is empty and a requirement without values, with all fields in another order. -/
theorem forms_agree_shuffled :
    let s : Selector :=
      ⟨some ∅, some [⟨"app", .present, ∅⟩, ⟨"tier", .anyOf, SortedSet.ofList ["b", "a"]⟩]⟩
    let t : Tree := .record [
      ("matchExpressions", .list [
        .record [("operator", .text "Exists"), ("key", .text "app")],
        .record [("values", .list [.text "a", .text "b"]), ("operator", .text "In"),
          ("key", .text "tier")]]),
      ("matchLabels", .record [])]
    ofTree? t = some s ∧ (Decoder.selector t).map ofWire = some (.ok s) ∧
      ofJson? (Json.render t) = some s := by
  intro s t
  have hmembers : (SortedSet.ofList ["b", "a"]).members = ["a", "b"] := by decide +kernel
  have hform : t.WritesSelector s := by
    refine ⟨_, _, ⟨_, rfl, .swap _ _ _⟩, .some ⟨[], rfl, .refl _⟩, .some ⟨_, rfl, ?_⟩⟩
    refine .cons ⟨_, rfl, .swap _ _ _⟩ (.cons ⟨_, rfl, ?_⟩ .nil)
    rw [hmembers]
    exact (List.reverse_perm _).symm
  obtain ⟨⟨htree, hwire⟩, htext, -⟩ := s.forms_agree.2.2.2 t hform
  exact ⟨htree, hwire, htext⟩

end Selector

end Reachability
