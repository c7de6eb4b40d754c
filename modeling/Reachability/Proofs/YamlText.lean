import Reachability.Proofs.Address
import Reachability.Proofs.Yaml.Stream

/-!
# Streams of policy documents

Policies are written as YAML documents one after another, with a separator line between any two, and
read back as the list of their documents. Documents that say nothing may stand anywhere in the
stream. A stream is read as a whole or not at all: a document that cannot be read leaves no list.
-/

namespace Reachability

/-! ## Streams -/

namespace Yaml

/-- The documents of a text, as nodes that have yet to be given a meaning. -/
def documentNodes (s : String) : Option (List TextNode) := do parseStream (← tokenize s.toList)

/-- The document is not null, and cannot be read as a policy document. -/
def Malformed (document : TextNode) : Prop :=
  ∀ value ∈ documentValue document,
    value.isNull = false ∧ Decoder.policyDocument value.toTree = none

/-- Reads the policy documents among the documents of a stream. -/
def policyDocuments (nodes : List TextNode) : Option (List PolicyDocument) := do
  let values ← nodes.mapM documentValue
  ((values.filter (!·.isNull)).map (·.toTree)).mapM Decoder.policyDocument

theorem malformed_of_eq_none {node : TextNode} (h : documentValue node = none) : Malformed node :=
  fun value hvalue ↦ absurd hvalue (by simp [h])

theorem malformed_iff {node : TextNode} {value : Value} (h : documentValue node = some value) :
    Malformed node ↔ value.isNull = false ∧ Decoder.policyDocument value.toTree = none := by
  simp [Malformed, h]

/-- One document that cannot be read is enough for there to be no list. -/
theorem policyDocuments_eq_none_iff (nodes : List TextNode) :
    policyDocuments nodes = none ↔ ∃ node ∈ nodes, Malformed node := by
  induction nodes with
  | nil => simp [policyDocuments]
  | cons node nodes ih =>
    rw [List.exists_mem_cons_iff, ← ih]
    cases hvalue : documentValue node with
    | none => simp [policyDocuments, hvalue, malformed_of_eq_none hvalue]
    | some value =>
      rw [malformed_iff hvalue]
      cases hvalues : nodes.mapM documentValue with
      | none => simp [policyDocuments, hvalue, hvalues]
      | some values =>
        cases hnull : value.isNull with
        | true => simp [policyDocuments, hvalue, hvalues, hnull]
        | false =>
          cases hread : Decoder.policyDocument value.toTree with
          | none => simp [policyDocuments, hvalue, hvalues, hnull, hread]
          | some d =>
            simp [policyDocuments, hvalue, hvalues, hnull, hread]
            exact Option.eq_none_iff_forall_ne_some.symm

end Yaml

namespace Policy

/-- The document of a policy, as a record that a stream can hold. -/
def plainRecord (p : Policy) : Yaml.PlainRecord where
  fields := p.toDocument.toFields
  nonempty := by simp [PolicyDocument.toFields, Encode.object]
  plain := by
    have hplain : Tree.Plain (0 + 10) _ := Tree.plain_toFields p.simple_toDocument
    exact hplain.mono (by decide)

/-- The YAML text of a document in a stream: that of a policy, or one that says nothing. -/
def streamText : Policy ⊕ Yaml.Silence → String
  | .inl p => p.toDocument.toYaml
  | .inr s => String.ofList s.text

/-- The part of a stream that a document is. -/
def streamPart : Policy ⊕ Yaml.Silence → Yaml.Part
  | .inl p => .record p.plainRecord
  | .inr s => .silence s

end Policy

namespace PolicyDocument

theorem ofYaml_parts (parts : List Yaml.Part) :
    ofYaml (Yaml.stream (parts.map fun part ↦ String.ofList part.text)) =
      (parts.filterMap Yaml.Part.tree?).mapM Decoder.policyDocument := by
  rw [ofYaml, Yaml.read_stream]
  rfl

theorem ofYaml_eq_none_iff (s : String) :
    ofYaml s = none ↔ Yaml.documentNodes s = none ∨
      ∃ nodes ∈ Yaml.documentNodes s, ∃ node ∈ nodes, Yaml.Malformed node := by
  have hread : ofYaml s = (Yaml.documentNodes s).bind Yaml.policyDocuments := by
    simp only [ofYaml, Yaml.read, Yaml.documentNodes, Option.bind_eq_bind, Option.bind_assoc]
    rfl
  rw [hread]
  cases Yaml.documentNodes s with
  | none => simp
  | some nodes => simp [Yaml.policyDocuments_eq_none_iff]

/-- **Policies come back from a stream of their documents.** The stream may have documents that say
nothing anywhere between them. Of any stream, all documents are read or none are: there is no list
if the stream cannot be parsed, or if one of its documents can neither be left out nor be read. So a
stream of any records is read as a list only if each of them is a policy document. -/
theorem ofYaml_stream :
    (∀ documents : List (Policy ⊕ Yaml.Silence),
      ofYaml (Yaml.stream (documents.map Policy.streamText)) =
        some (documents.filterMap fun document ↦ document.getLeft?.map Policy.toDocument)) ∧
      (∀ s : String, ofYaml s = none ↔ Yaml.documentNodes s = none ∨
        ∃ nodes ∈ Yaml.documentNodes s, ∃ node ∈ nodes, Yaml.Malformed node) ∧
      ∀ parts : List Yaml.Part,
        ofYaml (Yaml.stream (parts.map fun part ↦ String.ofList part.text)) =
          (parts.filterMap Yaml.Part.tree?).mapM Decoder.policyDocument := by
  refine ⟨fun documents ↦ ?_, ofYaml_eq_none_iff, ofYaml_parts⟩
  have htexts : documents.map Policy.streamText =
      (documents.map Policy.streamPart).map fun part ↦ String.ofList part.text := by
    rw [List.map_map]
    refine List.map_congr_left fun document _ ↦ ?_
    cases document <;> rfl
  have htrees : (documents.map Policy.streamPart).filterMap Yaml.Part.tree? =
      (documents.filterMap fun document ↦ document.getLeft?.map Policy.toDocument).map
        fun d ↦ .record d.toFields := by
    rw [List.filterMap_map, List.map_filterMap]
    refine List.filterMap_congr fun document _ ↦ ?_
    cases document <;> rfl
  rw [htexts, ofYaml_parts, htrees]
  refine mapM_eq_some_of_forall fun d hd ↦ ?_
  obtain ⟨document, -, hdocument⟩ := List.mem_filterMap.mp hd
  obtain ⟨p, -, rfl⟩ := Option.map_eq_some_iff.mp hdocument
  exact Decoder.policyDocument_toFields p.simple_toDocument

end PolicyDocument

end Reachability
