import Reachability.Document.Conversion

/-!
# Selectors as texts of their own

Outside of policy documents a selector has a JSON form of its own. It is written like the selector
of a document, but read differently: a part may also be given as a list of its fields in order, a
field may not occur twice, a requirement must have its key and its operator, and a null is refused
as the list of values.
-/

namespace Reachability

namespace Selector

/-- The one occurrence of a field, if there is any; the field may not occur twice. -/
def unique (fs : List (String × Tree)) (name : String) : Option (Option Tree) :=
  match fs.filter (·.1 == name) with
  | [] => some none
  | [f] => some (some f.2)
  | _ => none

/-- Reads an operator: its name, or a record of its name and null. -/
def readOperator : Tree → Option Operator
  | .text s => Operator.parse? s
  | .record [(name, .null)] => Operator.parse? name
  | _ => none

/-- Reads the values of a requirement. -/
def readValues : Option Tree → Option (SortedSet String)
  | none => some ∅
  | some t => do return SortedSet.ofList (← Decoder.list Decoder.text t)

/-- Reads a requirement from the nodes of its fields. -/
def readRequirementParts (key operator : Tree) (values : Option Tree) : Option Requirement := do
  return ⟨← Decoder.text key, ← readOperator operator, ← readValues values⟩

/-- Reads a requirement. -/
def readRequirement : Tree → Option Requirement
  | .record fs => do
    readRequirementParts (← (← unique fs "key")) (← (← unique fs "operator")) (← unique fs "values")
  | .list [key, operator] => readRequirementParts key operator none
  | .list [key, operator, values] => readRequirementParts key operator (some values)
  | _ => none

/-- Reads a part of a selector that may be missing or null. -/
def readPart {α : Type} (part : Decoder α) (t : Option Tree) : Option (Option α) :=
  Decoder.nullable part (t.getD .null)

/-- Reads a selector from the nodes of its parts. -/
def readParts (labels requirements : Option Tree) : Option Selector := do
  return ⟨← readPart Decoder.labels labels,
    ← readPart (Decoder.list readRequirement) requirements⟩

/-- Reads a selector from a tree. -/
def ofTree? : Tree → Option Selector
  | .record fs => do readParts (← unique fs "matchLabels") (← unique fs "matchExpressions")
  | .list [] => readParts none none
  | .list [labels] => readParts (some labels) none
  | .list [labels, requirements] => readParts (some labels) (some requirements)
  | _ => none

/-- Reads a selector from a JSON text. -/
def ofJson? (s : String) : Option Selector := do ofTree? (← Json.read s)

/-- The tree of a requirement. An empty set of values is left out. -/
def requirementTree (r : Requirement) : Tree :=
  .recordOf [("key", some (.text r.key)), ("operator", some (.text r.operator.name)),
    ("values", if r.values.isEmpty then none else some (Encode.texts r.values.members))]

/-- The tree of a selector: the labels first, and a part only if it is there. -/
def toTree (s : Selector) : Tree :=
  .recordOf [("matchLabels", s.matchLabels.map Encode.labels),
    ("matchExpressions", s.requirements.map fun rs ↦ .list (rs.map requirementTree))]

end Selector

end Reachability
