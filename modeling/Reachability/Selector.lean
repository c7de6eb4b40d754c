import Reachability.SortedMap
import Reachability.Text.Quoted

/-!
# Labels and selectors

Namespaces and workloads carry labels. A selector picks objects by their labels: it may ask for
exact values, and it may state requirements on keys. An absent part and an empty part both ask for
nothing, but they are kept apart, because a policy must be written out as it was read.

## Main definitions

* `Labels`: a map of strings.
* `Requirement`, `Requirement.holds`: one condition on one key.
* `Selector`, `Selector.selects`: all conditions together.
-/

namespace Reachability

/-- Labels of a namespace or a workload. -/
abbrev Labels := SortedMap String String

/-- The key under which every namespace carries its own name. -/
def namespaceNameKey : String := "kubernetes.io/metadata.name"

/-! ## Requirements -/

/-- What a requirement asks of the value of its key. -/
inductive Operator where
  /-- The key is there and its value is listed. -/
  | anyOf
  /-- The key is missing or its value is not listed. -/
  | noneOf
  /-- The key is there. -/
  | present
  /-- The key is missing. -/
  | absent
deriving DecidableEq, Repr

namespace Operator

/-- The name of the operator in documents. -/
def name : Operator → String
  | anyOf => "In"
  | noneOf => "NotIn"
  | present => "Exists"
  | absent => "DoesNotExist"

/-- The operator with exactly the given name. -/
def parse? (s : String) : Option Operator :=
  [anyOf, noneOf, present, absent].find? (·.name == s)

/-- The operator with exactly the given name, or the complaint about it. -/
def parse (s : String) : Except String Operator :=
  match parse? s with
  | some op => .ok op
  | none => .error s!"invalid label selector operator: {Text.quoted s}"

end Operator

/-- A condition on the value of one label. -/
structure Requirement where
  key : String
  operator : Operator
  values : SortedSet String
deriving DecidableEq

namespace Requirement

/-- Whether the labels meet the requirement. -/
def holds (r : Requirement) (labels : Labels) : Bool :=
  match r.operator, labels.get? r.key with
  | .anyOf, some v => r.values.contains v
  | .anyOf, none => false
  | .noneOf, some v => !r.values.contains v
  | .noneOf, none => true
  | .present, v => v.isSome
  | .absent, v => v.isNone

instance : ToString Requirement where
  toString r :=
    let values := ",".intercalate r.values.members
    match r.operator with
    | .anyOf => s!"{r.key} in ({values})"
    | .noneOf => s!"{r.key} notin ({values})"
    | .present => r.key
    | .absent => "!" ++ r.key

end Requirement

/-! ## Selectors -/

/-- Picks objects by their labels. -/
structure Selector where
  /-- The values that labels must have. -/
  matchLabels : Option Labels
  /-- The requirements that labels must meet. -/
  requirements : Option (List Requirement)
deriving DecidableEq

namespace Selector

/-- The selector that asks for nothing and has no part. -/
def everything : Selector := ⟨none, none⟩

instance : Inhabited Selector := ⟨everything⟩

/-- The selector that asks for exact values. -/
def ofLabels (labels : Labels) : Selector := ⟨some labels, none⟩

/-- The selector that asks for one exact value. -/
def ofLabel (key value : String) : Selector := ofLabels (SortedMap.ofList [(key, value)])

/-- The selector that states requirements. -/
def ofRequirements (rs : List Requirement) : Selector := ⟨none, some rs⟩

/-- Whether nothing is asked for. -/
def isEmpty (s : Selector) : Bool :=
  s.matchLabels.all (·.isEmpty) && s.requirements.all (·.isEmpty)

/-- Whether an object with these labels is selected. -/
def selects (s : Selector) (labels : Labels) : Bool :=
  (s.requirements.getD []).all (·.holds labels) &&
    (s.matchLabels.getD ∅).toList.all fun e ↦ labels.get? e.1 == some e.2

instance : ToString Selector where
  toString s :=
    if s.isEmpty then "*"
    else ",".intercalate
      ((s.matchLabels.getD ∅).toList.map (fun e ↦ s!"{e.1}={e.2}") ++
        (s.requirements.getD []).map toString)

end Selector

end Reachability
