import Reachability.Yaml.Token

/-!
# Nodes of a YAML document

A node is a scalar, a sequence, a mapping or an alias of an anchored node. `α` is what anchors are
identified by: their names in the text, and numbers once aliases have been resolved.
-/

namespace Reachability.Yaml

/-- The anchor and the tag of a node. -/
structure Properties (α : Type) where
  anchor : Option α
  tag : Option Tag

/-- No anchor and no tag. -/
def Properties.none {α : Type} : Properties α := ⟨.none, .none⟩

/-- A node of a document. -/
inductive Node (α : Type) where
  | scalar (properties : Properties α) (text : List Char) (plain : Bool)
  | sequence (properties : Properties α) (items : List (Node α))
  | mapping (properties : Properties α) (entries : List (Node α × Node α))
  | aliasOf (anchor : α)

namespace Node

variable {α : Type}

/-- The scalar that stands for a missing node. -/
def missing : Node α := .scalar .none [] true

mutual

/-- The number of parsing events that make up a node: one for a scalar or an alias, and a start and
an end for a collection. -/
def events : Node α → Nat
  | scalar .. | aliasOf _ => 1
  | sequence _ items => 2 + itemEvents items
  | mapping _ entries => 2 + entryEvents entries

/-- The number of events of a list of items. -/
def itemEvents : List (Node α) → Nat
  | [] => 0
  | item :: rest => events item + itemEvents rest

/-- The number of events of a list of entries. -/
def entryEvents : List (Node α × Node α) → Nat
  | [] => 0
  | (key, value) :: rest => events key + events value + entryEvents rest

end

mutual

/-- The anchored nodes, each before the nodes inside it. -/
def anchored : Node α → List (α × Node α)
  | node@(scalar p _ _) => (p.anchor.map (·, node)).toList
  | node@(sequence p items) => (p.anchor.map (·, node)).toList ++ anchoredItems items
  | node@(mapping p entries) => (p.anchor.map (·, node)).toList ++ anchoredEntries entries
  | aliasOf _ => []

/-- The anchored nodes in a list of items. -/
def anchoredItems : List (Node α) → List (α × Node α)
  | [] => []
  | item :: rest => anchored item ++ anchoredItems rest

/-- The anchored nodes in a list of entries. -/
def anchoredEntries : List (Node α × Node α) → List (α × Node α)
  | [] => []
  | (key, value) :: rest => anchored key ++ anchored value ++ anchoredEntries rest

end

end Node

end Reachability.Yaml
