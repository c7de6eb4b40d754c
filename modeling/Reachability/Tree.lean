import Reachability.Binary64

/-!
# Trees of data

What a JSON text or a YAML document says, before it is read as something in particular. The two
formats share this type, so that a document layout is described once for both.

Records keep their fields in the order of the text, repeated ones included, because a layout may
object to an earlier occurrence. There are two nodes that say nothing, because the formats differ in
what can be made of one. Two kinds of node exist for the sake of refusal only: a node that carries a
tag of its own, and a node that no layout can use.
-/

namespace Reachability

/-- A node of data. -/
inductive Tree where
  | null
  /-- A node left blank, which may be read as an empty list or an empty record too. -/
  | blank
  | bool (b : Bool)
  | int (n : Int)
  /-- A number with a fraction or an exponent, or too large for an integer. -/
  | real (x : Binary64)
  | text (s : String)
  | list (items : List Tree)
  | record (fields : List (String × Tree))
  /-- A node to which the document gives a tag of its own. -/
  | tagged (node : Tree)
  /-- A node that may be skipped but not read: ill-formed text, a number that is out of range, a
  collection nested too deeply, or a mapping with a key that is not text. -/
  | unreadable
deriving Inhabited

namespace Tree

/-- The node without its tags. -/
def untagged : Tree → Tree
  | tagged node => node.untagged
  | node => node

/-- The record of those fields that have a value. -/
def recordOf (fields : List (String × Option Tree)) : Tree :=
  record (fields.filterMap fun (name, value) ↦ value.map (name, ·))

end Tree

end Reachability
