import Reachability.Tree
import Reachability.Yaml.Parser
import Reachability.Yaml.Resolution
import Reachability.Yaml.Scanner

/-!
# Reading YAML

A stream is scanned and parsed, and every document is then read as a tree: aliases are replaced by
what they stand for, and scalars get their meaning. Documents that say nothing are left out. A
mapping may not have the same key twice. Two limits keep small texts from standing for huge trees:
collections may not be nested too deeply, and aliases may not be followed too often.
-/

namespace Reachability.Yaml

/-! ## Anchors -/

/-- The numbers given to the names of anchors so far. -/
abbrev AnchorNames := List (List Char × Nat)

/-- Numbers an anchor. A number is how many names have been seen before, so a name that is used
again gets a new number, and the next new name may get the same. -/
def numberAnchor (name : List Char) : StateT AnchorNames Option Nat := fun names ↦
  some (names.length, (name, names.length) :: names.filter (·.1 ≠ name))

/-- Properties whose anchor has been numbered. -/
def linkProperties (p : Properties (List Char)) : StateT AnchorNames Option (Properties Nat) := do
  match p.anchor with
  | none => return ⟨none, p.tag⟩
  | some name => return ⟨some (← numberAnchor name), p.tag⟩

mutual

/-- Replaces the names of anchors by numbers. An alias must come after its anchor. -/
def link : TextNode → StateT AnchorNames Option (Node Nat)
  | .scalar p text plain => do return .scalar (← linkProperties p) text plain
  | .sequence p items => do
    let p ← linkProperties p
    return .sequence p (← linkItems items)
  | .mapping p entries => do
    let p ← linkProperties p
    return .mapping p (← linkEntries entries)
  | .aliasOf name => fun names ↦ (names.lookup name).map (.aliasOf ·, names)

/-- Replaces names in a list of items. -/
def linkItems : List TextNode → StateT AnchorNames Option (List (Node Nat))
  | [] => return []
  | item :: rest => do
    let item ← link item
    return item :: (← linkItems rest)

/-- Replaces names in a list of entries. -/
def linkEntries :
    List (TextNode × TextNode) → StateT AnchorNames Option (List (Node Nat × Node Nat))
  | [] => return []
  | (key, value) :: rest => do
    let key ← link key
    let value ← link value
    return (key, value) :: (← linkEntries rest)

end

/-! ## Values -/

/-- What a node says. Unlike in a tree, any value may be a key. -/
inductive Value where
  | null
  | bool (b : Bool)
  | int (n : Int)
  | real (x : Binary64)
  | text (cs : List Char)
  | list (items : List Value)
  | mapping (entries : List (Value × Value))
  | tagged (tag : Tag) (value : Value)

namespace Value

mutual

/-- Whether two values are the same key. -/
def same : Value → Value → Bool
  | null, null => true
  | bool a, bool b => a == b
  | int a, int b => a == b
  | real a, real b => a.same b
  | text a, text b => a == b
  | list a, list b => sameItems a b
  | mapping a, mapping b => a.length == b.length && hasEntries a b
  | tagged s a, tagged t b => s == t && same a b
  | _, _ => false

/-- Whether two lists have the same items. -/
def sameItems : List Value → List Value → Bool
  | [], [] => true
  | a :: as, b :: bs => same a b && sameItems as bs
  | _, _ => false

/-- Whether a mapping has all the given entries. Their order does not matter. -/
def hasEntries : List (Value × Value) → List (Value × Value) → Bool
  | [], _ => true
  | (k, a) :: as, bs => bs.any (fun e ↦ same k e.1 && same a e.2) && hasEntries as bs

end

/-- Whether the value is null, tagged or not. -/
def isNull : Value → Bool
  | null => true
  | tagged _ value => value.isNull
  | _ => false

/-- The text of a value that is text, tagged or not. -/
def text? : Value → Option String
  | text cs => some (String.ofList cs)
  | tagged _ value => value.text?
  | _ => none

mutual

/-- The tree of a value. A mapping with a key that is not text is unreadable. -/
def toTree : Value → Tree
  | null => .blank
  | bool b => .bool b
  | int n => .int n
  | real x => .real x
  | text cs => .text (String.ofList cs)
  | list items => .list (toTrees items)
  | mapping entries => (toFields entries).elim .unreadable .record
  | tagged _ value => .tagged (toTree value)

/-- The trees of a list of values. -/
def toTrees : List Value → List Tree
  | [] => []
  | item :: rest => toTree item :: toTrees rest

/-- The fields of entries whose keys are all text. -/
def toFields : List (Value × Value) → Option (List (String × Tree))
  | [] => some []
  | (key, value) :: rest => do
    let name ← key.text?
    return (name, toTree value) :: (← toFields rest)

end

end Value

/-! ## Scalars -/

/-- What a plain scalar says. -/
def plainValue (cs : List Char) : Option Value :=
  match meaning cs with
  | .null => some .null
  | .bool b => some (.bool b)
  | .int n => some (.int n)
  | .real x => some (.real x)
  | .text => some (.text cs)
  | .tooLarge => none

/-- What a scalar without a tag says. -/
def untaggedValue (text : List Char) (plain : Bool) : Option Value :=
  if plain then plainValue text else some (.text text)

/-- The tag of the core schema with a name. -/
def coreTag (name : String) : Tag := .ofText ("tag:yaml.org,2002:" ++ name)

/-- What a scalar with a tag of the core schema says. The tags of the simple types are binding; any
other makes it text. -/
def coreValue (tag : Tag) (text : List Char) : Option Value :=
  if tag = coreTag "bool" then (boolWord? text).map .bool
  else if tag = coreTag "int" then
    match (integer? text).bind integerMeaning with
    | some (.int n) => some (.int n)
    | _ => none
  else if tag = coreTag "float" then (real? text).map .real
  else if tag = coreTag "null" then if isNullWord text then some .null else none
  else some (.text text)

/-- A tag without the exclamation mark in front, unless the mark is all of it. -/
def withoutBang (tag : Tag) : Tag :=
  match tag with
  | bang :: c :: rest => if [bang] = Tag.bang then c :: rest else tag
  | tag => tag

/-- The name of a tag of the document's own. Such a tag begins with an exclamation mark and is text;
in a name one more mark in front does not matter. -/
def ownName? (tag : Tag) : Option Tag :=
  if tag.take 1 = Tag.bang ∧ tag.toByteArray.validateUTF8 then
    some (withoutBang (withoutBang tag))
  else none

/-- A value with the tag of its node. Only a tag of the document's own is kept. -/
def withTag (tag : Option Tag) (value : Value) : Value :=
  (tag.bind ownName?).elim value (.tagged · value)

/-- What a scalar says. -/
def scalarValue (tag : Option Tag) (text : List Char) (plain : Bool) : Option Value :=
  match tag with
  | none => untaggedValue text plain
  | some t =>
    if t.take 1 = Tag.bang then (untaggedValue text plain).map (withTag tag) else coreValue t text

/-! ## Documents -/

/-- What the nodes of a document are read against: its anchored nodes, and how often aliases may be
followed. -/
structure DocumentContext where
  anchored : List (Nat × Node Nat)
  jumpLimit : Nat

/-- The number of collections that may be inside one another. -/
def depthLimit : Nat := 128

/-- The node that an alias stands for. The state counts how often aliases have been followed. -/
def followAlias (ctx : DocumentContext) : Node Nat → StateT Nat Option (Node Nat)
  | .aliasOf id => fun jumps ↦
    if jumps < ctx.jumpLimit then (ctx.anchored.lookup id).map (·, jumps + 1) else none
  | node => return node

/-- Adds an entry to a mapping, whose key must be new. -/
def addEntry (entries : List (Value × Value)) (key : Value) : Option Unit :=
  if entries.any (·.1.same key) then none else some ()

/-- Adds an entry to those of a mapping, the last one first, where `inner` says what a node says. -/
def entryValue (inner : Node Nat → StateT Nat Option Value) (done : List (Value × Value))
    (entry : Node Nat × Node Nat) : StateT Nat Option (List (Value × Value)) := do
  let key ← inner entry.1
  addEntry done key
  return (key, ← inner entry.2) :: done

/-- What a node says that is no alias, where `inner` says what the nodes inside it say. There may be
none inside it if `inner` is absent. -/
def contentValue (inner : Option (Node Nat → StateT Nat Option Value)) :
    Node Nat → StateT Nat Option Value
  | .scalar p text plain => scalarValue p.tag text plain
  | .sequence p items => do
    let inner ← inner
    return withTag p.tag (.list (← items.mapM inner))
  | .mapping p entries => do
    let inner ← inner
    return withTag p.tag (.mapping (← entries.foldlM (entryValue inner) []).reverse)
  | .aliasOf _ => none

/-- What a node says, if at most `depth` collections are inside one another. -/
def nodeValue (ctx : DocumentContext) : Nat → Node Nat → StateT Nat Option Value
  | 0, node => do contentValue none (← followAlias ctx node)
  | depth + 1, node => do contentValue (some (nodeValue ctx depth)) (← followAlias ctx node)

/-- What a document says. Of several anchored nodes with one number the last one counts. -/
def documentValue (document : TextNode) : Option Value := do
  let (root, _) ← (link document).run []
  let ctx : DocumentContext := ⟨root.anchored.reverse, 100 * root.events⟩
  return (← (nodeValue ctx depthLimit root).run 0).1

/-- Reads a stream: the trees of its documents, except for those that are null. -/
def read (s : String) : Option (List Tree) := do
  let documents ← parseStream (← tokenize s.toList)
  let values ← documents.mapM documentValue
  return (values.filter (!·.isNull)).map (·.toTree)

end Reachability.Yaml
