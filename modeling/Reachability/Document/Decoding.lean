import Reachability.Document.Types

/-!
# Reading documents from trees

A layout reads the fields that it knows and skips the others, so a document may say more than a
policy needs. Every occurrence of a known field must have the right type, and the last one counts;
null stands for an absent field. Only a record can be read as a record, and only a list as a list,
except that a node left blank can be read as either with nothing in it.

A tag on a node does not matter to most readers. It does keep a null from standing for an absent
field, and a port may not have one.
-/

namespace Reachability

/-- Reads a node, or fails. -/
abbrev Decoder (α : Type) := Tree → Option α

namespace Decoder

/-! ## Simple types -/

/-- Reads a text. -/
def text : Decoder String := fun t ↦
  match t.untagged with
  | .text s => some s
  | _ => none

/-- Reads a truth value. -/
def bool : Decoder Bool := fun t ↦
  match t.untagged with
  | .bool b => some b
  | _ => none

/-- Reads an integer of so many bits. -/
def int (bits : Nat) : Decoder Int := fun t ↦
  match t.untagged with
  | .int n => if -Int.pow 2 (bits - 1) ≤ n ∧ n < Int.pow 2 (bits - 1) then some n else none
  | _ => none

/-- Reads a list. -/
def list {α : Type} (item : Decoder α) : Decoder (List α) := fun t ↦
  match t.untagged with
  | .list items => items.mapM item
  | .blank => some []
  | _ => none

/-- Reads a timestamp. -/
def timestamp : Decoder Timestamp := fun t ↦ do Timestamp.parse? (← text t)

/-! ## Records -/

/-- The fields of a record. -/
def fields : Decoder (List (String × Tree)) := fun t ↦
  match t.untagged with
  | .record fields => some fields
  | .blank => some []
  | _ => none

/-- Reads the values of a record as a map. -/
def map {α : Type} (value : Decoder α) : Decoder (SortedMap String α) := fun t ↦ do
  let entries ← (← fields t).mapM fun (name, v) ↦ do return (name, ← value v)
  return SortedMap.ofList entries

/-- Reads a map of texts. -/
def labels : Decoder Labels := map text

/-- Reads a node that may be null. -/
def nullable {α : Type} (value : Decoder α) : Decoder (Option α)
  | .null | .blank => some none
  | t => (value t).map some

/-- Reads every occurrence of a field, and gives the last. -/
def last {α : Type} (fs : List (String × Tree)) (name : String) (value : Decoder α) :
    Option (Option α) := do
  let values ← (fs.filter (·.1 == name)).mapM fun f ↦ value f.2
  return values.getLast?

/-- Reads a field that may be absent or null. -/
def optional {α : Type} (fs : List (String × Tree)) (name : String) (value : Decoder α) :
    Option (Option α) := do
  return (← last fs name (nullable value)).join

/-- Reads a field that may be absent but not of any other value. -/
def constant (fs : List (String × Tree)) (name expected : String) : Option Unit := do
  match ← last fs name fun t ↦ do if (← text t) = expected then some () else none with
  | some () | none => return ()

/-! ## Selectors and rules -/

/-- Reads a requirement. -/
def requirement : Decoder WireRequirement := fun t ↦ do
  let fs ← fields t
  return { key := (← optional fs "key" text).getD ""
           operator := (← optional fs "operator" text).getD ""
           values := ← optional fs "values" (list text) }

/-- Reads a selector. -/
def selector : Decoder WireSelector := fun t ↦ do
  let fs ← fields t
  return { matchExpressions := ← optional fs "matchExpressions" (list requirement)
           matchLabels := ← optional fs "matchLabels" labels }

/-- Reads a network. -/
def network : Decoder WireNetwork := fun t ↦ do
  let fs ← fields t
  return { cidr := (← optional fs "cidr" text).getD ""
           except := ← optional fs "except" (list text) }

/-- Reads a peer. -/
def peer : Decoder WirePeer := fun t ↦ do
  let fs ← fields t
  return { network := ← optional fs "ipBlock" network
           namespaceSelector := ← optional fs "namespaceSelector" selector
           podSelector := ← optional fs "podSelector" selector }

/-- Reads a port as a number of 32 bits or as a name. -/
def portRef : Decoder WirePortRef
  | .int n => (int 32 (.int n)).map .number
  | .text s => some (.name s)
  | _ => none

/-- Reads a port. -/
def port : Decoder WirePort := fun t ↦ do
  let fs ← fields t
  return { endPort := ← optional fs "endPort" (int 32)
           port := ← optional fs "port" portRef
           protocol := ← optional fs "protocol" text }

/-- Reads a rule whose peers are in the field `peers`. -/
def rule (peers : String) : Decoder WireRule := fun t ↦ do
  let fs ← fields t
  return { peers := ← optional fs peers (list peer)
           ports := ← optional fs "ports" (list port) }

/-- Reads a specification. -/
def spec : Decoder WireSpec := fun t ↦ do
  let fs ← fields t
  return { egress := ← optional fs "egress" (list (rule "to"))
           ingress := ← optional fs "ingress" (list (rule "from"))
           podSelector := (← optional fs "podSelector" selector).getD .empty
           policyTypes := ← optional fs "policyTypes" (list text) }

/-! ## Metadata -/

/-- Reads a reference to an owner. -/
def ownerReference : Decoder OwnerReference := fun t ↦ do
  let fs ← fields t
  return { apiVersion := (← optional fs "apiVersion" text).getD ""
           blockOwnerDeletion := ← optional fs "blockOwnerDeletion" bool
           controller := ← optional fs "controller" bool
           kind := (← optional fs "kind" text).getD ""
           name := (← optional fs "name" text).getD ""
           uid := (← optional fs "uid" text).getD "" }

mutual

/-- Reads any data, with the fields of every record in order and each of them once. Data has one
null, which also stands for numbers that are not finite. -/
def data : Decoder Tree
  | .list items => do return .list (← dataItems items)
  | .record fs => do return .record (SortedMap.ofList (← dataFields fs)).toList
  | .tagged _ | .unreadable => none
  | .blank | .real (.infinite _) | .real .undefined => some .null
  | t => some t

/-- Reads a list of any data. -/
def dataItems : List Tree → Option (List Tree)
  | [] => some []
  | t :: rest => do return (← data t) :: (← dataItems rest)

/-- Reads fields of any data. -/
def dataFields : List (String × Tree) → Option (List (String × Tree))
  | [] => some []
  | (name, t) :: rest => do return (name, ← data t) :: (← dataFields rest)

end

/-- Reads a record of managed fields. -/
def managedFields : Decoder ManagedFields := fun t ↦ do
  let fs ← fields t
  return { apiVersion := ← optional fs "apiVersion" text
           fieldsType := ← optional fs "fieldsType" text
           fields := ← optional fs "fieldsV1" data
           manager := ← optional fs "manager" text
           operation := ← optional fs "operation" text
           subresource := ← optional fs "subresource" text
           time := ← optional fs "time" timestamp }

/-- Reads the metadata of an object. -/
def metadata : Decoder Metadata := fun t ↦ do
  let fs ← fields t
  return { annotations := ← optional fs "annotations" labels
           creationTimestamp := ← optional fs "creationTimestamp" timestamp
           deletionGracePeriodSeconds := ← optional fs "deletionGracePeriodSeconds" (int 64)
           deletionTimestamp := ← optional fs "deletionTimestamp" timestamp
           finalizers := ← optional fs "finalizers" (list text)
           generateName := ← optional fs "generateName" text
           generation := ← optional fs "generation" (int 64)
           labels := ← optional fs "labels" labels
           managedFields := ← optional fs "managedFields" (list managedFields)
           name := ← optional fs "name" text
           ns := ← optional fs "namespace" text
           ownerReferences := ← optional fs "ownerReferences" (list ownerReference)
           resourceVersion := ← optional fs "resourceVersion" text
           selfLink := ← optional fs "selfLink" text
           uid := ← optional fs "uid" text }

/-! ## Documents -/

/-- The version of the interface that policy documents belong to. -/
def policyApiVersion : String := "networking.k8s.io/v1"

/-- The kind of policy documents. -/
def policyKind : String := "NetworkPolicy"

/-- Reads a policy document. It need not say that it is one, but may not say otherwise. -/
def policyDocument : Decoder PolicyDocument := fun t ↦ do
  let fs ← fields t
  constant fs "apiVersion" policyApiVersion
  constant fs "kind" policyKind
  return { metadata := (← optional fs "metadata" metadata).getD .empty
           spec := ← optional fs "spec" spec }

end Decoder

end Reachability
