import Reachability.Document.Timestamp
import Reachability.Selector
import Reachability.Tree

/-!
# Policy documents

A policy as users write it and as a cluster stores it. Nothing is checked or filled in here: an
absent list is not an empty list, operators and addresses are just texts, and a document may be
quite meaningless. Metadata that policies have no use for is kept, because a document that was read
must be written out again.
-/

namespace Reachability

/-- A requirement of a selector in a document. -/
structure WireRequirement where
  key : String
  operator : String
  values : Option (List String)
deriving DecidableEq

/-- A selector in a document. -/
structure WireSelector where
  matchExpressions : Option (List WireRequirement)
  matchLabels : Option Labels
deriving DecidableEq

/-- The selector without any part. -/
def WireSelector.empty : WireSelector := ⟨none, none⟩

/-- A network and its exceptions in a document. -/
structure WireNetwork where
  cidr : String
  except : Option (List String)
deriving DecidableEq

/-- A peer in a document. -/
structure WirePeer where
  network : Option WireNetwork
  namespaceSelector : Option WireSelector
  podSelector : Option WireSelector
deriving DecidableEq

/-- A port in a document: a number, or a name. -/
inductive WirePortRef where
  | number (n : Int)
  | name (s : String)
deriving DecidableEq

/-- A port or a range of ports in a document. -/
structure WirePort where
  endPort : Option Int
  port : Option WirePortRef
  protocol : Option String
deriving DecidableEq

/-- A rule in a document. -/
structure WireRule where
  peers : Option (List WirePeer)
  ports : Option (List WirePort)
deriving DecidableEq

/-- What a document asks for. -/
structure WireSpec where
  egress : Option (List WireRule)
  ingress : Option (List WireRule)
  podSelector : WireSelector
  policyTypes : Option (List String)
deriving DecidableEq

/-- The specification that says nothing. -/
def WireSpec.empty : WireSpec := ⟨none, none, .empty, none⟩

/-- A reference to an object that owns the policy. -/
structure OwnerReference where
  apiVersion : String
  blockOwnerDeletion : Option Bool
  controller : Option Bool
  kind : String
  name : String
  uid : String

/-- A record of which manager set which fields. -/
structure ManagedFields where
  apiVersion : Option String
  fieldsType : Option String
  fields : Option Tree
  manager : Option String
  operation : Option String
  subresource : Option String
  time : Option Timestamp

/-- The metadata of an object. -/
structure Metadata where
  annotations : Option (SortedMap String String)
  creationTimestamp : Option Timestamp
  deletionGracePeriodSeconds : Option Int
  deletionTimestamp : Option Timestamp
  finalizers : Option (List String)
  generateName : Option String
  generation : Option Int
  labels : Option Labels
  managedFields : Option (List ManagedFields)
  name : Option String
  ns : Option String
  ownerReferences : Option (List OwnerReference)
  resourceVersion : Option String
  selfLink : Option String
  uid : Option String

namespace Metadata

/-- Metadata that says nothing. -/
def empty : Metadata :=
  ⟨none, none, none, none, none, none, none, none, none, none, none, none, none, none, none⟩

instance : Inhabited Metadata := ⟨empty⟩

/-- The metadata of an object of which just the name and the namespace are known. -/
def named (name : String) (ns : Option String) : Metadata := { empty with name := some name, ns }

end Metadata

/-- A policy document. -/
structure PolicyDocument where
  metadata : Metadata
  spec : Option WireSpec

end Reachability
