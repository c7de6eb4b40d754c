import Reachability.Tree

/-!
# Requests to a cluster

What is sent to the interface of a cluster. Parameters are percent-encoded as in a form: letters,
digits and the characters `*-._` stand for themselves, a space becomes a plus sign, and every other
byte of the UTF-8 text becomes two hexadecimal digits after a percent sign.

A path is made of names that are not encoded. A target, which is a path with its parameters, is
therefore read before it is sent: a question mark in a name ends the path early, a number sign ends
the target, and a character that may not stand in a target is refused.

## Main definitions

* `Request.ofTarget`: the request for a target.
* `sendAll`: what becomes of a sequence of requests.
-/

namespace Reachability

/-- A request to the interface of a cluster. -/
structure Request where
  method : String
  path : String
  /-- The encoded parameters, in the order of their names. -/
  query : List String
  body : Option Tree

/-- Why a request cannot be made. -/
inductive RequestError where
  /-- The object has no name. -/
  | emptyName
  /-- The target has a character that may not stand there. -/
  | invalidCharacter
  | tooLong
deriving DecidableEq, Repr

/-- The message that reports the failure. -/
def RequestError.message : RequestError → String
  | emptyName =>
    "Failed to build request: failed to validate request: A non-empty name is required"
  | invalidCharacter => "Failed to build request: failed to build request: invalid uri character"
  | tooLong => "Failed to build request: failed to build request: uri too long"

namespace Request

/-! ## Parameters -/

/-- A byte in two hexadecimal digits. -/
def encodedByte (b : UInt8) : List Char :=
  let digits := (Nat.toDigits 16 b.toNat).map Char.toUpper
  '%' :: (List.replicate (2 - digits.length) '0' ++ digits)

/-- A character in a form. -/
def encodedChar (c : Char) : List Char :=
  if c.isAlphanum || ['*', '-', '.', '_'].contains c then [c]
  else if c == ' ' then ['+']
  else c.toString.toUTF8.toList.flatMap encodedByte

/-- A text in a form. -/
def encoded (s : String) : String := String.ofList (s.toList.flatMap encodedChar)

/-- A parameter with its value. -/
def parameter (name value : String) : String := s!"{encoded name}={encoded value}"

/-! ## Targets -/

/-- The target of a path with parameters. -/
def target (path : String) (parameters : List (String × String)) : String :=
  s!"{path}?" ++ String.join (parameters.map fun (name, value) ↦ "&" ++ parameter name value)

/-- Whether `c` may stand in a path. -/
def isPathChar (c : Char) : Bool := ' ' < c && c ∉ ['<', '>', '\x60']

/-- Whether `c` may stand among parameters. -/
def isQueryChar (c : Char) : Bool := ' ' < c && c ∉ ['"', '<', '>']

/-- The number of bytes that a target may have. -/
def targetLimit : Nat := 65534

/-- The name of an encoded parameter. -/
def parameterName (s : String) : String := String.ofList (s.toList.takeWhile (· ≠ '='))

/-- The parameters that are written after the path of a target, in the order of their names, those
with the same name in the order given. -/
def parametersOf (query : List Char) : List String :=
  let given := ((String.ofList query).splitOn "&").filter (!·.isEmpty)
  given.mergeSort fun p q ↦ (compare (parameterName p) (parameterName q)).isLE

/-- The request for a target. -/
def ofTarget (method target : String) (body : Option Tree) : Except RequestError Request :=
  let sent := target.toList.takeWhile (· ≠ '#')
  let path := sent.takeWhile (· ≠ '?')
  let query := (sent.dropWhile (· ≠ '?')).drop 1
  if targetLimit < target.utf8ByteSize then .error .tooLong
  else if path.all isPathChar && query.all isQueryChar then
    .ok ⟨method, String.ofList path, parametersOf query, body⟩
  else .error .invalidCharacter

/-! ## Paths -/

/-- The path of a collection in a namespace. -/
def namespacedPath (root ns collection : String) : String := s!"{root}/namespaces/{ns}/{collection}"

/-- The path under which the basic kinds of objects are found. -/
def coreRoot : String := "/api/v1"

/-- The path under which network policies are found. -/
def networkingRoot : String := "/apis/networking.k8s.io/v1"

/-- The request for the object with a name in a collection, which must have one. -/
def ofName (method collection name : String) (parameters : List (String × String))
    (body : Option Tree) : Except RequestError Request :=
  if name.isEmpty then .error .emptyName
  else ofTarget method (target s!"{collection}/{name}" parameters) body

end Request

/-! ## Sequences of requests -/

/-- A request, and the complaint if it cannot be made or is refused. -/
structure RequestStep where
  request : Except RequestError Request
  complaint : String

/-- Sends requests until one cannot be made or is refused, and gives those that were sent. `accepts`
tells which are accepted, by their position from the first request of all, of which `sent` have gone
before. -/
def sendAll (accepts : Nat → Bool) (sent : Nat) :
    List RequestStep → List Request × Except String Unit
  | [] => ([], .ok ())
  | step :: rest =>
    match step.request with
    | .error _ => ([], .error step.complaint)
    | .ok request =>
      if accepts sent then
        let (requests, result) := sendAll accepts (sent + 1) rest
        (request :: requests, result)
      else ([request], .error step.complaint)

end Reachability
