import Reachability.Address

/-!
# Networks

A network is an address with the number of its leading bits that the members share. The bits after
those are kept, because a policy is written out with the address that it was read with; they do not
take part in membership. A network match takes exceptions away from a network.

## Main definitions

* `Network`, `Network.contains`, `Network.parse?`.
* `NetworkMatch`: a network less the excepted networks.
-/

namespace Reachability

/-- The addresses that share the leading `length` bits of `address`. -/
structure Network where
  address : Address
  length : Nat
  /-- An address has no more bits than its family gives it. -/
  bounded : length ≤ address.width
deriving DecidableEq

namespace Network

/-- The network of a single address. -/
def host (a : Address) : Network := ⟨a, a.width, Nat.le_refl _⟩

/-- Whether `a` is of the same family and shares the leading bits. -/
def contains (net : Network) (a : Address) : Bool :=
  match net.address, a with
  | .v4 m, .v4 n => m >>> (32 - net.length) == n >>> (32 - net.length)
  | .v6 m, .v6 n => m >>> (128 - net.length) == n >>> (128 - net.length)
  | _, _ => false

/-- The address with the bits after the leading `length` ones cleared. -/
def maskAddress (a : Address) (length : Nat) : Address :=
  match a with
  | .v4 m => .v4 (m >>> (32 - length) <<< (32 - length))
  | .v6 m => .v6 (m >>> (128 - length) <<< (128 - length))

/-- The network with the bits that do not matter cleared. -/
def canonical (net : Network) : Network where
  address := maskAddress net.address net.length
  length := net.length
  bounded := by
    have h := net.bounded
    cases ha : net.address <;> simpa [maskAddress, Address.width, ha] using h

/-- A network shows its address as it was given. -/
instance : ToString Network := ⟨fun net ↦ s!"{net.address}/{net.length}"⟩

/-- Reads the number of leading bits, in as few digits as the family may need. -/
def length? (limit : Nat) (cs : List Char) : Option Nat := do
  let n ← Text.decimal? cs
  if cs.length ≤ (toString limit).length ∧ n ≤ limit then some n else none

/-- Reads a network: an address, a slash and the number of leading bits. -/
def parse? (s : String) : Option Network := do
  let cs := s.toList
  let a ← AddressGrammar.network.read (cs.takeWhile (· ≠ '/'))
  match cs.dropWhile (· ≠ '/') with
  | '/' :: digits =>
    let n ← length? a.width digits
    if h : n ≤ a.width then some ⟨a, n, h⟩ else none
  | _ => none

/-- Reads a network, or a plain address as the network of that address. -/
def parseOrHost? (s : String) : Option Network :=
  (parse? s).or ((Address.parse? s).map host)

end Network

/-! ## Networks with exceptions -/

/-- The members of a network that are in none of the excepted networks. -/
structure NetworkMatch where
  network : Network
  except : List Network
deriving DecidableEq

namespace NetworkMatch

/-- Whether the network contains `a` and no excepted network does. -/
def contains (m : NetworkMatch) (a : Address) : Bool :=
  m.network.contains a && !m.except.any (·.contains a)

instance : ToString NetworkMatch where
  toString m := m.except.foldl (fun text net ↦ s!"{text} except {net}") (toString m.network)

end NetworkMatch

end Reachability
