import Reachability.Text.Decimal

/-!
# Internet addresses

Addresses of both families, their texts, and the reading of texts. Two grammars are in use: a plain
address is read strictly, and the address part of a network more liberally, in that a decimal octet
may be padded with zeros and the gap `::` may stand for no group at all. `AddressGrammar` is the
difference.

A text is read by cutting it apart: at dots for the four octets of version 4, and for version 6 at
the first gap `::` and then at colons. In version 6 the last two groups may be written as an
address of version 4.
-/

namespace Reachability

/-- An internet address, as the number that its text denotes. -/
inductive Address where
  | v4 (bits : BitVec 32)
  | v6 (bits : BitVec 128)
deriving DecidableEq

namespace Address

/-- The number of bits of an address of the same family. -/
def width : Address → Nat
  | v4 _ => 32
  | v6 _ => 128

/-- Whether the address is of version 4. -/
def isV4 : Address → Bool
  | v4 _ => true
  | v6 _ => false

/-! ## Texts of addresses -/

/-- The lowest `count` digits of `n` to the base `base`, most significant first. -/
def digitGroups (base n : Nat) : Nat → List Nat
  | 0 => []
  | count + 1 => digitGroups base (n / base) count ++ [n % base]

/-- The text of an address of version 4. -/
def showV4 (n : Nat) : String :=
  ".".intercalate ((digitGroups 256 n 4).map toString)

/-- Groups in hexadecimal without leading zeros, with colons between them. -/
def showGroups (groups : List Nat) : String :=
  ":".intercalate (groups.map fun g ↦ String.ofList (Nat.toDigits 16 g))

/-- The number of zeros at the start of a list. -/
def leadingZeros (groups : List Nat) : Nat := (groups.takeWhile (· == 0)).length

/-- The first longest run of zeros in a list, as its start and its length, where `i` is the position
of the list and `best` is the longest run before it. -/
def longestZeros : List Nat → Nat → Nat × Nat → Nat × Nat
  | [], _, best => best
  | g :: rest, i, best =>
    let run := leadingZeros (g :: rest)
    longestZeros rest (i + 1) (if best.2 < run then (i, run) else best)

/-- The text of an address of version 6: the first longest run of at least two zero groups is left
out, and an address that stands for one of version 4 shows that one. -/
def showV6 (n : Nat) : String :=
  if n / 0x100000000 = 0xFFFF then "::ffff:" ++ showV4 (n % 0x100000000)
  else
    let groups := digitGroups 65536 n 8
    let (start, run) := longestZeros groups 0 (0, 0)
    if 1 < run then showGroups (groups.take start) ++ "::" ++ showGroups (groups.drop (start + run))
    else showGroups groups

instance : ToString Address where
  toString
    | v4 bits => showV4 bits.toNat
    | v6 bits => showV6 bits.toNat

end Address

/-! ## Reading addresses -/

/-- The liberties that an address text may take. -/
structure AddressGrammar where
  /-- Decimal octets may have leading zeros. -/
  zeroPadded : Bool
  /-- The gap `::` may stand for no group. -/
  emptyGap : Bool

namespace AddressGrammar

/-- The grammar of an address on its own. -/
def plain : AddressGrammar := ⟨false, false⟩

/-- The grammar of the address in a network. -/
def network : AddressGrammar := ⟨true, true⟩

/-- Reads an octet: at most three decimal digits. -/
def octet? (g : AddressGrammar) (cs : List Char) : Option Nat := do
  let n ← Text.decimal? cs
  if cs.length ≤ 3 ∧ n ≤ 255 ∧ (g.zeroPadded ∨ cs.head? ≠ some '0' ∨ cs.length = 1) then some n
  else none

/-- Reads an address of version 4. -/
def readV4 (g : AddressGrammar) (cs : List Char) : Option (BitVec 32) := do
  match ← (cs.splitOn '.').mapM g.octet? with
  | [a, b, c, d] => some (BitVec.ofNat 32 (((a * 256 + b) * 256 + c) * 256 + d))
  | _ => none

/-- Reads a group: one to four hexadecimal digits. -/
def group? (cs : List Char) : Option Nat :=
  if cs.length ≤ 4 then Text.numeral? 16 cs else none

/-- Reads groups from the pieces between colons; `tail` allows the last piece to be an address of
version 4, which makes two groups. -/
def groups? (g : AddressGrammar) (tail : Bool) : List (List Char) → Option (List Nat)
  | [] => some []
  | [last] =>
    if tail ∧ '.' ∈ last then (g.readV4 last).map fun a ↦ [a.toNat / 65536, a.toNat % 65536]
    else (group? last).map fun n ↦ [n]
  | piece :: rest => do
    let n ← group? piece
    return n :: (← g.groups? tail rest)

/-- The text before the first gap and the text after it. -/
def splitAtGap : List Char → Option (List Char × List Char)
  | ':' :: ':' :: rest => some ([], rest)
  | c :: rest => (splitAtGap rest).map fun (head, tail) ↦ (c :: head, tail)
  | [] => none

/-- The pieces between colons, of which the empty text has none. -/
def pieces (cs : List Char) : List (List Char) :=
  if cs.isEmpty then [] else cs.splitOn ':'

/-- The address with the given groups. -/
def ofGroups (groups : List Nat) : BitVec 128 :=
  BitVec.ofNat 128 (groups.foldl (fun n g ↦ n * 65536 + g) 0)

/-- Reads an address of version 6. -/
def readV6 (g : AddressGrammar) (cs : List Char) : Option (BitVec 128) :=
  match splitAtGap cs with
  | none => do
    let groups ← g.groups? true (pieces cs)
    if groups.length = 8 then some (ofGroups groups) else none
  | some (head, tail) => do
    let front ← g.groups? false (pieces head)
    let back ← g.groups? true (pieces tail)
    let gap := 8 - (front.length + back.length)
    if front.length ≤ 7 ∧ front.length + back.length ≤ 8 ∧ (g.emptyGap ∨ 0 < gap) then
      some (ofGroups (front ++ List.replicate gap 0 ++ back))
    else none

/-- Reads an address of either family. -/
def read (g : AddressGrammar) (cs : List Char) : Option Address :=
  match g.readV4 cs with
  | some bits => some (.v4 bits)
  | none => (g.readV6 cs).map .v6

end AddressGrammar

/-- Reads an address on its own. -/
def Address.parse? (s : String) : Option Address := AddressGrammar.plain.read s.toList

end Reachability
