import Reachability.Text.Shortest
import Reachability.Tree

/-!
# Writing JSON

The compact text of a tree: no white space, fields in their order, and escapes only where the
grammar demands them.
-/

namespace Reachability.Json

/-- The digits of `n` to the base 16, in at least four places. -/
def hex4 (n : Nat) : List Char :=
  let digits := Nat.toDigits 16 n
  List.replicate (4 - digits.length) '0' ++ digits

/-- How a character is written inside a text. -/
def escaped (c : Char) : List Char :=
  match c with
  | '"' => ['\\', '"']
  | '\\' => ['\\', '\\']
  | '\x08' => ['\\', 'b']
  | '\x0c' => ['\\', 'f']
  | '\n' => ['\\', 'n']
  | '\r' => ['\\', 'r']
  | '\t' => ['\\', 't']
  | c => if c.toNat < 0x20 then '\\' :: 'u' :: hex4 c.toNat else [c]

/-- A text in quotes. -/
def writeText (s : String) : List Char := '"' :: s.toList.flatMap escaped ++ ['"']

mutual

/-- The characters of a node. A node that has no text of its own is written as null, and so is a
number that is not finite. -/
def write : Tree → List Char
  | .null | .blank | .unreadable => ['n', 'u', 'l', 'l']
  | .bool true => ['t', 'r', 'u', 'e']
  | .bool false => ['f', 'a', 'l', 's', 'e']
  | .int n => (toString n).toList
  | .real (.finite negative m) => Text.writeFinite negative m
  | .real _ => ['n', 'u', 'l', 'l']
  | .text s => writeText s
  | .list items => '[' :: writeItems items
  | .record fields => '{' :: writeFields fields
  | .tagged node => write node

/-- The items of a list and its closing bracket. -/
def writeItems : List Tree → List Char
  | [] => [']']
  | [item] => write item ++ [']']
  | item :: rest => write item ++ ',' :: writeItems rest

/-- The fields of a record and its closing brace. -/
def writeFields : List (String × Tree) → List Char
  | [] => ['}']
  | [(name, value)] => writeText name ++ ':' :: write value ++ ['}']
  | (name, value) :: rest => writeText name ++ ':' :: write value ++ ',' :: writeFields rest

end

/-- The text of a tree. -/
def render (t : Tree) : String := String.ofList (write t)

end Reachability.Json
