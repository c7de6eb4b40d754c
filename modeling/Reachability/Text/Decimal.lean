/-!
# Decimal numerals

Reading of unsigned and signed decimal numerals. A numeral may have leading zeros; whether it may
carry a sign is for the caller, who picks the reader.
-/

namespace Reachability.Text

/-- The value of an ASCII decimal digit. -/
def digit? (c : Char) : Option Nat :=
  if c.isDigit then some (c.toNat - '0'.toNat) else none

/-- The number that a list of decimal digits denotes, after the digits of `start`. -/
def decimalFrom (start : Nat) (cs : List Char) : Nat :=
  cs.foldl (fun n c ↦ 10 * n + (c.toNat - '0'.toNat)) start

/-- The number denoted by a nonempty run of decimal digits. -/
def decimal? (cs : List Char) : Option Nat :=
  if !cs.isEmpty && cs.all Char.isDigit then some (decimalFrom 0 cs) else none

/-- The number denoted by a run of decimal digits after an optional plus sign. -/
def unsigned? : List Char → Option Nat
  | '+' :: cs => decimal? cs
  | cs => decimal? cs

/-- The integer denoted by a run of decimal digits after an optional sign. -/
def signed? : List Char → Option Int
  | '-' :: cs => (decimal? cs).map fun n ↦ -(n : Int)
  | cs => (unsigned? cs).map Int.ofNat

/-- The value of a hexadecimal digit of either case. -/
def hexDigit? (c : Char) : Option Nat :=
  if c.isDigit then some (c.toNat - '0'.toNat)
  else if 'a' ≤ c ∧ c ≤ 'f' then some (c.toNat - 'a'.toNat + 10)
  else if 'A' ≤ c ∧ c ≤ 'F' then some (c.toNat - 'A'.toNat + 10)
  else none

/-- The number that a list of digits denotes to the base `b`, if all are digits of that base. -/
def numeral? (b : Nat) (cs : List Char) : Option Nat :=
  if cs.isEmpty then none
  else cs.foldlM (fun n c ↦ do
    let d ← hexDigit? c
    if d < b then some (b * n + d) else none) 0

end Reachability.Text
