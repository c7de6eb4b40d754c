import Reachability.Text.Decimal
import Reachability.Tree

/-!
# Numbers of a JSON text

A numeral without fraction and exponent is an integer if it fits in 64 bits, with a sign or without;
a negative zero is not an integer. Every other numeral is a floating-point number. Its first digits
make up a significand of 64 bits, and the digits that do not fit any more only count for their
place. The significand is then scaled by a power of ten, with a rounding before that and another one
after it, so the result is not always the number nearest to the numeral.

## Main definitions

* `Numeral`, `Numeral.toTree`: the parts of a numeral, and the node that it denotes.
-/

namespace Reachability.Json

/-- The parts of a numeral. -/
structure Numeral where
  negative : Bool
  /-- The digits before the point. -/
  whole : List Char
  /-- The digits after the point, or nothing if there is no point. -/
  fraction : Option (List Char)
  exponent : Option Int

/-- Adds digits at the end of a number as long as it fits in 64 bits. Gives the number, and the
digits that are left over from the first one that does not fit. -/
def fill (n : Nat) : List Char → Nat × List Char
  | [] => (n, [])
  | c :: rest =>
    let m := Text.decimalFrom n [c]
    if m < UInt64.size then fill m rest else (n, c :: rest)

/-- The greatest number of places by which a magnitude is scaled at once. -/
def greatestScale : Nat := 308

/-- A magnitude times a power of ten. Far negative powers take several steps. -/
def scale? (m : Magnitude) (e : Int) : Option Magnitude :=
  if m.isZero then some m
  else if 0 ≤ e then
    if e ≤ greatestScale then do m.times? (← Magnitude.tenPower? e.toNat) else none
  else if -greatestScale ≤ e then do m.over? (← Magnitude.tenPower? (-e).toNat)
  else do scale? (← m.over? (← Magnitude.tenPower? greatestScale)) (e + greatestScale)
termination_by (-e).toNat
decreasing_by simp only [greatestScale] at *; omega

namespace Numeral

/-- The significand of the numeral and the power of ten by which it is scaled. -/
def parts (n : Numeral) : Nat × Int :=
  let (significand, dropped) := fill 0 n.whole
  let fraction := n.fraction.getD []
  let (significand, unread) := fill significand fraction
  let places := (fraction.length : Int) - unread.length
  (significand, dropped.length - places + n.exponent.getD 0)

/-- The magnitude of the numeral, if it is in range. -/
def magnitude? (n : Numeral) : Option Magnitude := do
  let (significand, e) := n.parts
  scale? (← Magnitude.ofRatio? significand 1) e

/-- The integer that the numeral denotes, if it denotes one. -/
def integer? (n : Numeral) : Option Int :=
  let m := Text.decimalFrom 0 n.whole
  if n.fraction.isSome || n.exponent.isSome then none
  else if n.negative then if 0 < m ∧ m ≤ UInt64.size / 2 then some (-m) else none
  else if m < UInt64.size then some m else none

/-- The node of the numeral. -/
def toTree (n : Numeral) : Tree :=
  match n.integer? with
  | some i => .int i
  | none => n.magnitude?.elim .unreadable fun m ↦ .real (.finite n.negative m)

end Numeral

end Reachability.Json
