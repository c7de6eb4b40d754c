import Reachability.Binary64

/-!
# Texts of floating-point numbers

A finite number is written in the fewest significant digits that are nearer to it than to any
other number; of several such decimals the nearest one is taken. Up to sixteen digits before the
point, and up to five places after it before the first digit, stand in positional notation with at
least one digit on either side of the point. Beyond that the digits are followed by an exponent.
-/

namespace Reachability.Text

/-! ## Choosing the digits -/

/-- The value `digits * 10 ^ exponent`. -/
structure Decimal where
  digits : Nat
  exponent : Int
deriving DecidableEq, Repr

/-- A magnitude among its neighbours, in quarters of its last bit. Decimals between `low` and `high`
read back as it, and those at the ends do if it is `even`. -/
structure Interval where
  low : Nat
  value : Nat
  high : Nat
  /-- The exponent of two of a quarter. -/
  exponent : Int
  even : Bool

/-- The interval of a magnitude. The neighbour below a power of two is nearer than the one above. -/
def Interval.ofMagnitude (m : Magnitude) : Interval :=
  let v := 4 * m.significand
  let below := if m.significand = Nat.pow 2 52 ∧ Magnitude.leastExponent < m.exponent then 1 else 2
  ⟨v - below, v, v + 2, m.exponent - 2, m.significand % 2 = 0⟩

/-- The decimals next to a magnitude that are multiples of `10 ^ k`: of those that read back as it
the nearest one. -/
def Interval.nearest? (i : Interval) (k : Int) : Option Nat :=
  let unit := Nat.pow 10 k.toNat * Nat.pow 2 (-i.exponent).toNat
  let quarter := Nat.pow 2 i.exponent.toNat * Nat.pow 10 (-k).toNat
  let inside (c : Nat) : Bool :=
    if i.even then i.low * quarter ≤ c * unit && c * unit ≤ i.high * quarter
    else i.low * quarter < c * unit && c * unit < i.high * quarter
  let below := i.value * quarter / unit
  let gap := 2 * (i.value * quarter % unit)
  let belowFirst := gap < unit || gap == unit && below % 2 == 0
  (if belowFirst then [below, below + 1] else [below + 1, below]).find? inside

/-- The power of ten of the first digit of a positive fraction. -/
def leadingPower (n d : Nat) : Int :=
  if d ≤ n then (Nat.toDigits 10 (n / d)).length - 1
  else -((Nat.toDigits 10 ((d - 1) / n)).length : Int)

/-- The shortest decimal that reads back as a positive magnitude. Seventeen digits always do. -/
def shortest (m : Magnitude) : Decimal :=
  let i := Interval.ofMagnitude m
  let power := leadingPower m.numerator m.denominator
  let found := (List.range 17).findSome? fun (n : Nat) ↦
    (i.nearest? (power - n)).map fun digits ↦ (⟨digits, power - n⟩ : Decimal)
  found.getD ⟨0, 0⟩

/-! ## Laying them out -/

/-- The digits of a decimal that is not zero, without zeros at the end, and how many of them stand
before the point. -/
def Decimal.layout (d : Decimal) : List Char × Int :=
  let all := Nat.toDigits 10 d.digits
  ((all.reverse.dropWhile (· == '0')).reverse, all.length + d.exponent)

/-- The text of digits of which so many stand before the point. -/
def writeDigits (digits : List Char) (point : Int) : List Char :=
  let zeros (n : Int) : List Char := List.replicate n.toNat '0'
  if 0 < point ∧ point ≤ 16 then
    let fraction := digits.drop point.toNat
    digits.take point.toNat ++ zeros (point - digits.length) ++
      '.' :: (if fraction.isEmpty then ['0'] else fraction)
  else if -5 < point ∧ point ≤ 0 then '0' :: '.' :: zeros (-point) ++ digits
  else
    let exponent := (toString (point - 1)).toList
    match digits with
    | [digit] => digit :: 'e' :: exponent
    | digit :: rest => digit :: '.' :: rest ++ 'e' :: exponent
    | [] => []

/-- The text of a magnitude. -/
def writeMagnitude (m : Magnitude) : List Char :=
  if m.isZero then ['0', '.', '0']
  else
    let (digits, point) := (shortest m).layout
    writeDigits digits point

/-- The text of a finite number. -/
def writeFinite (negative : Bool) (m : Magnitude) : List Char :=
  if negative then '-' :: writeMagnitude m else writeMagnitude m

end Reachability.Text
