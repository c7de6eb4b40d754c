/-!
# Floating-point numbers

Binary floating-point numbers of 64 bits, in exact arithmetic: a magnitude is a natural number of at
most 53 bits times a power of two, and the result of an operation is the magnitude nearest to the
exact one, where of two that are equally near the one with the even significand is taken.

## Main definitions

* `Magnitude.ofRatio?`: the magnitude nearest to a fraction, if it is in range.
* `Binary64`, `Binary64.ofDecimal`: the numbers, and the one nearest to a decimal.
* `Binary64.same`: whether two numbers are the same key.
-/

namespace Reachability

/-- The quotient of `n` and `d`, rounded to the nearest number and a half to the even one. -/
def roundHalfEven (n d : Nat) : Nat :=
  let q := n / d
  let twice := 2 * (n % d)
  if twice < d then q else if d < twice then q + 1 else q + q % 2

/-- The value `significand * 2 ^ exponent`. The significand has 53 bits, or fewer if the exponent is
the least one. -/
structure Magnitude where
  significand : Nat
  exponent : Int
deriving DecidableEq, Repr

namespace Magnitude

/-- The least exponent of a magnitude. -/
def leastExponent : Int := -1074

/-- The greatest exponent of a magnitude. -/
def greatestExponent : Int := 971

/-- Nothing. -/
def zero : Magnitude := ⟨0, leastExponent⟩

/-- Whether the magnitude is zero. -/
def isZero (m : Magnitude) : Bool := m.significand == 0

/-- The numerator of the value over a power of two. -/
def numerator (m : Magnitude) : Nat := m.significand * Nat.pow 2 m.exponent.toNat

/-- The power of two over which the numerator stands. -/
def denominator (m : Magnitude) : Nat := Nat.pow 2 (-m.exponent).toNat

/-- The fraction `n / d` counted in units of `2 ^ e`, as a numerator and a denominator. -/
def inUnits (n d : Nat) (e : Int) : Nat × Nat :=
  (n * Nat.pow 2 (-e).toNat, d * Nat.pow 2 e.toNat)

/-- The exponent at which a positive fraction has 53 bits before the point, or the least one. The
bits of numerator and denominator tell it up to one. -/
def exponentOf (n d : Nat) : Int :=
  let e := (n.log2 : Int) - d.log2 - 53
  let (p, q) := inUnits n d e
  max leastExponent (if p / q < Nat.pow 2 53 then e else e + 1)

/-- The magnitude nearest to the fraction `n / d`, unless it is beyond the greatest one. -/
def ofRatio? (n d : Nat) : Option Magnitude :=
  if n = 0 then some zero
  else
    let e := exponentOf n d
    let (p, q) := inUnits n d e
    let s := roundHalfEven p q
    let m : Magnitude := if s = Nat.pow 2 53 then ⟨Nat.pow 2 52, e + 1⟩ else ⟨s, e⟩
    if m.exponent ≤ greatestExponent then some m else none

/-- The product of two magnitudes. -/
def times? (a b : Magnitude) : Option Magnitude :=
  ofRatio? (a.numerator * b.numerator) (a.denominator * b.denominator)

/-- The quotient of two magnitudes, of which the second is not zero. -/
def over? (a b : Magnitude) : Option Magnitude :=
  ofRatio? (a.numerator * b.denominator) (a.denominator * b.numerator)

/-- The magnitude nearest to a power of ten. -/
def tenPower? (n : Nat) : Option Magnitude := ofRatio? (Nat.pow 10 n) 1

/-- The magnitude nearest to `n * 10 ^ e`. Where the number of digits shows that the value is far
beyond the greatest magnitude or below the least, the power is not computed. -/
def ofDecimal? (n : Nat) (e : Int) : Option Magnitude :=
  let size := (Nat.toDigits 10 n).length + e
  if n = 0 || size < -400 then some zero
  else if 400 < size then none
  else ofRatio? (n * Nat.pow 10 e.toNat) (Nat.pow 10 (-e).toNat)

end Magnitude

/-- A floating-point number of 64 bits. -/
inductive Binary64 where
  | finite (negative : Bool) (magnitude : Magnitude)
  | infinite (negative : Bool)
  | undefined
deriving DecidableEq, Repr

namespace Binary64

/-- The number nearest to `n * 10 ^ e` with a sign. -/
def ofDecimal (negative : Bool) (n : Nat) (e : Int) : Binary64 :=
  (Magnitude.ofDecimal? n e).elim (infinite negative) (finite negative)

/-- Whether the number is finite. -/
def isFinite : Binary64 → Bool
  | finite .. => true
  | _ => false

/-- Whether two numbers are the same key: the zeros are, whatever their signs, and so is the
undefined number and itself. -/
def same : Binary64 → Binary64 → Bool
  | finite s a, finite t b => a == b && (s == t || a.isZero)
  | a, b => a == b

end Binary64

end Reachability
