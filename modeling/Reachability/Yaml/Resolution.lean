import Reachability.Binary64
import Reachability.Text.Decimal

/-!
# What plain scalars mean

A plain scalar is null, a Boolean, a number or text, depending on how it looks. The rules are those
of YAML 1.2 with two departures: a run of digits that begins with a zero is text, and an integer
that needs more than 64 bits but no more than 128 is refused.
-/

namespace Reachability.Yaml

/-- What a scalar may look like. -/
inductive Meaning where
  | null
  | bool (b : Bool)
  | int (n : Int)
  | real (x : Binary64)
  | text
  /-- An integer between 64 and 128 bits. -/
  | tooLarge
deriving DecidableEq

/-- Whether a scalar looks like null, which an empty one does too. -/
def isNullWord (cs : List Char) : Bool :=
  ["null", "Null", "NULL", "~"].any (·.toList == cs)

/-- The truth value that a scalar looks like. -/
def boolWord? (cs : List Char) : Option Bool :=
  if ["true", "True", "TRUE"].any (·.toList == cs) then some true
  else if ["false", "False", "FALSE"].any (·.toList == cs) then some false
  else none

/-- A numeral without its sign. -/
def unsignedPart : List Char → List Char
  | '-' :: cs | '+' :: cs => cs
  | cs => cs

/-- Whether a scalar is a run of digits that begins with a zero and goes on. -/
def isZeroPadded (cs : List Char) : Bool :=
  match unsignedPart cs with
  | '0' :: rest => !rest.isEmpty && rest.all Char.isDigit
  | _ => false

/-- The number that digits denote after a base marker, or in the absence of one as a decimal. -/
def magnitude? : List Char → Option Nat
  | '0' :: 'x' :: cs => Text.numeral? 16 cs
  | '0' :: 'o' :: cs => Text.numeral? 8 cs
  | '0' :: 'b' :: cs => Text.numeral? 2 cs
  | cs => if isZeroPadded cs then none else Text.decimal? cs

/-- The integer that a scalar looks like. -/
def integer? : List Char → Option Int
  | '-' :: cs => (magnitude? cs).map fun n ↦ -(n : Int)
  | '+' :: cs => (magnitude? cs).map Int.ofNat
  | cs => (magnitude? cs).map Int.ofNat

/-- The meaning of an integer by the number of bits it takes: below 64 bits, or one bit more without
a sign; below 128 bits likewise; or more. -/
def integerMeaning (n : Int) : Option Meaning :=
  if -Int.pow 2 63 ≤ n ∧ n < Int.pow 2 64 then some (.int n)
  else if -Int.pow 2 127 ≤ n ∧ n < Int.pow 2 128 then some .tooLarge
  else none

/-- The exponent of a numeral: zero if there is none, and nothing if it is ill formed. -/
def exponent? : List Char → Option Int
  | [] => some 0
  | e :: cs => if e == 'e' || e == 'E' then Text.signed? cs else none

/-- The digits and the power of ten of a decimal numeral with an optional fraction and exponent. -/
def decimalParts? (cs : List Char) : Option (List Char × Int) := do
  let (whole, rest) := cs.span Char.isDigit
  let (fraction, rest) := match rest with
    | '.' :: rest => rest.span Char.isDigit
    | rest => ([], rest)
  let e ← exponent? rest
  if whole.isEmpty && fraction.isEmpty then none
  else some (whole ++ fraction, e - fraction.length)

/-- The number that a numeral without a sign denotes, unless it is out of range. -/
def decimal? (negative : Bool) (cs : List Char) : Option Binary64 := do
  let (digits, e) ← decimalParts? cs
  let x := Binary64.ofDecimal negative (Text.decimalFrom 0 digits) e
  if x.isFinite then some x else none

/-- The floating-point number that a scalar looks like: infinite or undefined by name, or a finite
decimal. The undefined number has no sign. -/
def real? (cs : List Char) : Option Binary64 :=
  if [".nan", ".NaN", ".NAN"].any (·.toList == cs) then some .undefined
  else
    let negative := cs.head? == some '-'
    let digits := unsignedPart cs
    if [".inf", ".Inf", ".INF"].any (·.toList == digits) then some (.infinite negative)
    else decimal? negative digits

/-- The meaning of a plain scalar. -/
def meaning (cs : List Char) : Meaning :=
  if cs.isEmpty || isNullWord cs then .null
  else match boolWord? cs with
    | some b => .bool b
    | none =>
      match (integer? cs).bind integerMeaning with
      | some m => m
      | none => if isZeroPadded cs then .text else (real? cs).elim .text .real

end Reachability.Yaml
