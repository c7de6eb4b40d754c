import Reachability.CommandLine.Pattern
import Reachability.Text.Alphanumeric
import Reachability.Text.Blank
import Reachability.Text.Decimal

/-!
# Values on the command line

Readers of the values that belong to the command line alone: numbers, lists of names, time limits
and log filters. A reader gives nothing for a text that it refuses.

A time limit is a list of amounts, each of them a decimal with a unit. Signs in front of the list do
not matter, and the last amount may be a zero without a unit.

A log filter is a list of directives with commas between them. A directive is a level for
everything, or it names a target, or a span in brackets, or both, and may set a level for what it
names. The level is read strictly: a directive that sets one has no blanks around it. A span may
have a field in braces, with a number or a pattern for its value.
-/

namespace Reachability.CommandLine

/-! ## Numbers and names -/

/-- Reads a port number, which may carry a sign. -/
def port? (s : String) : Option UInt16 := do
  let n ← Text.signed? s.toList
  if 0 ≤ n ∧ n < 65536 then some n.toNat.toUInt16 else none

/-- Reads a count of 64 bits, which may carry a plus sign. -/
def count? (s : String) : Option UInt64 := do
  let n ← Text.unsigned? s.toList
  if n < UInt64.size then some n.toUInt64 else none

/-- Reads a truth value. -/
def bool? (s : String) : Option Bool :=
  if s = "true" then some true else if s = "false" then some false else none

/-- The parts of a text between commas. -/
def commaParts (s : String) : List String := s.splitOn ","

/-- Reads names with commas between them. Blanks around a name do not matter, empty names are passed
over, and there must be a name left. -/
def names? (s : String) : Option (List String) :=
  let names := ((commaParts s).map Text.trimmed).filter (!·.isEmpty)
  if names.isEmpty then none else some names

/-! ## Time limits -/

/-- The units of time. Microseconds may be written with the micro sign or the Greek letter. -/
def timeUnits : List String := ["ns", "us", "\u00b5s", "\u03bcs", "ms", "s", "m", "h"]

/-- Whether a character ends a decimal and may belong to a unit. -/
def isUnitLetter (c : Char) : Bool := c.isAlpha || c == '\u00b5' || c == '\u03bc'

/-- Whether a text is a decimal without a sign: digits, with a point before, between or after. -/
def isDecimal (cs : List Char) : Bool :=
  let whole := cs.takeWhile Char.isDigit
  match cs.dropWhile Char.isDigit with
  | [] => !whole.isEmpty
  | '.' :: fraction => fraction.all Char.isDigit && !(whole.isEmpty && fraction.isEmpty)
  | _ => false

/-- Whether a text is an amount of time without its unit. It may have a sign, but be less than zero
it may not. -/
def isAmount : List Char → Bool
  | '+' :: cs => isDecimal cs
  | '-' :: cs => isDecimal cs && cs.all fun c ↦ c == '0' || c == '.'
  | cs => isDecimal cs

/-- Whether a text is a list of amounts of time with their units. The fuel bounds their number. -/
def areAmounts : Nat → List Char → Bool
  | 0, cs => cs.isEmpty
  | fuel + 1, cs =>
    cs.isEmpty || cs == ['0'] ||
      let rest := cs.dropWhile (!isUnitLetter ·)
      isAmount (cs.takeWhile (!isUnitLetter ·)) &&
        timeUnits.contains (String.ofList (rest.takeWhile isUnitLetter)) &&
        areAmounts fuel (rest.dropWhile isUnitLetter)

/-- Whether a text is a time limit. -/
def isTimeLimit (s : String) : Bool :=
  areAmounts s.length ((s.toList.dropWhile (· == '+')).dropWhile (· == '-'))

/-! ## Logging -/

/-- Whether a text names a log format. -/
def isLogFormat (s : String) : Bool := s == "plain" || s == "json"

/-- The names of log levels. -/
def levelNames : List String := ["off", "error", "warn", "info", "debug", "trace"]

/-- Whether a text is a level, by name in any mixture of ASCII cases or by number. -/
def isLevel (cs : List Char) : Bool :=
  (Text.unsigned? cs).any (· < levelNames.length) ||
    levelNames.contains (String.ofList (cs.map Char.toLower))

/-- Whether what follows a target or a span is nothing, or sets a level. Only a strict directive may
set one. -/
def isLevelPart (strict : Bool) : List Char → Bool
  | [] => true
  | '=' :: level => strict && (level.isEmpty || isLevel level)
  | _ => false

/-- Whether a text is a number behind a plus sign, with or without an exponent. Without the sign it
would be a pattern as well. -/
def isPlusNumber : List Char → Bool
  | '+' :: cs =>
    let isMark (c : Char) : Bool := c == 'e' || c == 'E'
    let exponent := cs.dropWhile (!isMark ·)
    ["inf", "infinity", "nan"].contains (String.ofList (cs.map Char.toLower)) ||
      isDecimal (cs.takeWhile (!isMark ·)) &&
        (exponent.isEmpty || (Text.signed? (exponent.drop 1)).isSome)
  | _ => false

/-- Whether a text is a field: a name that may stand alone or have a value. Behind a second equals
sign nothing matters. -/
def isField (cs : List Char) : Bool :=
  let value := ((cs.dropWhile (· != '=')).drop 1).takeWhile (· != '=')
  !cs.isEmpty && (isPlusNumber value || isPattern value)

/-- Whether `cs`, the rest of the given directive behind an opening bracket, is a span, with a field
in braces or without, and perhaps a level. The place of the field is counted without the blanks in
front of the directive, but what stands there is looked up with them. -/
def isSpanPart (directive cs : List Char) : Bool :=
  let strict := Text.trim directive == directive
  match cs.dropWhile fun c ↦ c != ']' && c != '\x7b' with
  | ']' :: rest => isLevelPart strict rest
  | '\x7b' :: field =>
    let start := (Text.trim directive).length - field.length
    let size := (field.takeWhile (· != '\x7d')).length
    match field.drop size with
    | '\x7d' :: ']' :: rest =>
      isField ((directive.drop start).take size) && isLevelPart strict rest
    | _ => false
  | _ => false

/-- Whether a target may start with a character. -/
def startsTarget (c : Char) : Bool := Text.isAlphanumeric c || ['-', ':', '_'].contains c

/-- Whether a text is a directive. -/
def isDirective (s : String) : Bool :=
  let directive := s.toList
  match Text.trim directive with
  | '[' :: span => isSpanPart directive span
  | c :: rest =>
    startsTarget c &&
      match rest.dropWhile fun c ↦ c != '[' && c != '=' with
      | '[' :: span => isSpanPart directive span
      | rest => isLevelPart (Text.trim directive == directive) rest
  | [] => false

/-- Whether a text is a log filter. Empty directives are passed over. -/
def isLogFilter (s : String) : Bool := ((commaParts s).filter (!·.isEmpty)).all isDirective

end Reachability.CommandLine
