import Reachability.Text.Blank
import Reachability.Text.Decimal

/-!
# Timestamps of documents

A timestamp is read from a date, a time and an offset, with some freedom in white space and padding,
and is written in seconds of universal time. A leap second is kept as the sixtieth second of its
minute. Dates are those of the proleptic Gregorian calendar.

## Main definitions

* `Timestamp.parse?`, and the text of a timestamp.
* `daysOfDate`, `dateOfDays`: the calendar.
-/

namespace Reachability

/-- A second of universal time. -/
structure Timestamp where
  /-- Seconds since the first of January 1970, leap seconds not counted. -/
  seconds : Int
  /-- Whether the leap second that follows is meant. -/
  leap : Bool
deriving DecidableEq

/-! ## The calendar -/

/-- A day of the calendar. -/
structure Date where
  year : Int
  month : Nat
  day : Nat
deriving DecidableEq

/-- Whether February has 29 days. -/
def isLeapYear (year : Int) : Bool := year % 4 == 0 && (year % 100 != 0 || year % 400 == 0)

/-- The number of days in a month. -/
def daysInMonth (year : Int) (month : Nat) : Nat :=
  if month = 2 then if isLeapYear year then 29 else 28
  else if month = 4 ∨ month = 6 ∨ month = 9 ∨ month = 11 then 30
  else 31

/-- The number of days from the first of January 1970 to a date. Years are taken to begin in March,
so that the leap day comes last; 400 of them have 146097 days. -/
def daysOfDate (d : Date) : Int :=
  let year := if d.month ≤ 2 then d.year - 1 else d.year
  let era := year / 400
  let yearOfEra := year % 400
  let month : Int := (d.month + 9) % 12
  let dayOfYear := (153 * month + 2) / 5 + d.day - 1
  era * 146097 + (yearOfEra * 365 + yearOfEra / 4 - yearOfEra / 100 + dayOfYear) - 719468

/-- The date a number of days after the first of January 1970. -/
def dateOfDays (days : Int) : Date :=
  let shifted := days + 719468
  let era := shifted / 146097
  let dayOfEra := shifted % 146097
  let yearOfEra := (dayOfEra - dayOfEra / 1460 + dayOfEra / 36524 - dayOfEra / 146096) / 365
  let dayOfYear := dayOfEra - (365 * yearOfEra + yearOfEra / 4 - yearOfEra / 100)
  let month := (5 * dayOfYear + 2) / 153
  let day := dayOfYear - (153 * month + 2) / 5 + 1
  let civil := if month < 10 then month + 3 else month - 9
  ⟨yearOfEra + era * 400 + (if civil ≤ 2 then 1 else 0), civil.toNat, day.toNat⟩

/-! ## Texts -/

/-- A number in decimal, with zeros before it up to `width` digits. -/
def zeroPadded (width n : Nat) : String :=
  let digits := toString n
  "".pushn '0' (width - digits.length) ++ digits

/-- A year in four digits, with its sign if it takes more or lies before the year zero. -/
def yearText (year : Int) : String :=
  if 0 ≤ year ∧ year ≤ 9999 then zeroPadded 4 year.toNat
  else (if year < 0 then "-" else "+") ++ zeroPadded 4 year.natAbs

instance : ToString Timestamp where
  toString t :=
    let date := dateOfDays (t.seconds / 86400)
    let time := (t.seconds % 86400).toNat
    let second := time % 60 + (if t.leap then 1 else 0)
    s!"{yearText date.year}-{zeroPadded 2 date.month}-{zeroPadded 2 date.day}T{
      zeroPadded 2 (time / 3600)}:{zeroPadded 2 (time / 60 % 60)}:{zeroPadded 2 second}Z"

namespace Timestamp

/-! ## Reading -/

/-- Reads at most `width` digits, with white space before them. -/
def number (width : Nat) (cs : List Char) : Option (Nat × List Char) :=
  let cs := Text.trimStart cs
  let digits := (cs.take width).takeWhile Char.isDigit
  if digits.isEmpty then none else some (Text.decimalFrom 0 digits, cs.drop digits.length)

/-- Reads a year: any number of digits after a sign, and at most four without. -/
def year (cs : List Char) : Option (Int × List Char) :=
  let signed (rest : List Char) : Option (Nat × List Char) :=
    if rest.head?.any Char.isDigit then number rest.length rest else none
  match Text.trimStart cs with
  | '-' :: rest => (signed rest).map fun (n, rest) ↦ (-(n : Int), rest)
  | '+' :: rest => (signed rest).map fun (n, rest) ↦ ((n : Int), rest)
  | cs => (number 4 cs).map fun (n, rest) ↦ ((n : Int), rest)

/-- The rest after a separator, with white space before it. -/
def separator (c : Char) (cs : List Char) : Option (List Char) :=
  match Text.trimStart cs with
  | d :: rest => if c == d then some rest else none
  | [] => none

/-- Skips a fraction of a second, if there is one. -/
def skipFraction : List Char → Option (List Char)
  | '.' :: rest =>
    if rest.head?.any Char.isDigit then some (rest.dropWhile Char.isDigit) else none
  | cs => some cs

/-- Reads an offset of hours and minutes after its sign, in seconds. -/
def offsetSize : List Char → Option (Nat × List Char)
  | a :: b :: rest => do
    let hours ← Text.decimal? [a, b]
    match rest.dropWhile fun c ↦ c == ':' || Text.isBlank c with
    | c :: d :: rest =>
      let minutes ← Text.decimal? [c, d]
      if minutes < 60 then some (hours * 3600 + minutes * 60, rest) else none
    | _ => none
  | _ => none

/-- Reads an offset from universal time, in seconds. -/
def offset (cs : List Char) : Option (Int × List Char) :=
  if (cs.take 3).map Char.toUpper = ['U', 'T', 'C'] then some (0, cs.drop 3)
  else match cs with
    | c :: rest =>
      if c == 'Z' || c == 'z' then some (0, rest)
      else if c == '+' then (offsetSize rest).map fun (n, rest) ↦ ((n : Int), rest)
      else if c == '-' || c.toNat = 0x2212 then
        (offsetSize rest).map fun (n, rest) ↦ (-(n : Int), rest)
      else none
    | [] => none

/-- The first and the last year that can be represented. -/
def yearInRange (year : Int) : Bool := -262143 ≤ year && year ≤ 262142

/-- The timestamp of a date, a time of day and an offset, if they are in range. -/
def ofParts (date : Date) (hour minute second : Nat) (offset : Int) : Option Timestamp :=
  let local' := daysOfDate date * 86400 + hour * 3600 + minute * 60 + min second 59
  let seconds := local' - offset
  if yearInRange date.year && 1 ≤ date.month && date.month ≤ 12 && 1 ≤ date.day &&
      date.day ≤ daysInMonth date.year date.month && hour ≤ 23 && minute ≤ 59 && second ≤ 60 &&
      offset.natAbs < 86400 && yearInRange (dateOfDays (seconds / 86400)).year then
    some ⟨seconds, second == 60⟩
  else none

/-- Reads a timestamp. -/
def parse? (s : String) : Option Timestamp := do
  let (year, cs) ← year s.toList
  let (month, cs) ← number 2 (← separator '-' cs)
  let (day, cs) ← number 2 (← separator '-' cs)
  let cs ← match cs with
    | c :: rest => if c == 'T' || c == 't' || c == ' ' then some rest else none
    | [] => none
  let (hour, cs) ← number 2 cs
  let (minute, cs) ← number 2 (← separator ':' cs)
  let (second, cs) ← number 2 (← separator ':' cs)
  let (offset, cs) ← offset (Text.trimStart (← skipFraction cs))
  if (Text.trimStart cs).isEmpty then ofParts ⟨year, month, day⟩ hour minute second offset else none

end Timestamp

end Reachability
