import Reachability.Json.Numeral

/-!
# Reading JSON

A recursive descent over the characters of the text. The fuel bounds the number of nested calls; as
every call consumes a character, the length of the text is enough.

A value that nobody asks for may be ill formed. So what is grammatical but cannot be read becomes an
unreadable node: a text that is no Unicode text, because an escape leaves half of a surrogate pair,
a number that is out of range, and a collection that is nested too deeply.
-/

namespace Reachability.Json

/-- Whether `c` is white space between tokens. -/
def isBlank (c : Char) : Bool := c == ' ' || c == '\n' || c == '\t' || c == '\r'

/-- The text without white space at the start. -/
def skipBlank (cs : List Char) : List Char := cs.dropWhile isBlank

/-! ## Texts -/

/-- The number that four hexadecimal digits denote. -/
def hex4? (a b c d : Char) : Option Nat := Text.numeral? 16 [a, b, c, d]

/-- The character that a backslash makes of `c`. -/
def unescape? : Char → Option Char
  | '"' => some '"'
  | '\\' => some '\\'
  | '/' => some '/'
  | 'b' => some '\x08'
  | 'f' => some '\x0c'
  | 'n' => some '\n'
  | 'r' => some '\r'
  | 't' => some '\t'
  | _ => none

/-- Reads the rest of a text after the opening quote, as code points and halves of pairs. -/
def readCodes : List Char → Option (List Nat × List Char)
  | [] => none
  | '"' :: rest => some ([], rest)
  | '\\' :: 'u' :: a :: b :: c :: d :: rest => do
    let code ← hex4? a b c d
    let (codes, rest) ← readCodes rest
    return (code :: codes, rest)
  | '\\' :: e :: rest => do
    let c ← unescape? e
    let (codes, rest) ← readCodes rest
    return (c.toNat :: codes, rest)
  | c :: rest =>
    if c == '\\' || c.toNat < 0x20 then none
    else do
      let (codes, rest) ← readCodes rest
      return (c.toNat :: codes, rest)

/-- Whether `code` is the first half of a surrogate pair. -/
def isHigh (code : Nat) : Bool := 0xD800 ≤ code && code < 0xDC00

/-- Whether `code` is the second half of a surrogate pair. -/
def isLow (code : Nat) : Bool := 0xDC00 ≤ code && code < 0xE000

/-- The characters of code points and halves of pairs, if the halves make up pairs. -/
def joinPairs : List Nat → Option (List Char)
  | [] => some []
  | high :: low :: rest =>
    if isHigh high then
      if isLow low then do
        let c := Char.ofNat (0x10000 + (high - 0xD800) * 0x400 + (low - 0xDC00))
        return c :: (← joinPairs rest)
      else none
    else if isLow high then none
    else do return Char.ofNat high :: (← joinPairs (low :: rest))
  | [code] => if isHigh code || isLow code then none else some [Char.ofNat code]

/-- Reads a text after its opening quote. The inner option is empty for an ill-formed text. -/
def readText (cs : List Char) : Option (Option String × List Char) := do
  let (codes, rest) ← readCodes cs
  return ((joinPairs codes).map String.ofList, rest)

/-! ## Numbers -/

/-- Reads a nonempty run of digits. -/
def readDigits (cs : List Char) : Option (List Char × List Char) :=
  match cs.span Char.isDigit with
  | ([], _) => none
  | run => some run

/-- Reads the digits before a fraction: a zero alone, or digits that do not begin with zero. -/
def readWhole : List Char → Option (List Char × List Char)
  | '0' :: rest =>
    match rest with
    | c :: _ => if c.isDigit then none else some (['0'], rest)
    | [] => some (['0'], [])
  | cs => readDigits cs

/-- Reads the digits of a fraction, if there is one. -/
def readFraction : List Char → Option (Option (List Char) × List Char)
  | '.' :: rest => do
    let (digits, rest) ← readDigits rest
    return (some digits, rest)
  | cs => some (none, cs)

/-- Reads an exponent, if there is one. -/
def readExponent : List Char → Option (Option Int × List Char)
  | e :: rest =>
    if e == 'e' || e == 'E' then do
      let (negative, rest) := match rest with
        | '+' :: rest => (false, rest)
        | '-' :: rest => (true, rest)
        | rest => (false, rest)
      let (digits, rest) ← readDigits rest
      let n := Text.decimalFrom 0 digits
      return (some (if negative then -n else n), rest)
    else some (none, e :: rest)
  | [] => some (none, [])

/-- Reads a number. -/
def readNumber (cs : List Char) : Option (Tree × List Char) := do
  let (negative, cs) := match cs with
    | '-' :: rest => (true, rest)
    | cs => (false, cs)
  let (whole, cs) ← readWhole cs
  let (fraction, cs) ← readFraction cs
  let (exponent, cs) ← readExponent cs
  return (Numeral.toTree ⟨negative, whole, fraction, exponent⟩, cs)

/-! ## Values -/

/-- The rest of `cs` after the characters of `word`. -/
def readWord (word cs : List Char) : Option (List Char) :=
  if word.isPrefixOf cs then some (cs.drop word.length) else none

mutual

/-- Reads a value, with white space before it. -/
def readValue : Nat → List Char → Option (Tree × List Char)
  | 0, _ => none
  | fuel + 1, cs =>
    match skipBlank cs with
    | '"' :: rest => do
      let (text, rest) ← readText rest
      return (text.elim .unreadable .text, rest)
    | '[' :: rest =>
      match skipBlank rest with
      | ']' :: rest => some (.list [], rest)
      | rest => do
        let (items, rest) ← readItems fuel rest
        return (.list items, rest)
    | '{' :: rest =>
      match skipBlank rest with
      | '}' :: rest => some (.record [], rest)
      | rest => do
        let (fields, rest) ← readFields fuel rest
        return (fields.elim .unreadable .record, rest)
    | 'n' :: rest => do return (.null, ← readWord ['u', 'l', 'l'] rest)
    | 't' :: rest => do return (.bool true, ← readWord ['r', 'u', 'e'] rest)
    | 'f' :: rest => do return (.bool false, ← readWord ['a', 'l', 's', 'e'] rest)
    | rest => readNumber rest

/-- Reads the items of a nonempty list, up to and including its bracket. -/
def readItems : Nat → List Char → Option (List Tree × List Char)
  | 0, _ => none
  | fuel + 1, cs => do
    let (item, rest) ← readValue fuel cs
    match skipBlank rest with
    | ',' :: rest => do
      let (items, rest) ← readItems fuel rest
      return (item :: items, rest)
    | ']' :: rest => some ([item], rest)
    | _ => none

/-- Reads the fields of a nonempty record, up to and including its brace. The inner option is empty
if some name is ill formed. -/
def readFields : Nat → List Char → Option (Option (List (String × Tree)) × List Char)
  | 0, _ => none
  | fuel + 1, cs =>
    match skipBlank cs with
    | '"' :: rest => do
      let (name, rest) ← readText rest
      match skipBlank rest with
      | ':' :: rest => do
        let (value, rest) ← readValue fuel rest
        match skipBlank rest with
        | ',' :: rest => do
          let (fields, rest) ← readFields fuel rest
          return (do return (← name, value) :: (← fields), rest)
        | '}' :: rest => some (name.map fun name ↦ [(name, value)], rest)
        | _ => none
      | _ => none
    | _ => none

end

/-! ## Depth -/

mutual

/-- The tree in which collections that are inside `depth` others are unreadable. -/
def prune : (depth : Nat) → Tree → Tree
  | 0, .list _ | 0, .record _ => .unreadable
  | depth + 1, .list items => .list (pruneItems depth items)
  | depth + 1, .record fields => .record (pruneFields depth fields)
  | _, t => t

/-- Prunes the items of a list. -/
def pruneItems (depth : Nat) : List Tree → List Tree
  | [] => []
  | item :: rest => prune depth item :: pruneItems depth rest

/-- Prunes the values of a record. -/
def pruneFields (depth : Nat) : List (String × Tree) → List (String × Tree)
  | [] => []
  | (name, value) :: rest => (name, prune depth value) :: pruneFields depth rest

end

/-- How many collections can be read inside one another. -/
def depthLimit : Nat := 127

/-! ## Texts of one value -/

/-- Reads a text that holds one value and nothing else. -/
def read (s : String) : Option Tree := do
  let cs := s.toList
  let (value, rest) ← readValue (cs.length + 1) cs
  if (skipBlank rest).isEmpty then some (prune depthLimit value) else none

end Reachability.Json
