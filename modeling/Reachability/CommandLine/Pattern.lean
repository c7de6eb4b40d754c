import Reachability.Text.Alphanumeric
import Reachability.Text.Blank
import Reachability.Text.Decimal

/-!
# Patterns

A log filter may ask that the value of a field match a pattern. Only the form of a pattern matters
here: `isPattern` says whether there is a machine that matches it.

A pattern is read from left to right, with the modes in force at each place. Letters between
parentheses behind a question mark change the modes, up to the end of the group. In the byte mode a
part of a pattern must not match a byte outside ASCII by itself, because matches are texts. In the
character mode nothing may depend on where words start and end, because the machine reads bytes and
could not tell the letters of all scripts on both sides of a place.

The text of a field ends at its first closing brace, so no part of a pattern has braces around it.

## Main definitions

* `PatternModes`: how a part of a pattern is read.
* `PatternReading`, `PatternReading.step`: what is known between two parts, and how a part is read.
* `isPattern`: whether a text is a pattern.
-/

namespace Reachability.CommandLine

/-! ## Modes -/

/-- How a part of a pattern is read. -/
structure PatternModes where
  /-- Whether characters are matched rather than bytes. -/
  characters : Bool
  /-- Whether blanks and comments between the parts are passed over. -/
  spaced : Bool

namespace PatternModes

/-- The modes at the start of a pattern. -/
def initial : PatternModes := ⟨true, false⟩

/-- The letters that name modes. -/
def letters : List Char := ['i', 'm', 's', 'u', 'U', 'R', 'x']

/-- A mode after the letters in front of a dash have been turned on and those behind it off. -/
def switched (mode : Bool) (letter : Char) (on off : List Char) : Bool :=
  if on.contains letter then true else if off.contains letter then false else mode

/-- The modes after a list of letters. No letter may stand there twice. One dash may stand among
them, but not at the end. -/
def change? (m : PatternModes) (cs : List Char) : Option PatternModes :=
  if decide cs.Nodup && cs.all ('-' :: letters).contains && cs.getLast? != some '-' then
    let on := cs.takeWhile (· != '-')
    let off := cs.dropWhile (· != '-')
    some ⟨switched m.characters 'u' on off, switched m.spaced 'x' on off⟩
  else none

end PatternModes

/-- Passes over blanks and over comments, which start with a number sign and end with their line. -/
def dropSpace : (inComment : Bool) → List Char → List Char
  | _, [] => []
  | true, c :: cs => dropSpace (c != '\n') cs
  | false, c :: cs =>
    if Text.isBlank c then dropSpace false cs
    else if c == '#' then dropSpace true cs
    else c :: cs

/-- Passes over what does not belong to a pattern in the given modes. -/
def PatternModes.skip (m : PatternModes) (cs : List Char) : List Char :=
  if m.spaced then dropSpace false cs else cs

/-! ## Escapes -/

/-- What a part of a pattern stands for. -/
inductive PatternPart where
  /-- A character by itself. -/
  | char (c : Char)
  /-- Any character of a class. -/
  | anyOf
  /-- A place between two characters. -/
  | place

/-- The letters that name general categories of characters. -/
def categoryLetters : List Char := ['c', 'l', 'm', 'n', 'p', 's', 'z']

/-- Reads a number of hexadecimal digits onto a value. -/
def hexDigits (m : PatternModes) : Nat → Nat → List Char → Option (Nat × List Char)
  | 0, value, cs => some (value, m.skip cs)
  | _ + 1, _, [] => none
  | n + 1, value, c :: cs => do
    let d ← Text.hexDigit? c
    hexDigits m n (16 * value + d) (if n = 0 then cs else m.skip cs)

/-- Reads a character by its number, which has the given count of digits. Two digits spell a byte
in the byte mode, which must then be an ASCII character. -/
def numberedChar (m : PatternModes) (count : Nat) (cs : List Char) :
    Option (PatternPart × List Char) := do
  let (value, rest) ← hexDigits m count 0 (m.skip cs)
  if count = 2 ∧ !m.characters ∧ 128 ≤ value then none
  else if value.isValidChar then some (.char (.ofNat value), rest)
  else none

/-- Reads a general category by its letter. -/
def category (m : PatternModes) (cs : List Char) : Option (PatternPart × List Char) :=
  match m.skip cs with
  | c :: rest =>
    if m.characters && categoryLetters.contains c.toLower then some (.anyOf, rest) else none
  | [] => none

/-- Reads an escape, behind its backslash. -/
def escape (m : PatternModes) : List Char → Option (PatternPart × List Char)
  | [] => none
  | c :: cs =>
    match c with
    | 'x' => numberedChar m 2 cs
    | 'u' => numberedChar m 4 cs
    | 'U' => numberedChar m 8 cs
    | 'p' | 'P' => category m cs
    | 'd' | 's' | 'w' => some (.anyOf, cs)
    | 'D' | 'S' | 'W' => if m.characters then some (.anyOf, cs) else none
    | 'b' | 'B' | '<' | '>' => if m.characters then none else some (.place, cs)
    | 'A' | 'z' => some (.place, cs)
    | 'a' => some (.char '\x07', cs)
    | 'f' => some (.char '\x0c', cs)
    | 't' => some (.char '\t', cs)
    | 'n' => some (.char '\n', cs)
    | 'r' => some (.char '\r', cs)
    | 'v' => some (.char '\x0b', cs)
    | _ => if c.toNat < 128 && !c.isAlphanum then some (.char c, cs) else none

/-! ## Classes in brackets -/

/-- Where the reader of a class in brackets is. At its start a dash and a closing bracket stand for
themselves. -/
inductive ClassPlace where
  /-- Behind the opening bracket. -/
  | opening
  /-- Behind the caret that excludes what follows. -/
  | caret
  /-- Behind dashes at the start. -/
  | dash
  | inside
deriving DecidableEq

/-- The names of the classes of ASCII characters. -/
def classNames : List String :=
  ["alnum", "alpha", "ascii", "blank", "cntrl", "digit", "graph", "lower", "print", "punct",
    "space", "upper", "word", "xdigit"]

/-- Reads the name of a class between colons, behind its opening bracket. The first component says
whether the class is excluded. -/
def namedClass? : List Char → Option (Bool × List Char)
  | ':' :: cs =>
    let name := if cs.head? == some '^' then cs.drop 1 else cs
    match name.dropWhile (· != ':') with
    | ':' :: ']' :: rest =>
      if classNames.contains (String.ofList (name.takeWhile (· != ':')))
      then some (cs.head? == some '^', rest) else none
    | _ => none
  | _ => none

/-- Whether a part may stand in a class. -/
def PatternPart.isMember (m : PatternModes) : PatternPart → Bool
  | char c => m.characters || c.toNat < 128
  | anyOf => true
  | place => false

/-- Reads a character or an escape. -/
def classPart (m : PatternModes) : List Char → Option (PatternPart × List Char)
  | '\\' :: cs => escape m cs
  | c :: cs => some (.char c, cs)
  | [] => none

/-- Reads a member of a class or a range of characters. A dash in front of another one or of the
closing bracket makes no range. -/
def classMember (m : PatternModes) (cs : List Char) : Option (List Char) := do
  let (first, rest) ← classPart m cs
  if first.isMember m then
    match m.skip rest with
    | '-' :: behind =>
      match m.skip behind with
      | '-' :: _ | ']' :: _ => some (m.skip rest)
      | behind => do
        match first, ← classPart m behind with
        | .char low, (.char high, rest) =>
          if low ≤ high ∧ (PatternPart.char high).isMember m then some rest else none
        | _, _ => none
    | rest => some rest
  else none

/-- Reads a class to its end. The fuel bounds the number of its parts, and the depth is the number
of classes around it. -/
def classEnd (m : PatternModes) : Nat → Nat → ClassPlace → List Char → Option (List Char)
  | 0, _, _, _ => none
  | fuel + 1, depth, place, cs =>
    let atStart := place = .opening ∨ place = .caret
    match m.skip cs with
    | [] => none
    | '^' :: rest =>
      if place = .opening then
        if m.characters then classEnd m fuel depth .caret rest else none
      else (classMember m ('^' :: rest)).bind (classEnd m fuel depth .inside)
    | ']' :: rest =>
      if atStart then classEnd m fuel depth .inside rest
      else match depth with
        | 0 => some rest
        | depth + 1 => classEnd m fuel depth .inside rest
    | '[' :: rest =>
      match namedClass? rest with
      | some (excluded, rest) =>
        if excluded && !m.characters then none else classEnd m fuel depth .inside rest
      | none => classEnd m fuel (depth + 1) .opening rest
    | '-' :: rest =>
      if place ≠ .inside then classEnd m fuel depth .dash rest
      else match rest with
        | '-' :: rest => classEnd m fuel depth .inside rest
        | _ => (classMember m ('-' :: rest)).bind (classEnd m fuel depth .inside)
    | '&' :: '&' :: rest | '~' :: '~' :: rest => classEnd m fuel depth .inside rest
    | part => (classMember m part).bind (classEnd m fuel depth .inside)

/-! ## Groups -/

/-- What is known between two parts of a pattern. -/
structure PatternReading where
  modes : PatternModes
  /-- The modes around each open group, the innermost group first. -/
  outer : List PatternModes
  /-- The names of groups. -/
  names : List String
  /-- Whether there is something that can be repeated. -/
  repeatable : Bool

namespace PatternReading

/-- Nothing has been read. -/
def start : PatternReading := ⟨.initial, [], [], false⟩

/-- After something that can be repeated. -/
def behindPart (r : PatternReading) : PatternReading := { r with repeatable := true }

/-- In a new group with the given modes. -/
def inGroup (r : PatternReading) (m : PatternModes) : PatternReading :=
  { r with modes := m, outer := r.modes :: r.outer, repeatable := false }

/-- Whether a text may name a group. -/
def isGroupName : List Char → Bool
  | [] => false
  | c :: cs =>
    (c == '_' || (Text.isAlphanumeric c && !c.isDigit)) &&
      cs.all fun c ↦ Text.isAlphanumeric c || ['_', '.', '[', ']'].contains c

/-- Reads the name of a group up to its closing angle. No two groups have the same name. -/
def namedGroup (r : PatternReading) (cs : List Char) : Option (PatternReading × List Char) :=
  let name := cs.takeWhile (· != '>')
  match cs.dropWhile (· != '>') with
  | _ :: rest =>
    if isGroupName name && !r.names.contains (String.ofList name) then
      some ({ r.inGroup r.modes with names := String.ofList name :: r.names }, rest)
    else none
  | [] => none

/-- Reads the letters of modes. A colon opens a group that has them, and a closing parenthesis
changes the modes around it. -/
def modesGroup (r : PatternReading) (cs : List Char) : Option (PatternReading × List Char) := do
  let letters := cs.takeWhile fun c ↦ c != ':' && c != ')'
  match cs.dropWhile fun c ↦ c != ':' && c != ')' with
  | ':' :: rest => return (r.inGroup (← r.modes.change? letters), rest)
  | _ :: rest =>
    if letters.isEmpty then none
    else return ({ r with modes := ← r.modes.change? letters, repeatable := false }, rest)
  | [] => none

/-- Reads the start of a group, behind its opening parenthesis. A pattern cannot ask for what stands
in front of a match or behind it. -/
def group (r : PatternReading) (cs : List Char) : Option (PatternReading × List Char) :=
  match r.modes.skip cs with
  | '?' :: '=' :: _ | '?' :: '!' :: _ | '?' :: '<' :: '=' :: _ | '?' :: '<' :: '!' :: _ => none
  | '?' :: 'P' :: '<' :: rest | '?' :: '<' :: rest => r.namedGroup rest
  | '?' :: rest => r.modesGroup rest
  | rest => some (r.inGroup r.modes, rest)

/-! ## Patterns -/

/-- Reads the part of a pattern that starts with the given character. -/
def step (r : PatternReading) (c : Char) (cs : List Char) : Option (PatternReading × List Char) :=
  match c with
  | '(' => r.group cs
  | ')' => do
    let m ← r.outer.head?
    return ({ r with modes := m, outer := r.outer.tail, repeatable := true }, cs)
  | '|' => some ({ r with repeatable := false }, cs)
  | '[' => (classEnd r.modes (cs.length + 1) 0 .opening cs).map (r.behindPart, ·)
  | '?' | '*' | '+' =>
    if r.repeatable then some (r, if cs.head? == some '?' then cs.drop 1 else cs) else none
  | '\x7b' => none
  | '.' => if r.modes.characters then some (r.behindPart, cs) else none
  | '\\' => (escape r.modes cs).map fun (_, rest) ↦ (r.behindPart, rest)
  | _ => some (r.behindPart, cs)

/-- Whether the rest of a text completes a pattern. The fuel bounds the number of its parts. -/
def completes : Nat → PatternReading → List Char → Bool
  | 0, _, _ => false
  | fuel + 1, r, cs =>
    match r.modes.skip cs with
    | [] => r.outer.isEmpty
    | c :: cs => (r.step c cs).any fun (r, rest) ↦ r.completes fuel rest

end PatternReading

/-- Whether a text is a pattern. -/
def isPattern (cs : List Char) : Bool := PatternReading.start.completes (cs.length + 1) cs

end Reachability.CommandLine
