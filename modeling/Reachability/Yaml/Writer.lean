import Reachability.Text.Shortest
import Reachability.Tree
import Reachability.Yaml.Resolution

/-!
# Writing YAML

Trees are written in block style, two columns for each level, except that a list is not indented
under its key. Empty collections are written as brackets or braces.

A text is written plain where it is then read as the same text. Otherwise it goes in single quotes;
in double quotes with escapes if it holds characters that would not survive those; or as a literal
block if it has line feeds.
-/

namespace Reachability.Yaml

/-! ## Characters -/

/-- Whether `c` breaks a line. -/
def breaksLine (c : Char) : Bool :=
  c == '\n' || c == '\r' || c.toNat == 0x85 || c.toNat == 0x2028 || c.toNat == 0x2029

/-- Whether `c` can be written without an escape. -/
def isPrintable (c : Char) : Bool :=
  let n := c.toNat
  n == 0x0A || (0x20 ≤ n && n ≤ 0x7E) || (0xA0 ≤ n && n ≤ 0xFFFD && n != 0xFEFF) || 0x10000 ≤ n

/-- Whether `c` separates words. -/
def separates (c : Char) : Bool := c == ' ' || c == '\t' || breaksLine c

/-! ## The choice of style -/

/-- The ways of writing a text. -/
inductive Style where
  | plain
  | singleQuoted
  | doubleQuoted
  | literal
deriving DecidableEq, Repr

/-- The characters that may not begin a plain text. -/
def leadingIndicators : List Char :=
  ['#', ',', '[', ']', '\x7b', '\x7d', '&', '*', '!', '|', '>', '\'', '"', '%', '@', '\x60']

/-- The characters that may not begin a plain text if a blank or nothing follows. -/
def spacedIndicators : List Char := ['?', ':', '-']

/-- Whether some character after `before` in the text would end a plain text: a colon before a
blank or the end, or a number sign after a blank. -/
def interrupts (before : Char) : List Char → Bool
  | [] => false
  | c :: rest =>
    c == ':' && rest.head?.all separates || c == '#' && separates before || interrupts c rest

/-- Whether a plain text would be taken for something else because of an indicator. -/
def hasIndicators (cs : List Char) : Bool :=
  match cs with
  | [] => false
  | c :: rest =>
    ['-', '-', '-'].isPrefixOf cs || ['.', '.', '.'].isPrefixOf cs ||
      leadingIndicators.contains c ||
      spacedIndicators.contains c && rest.head?.all separates || interrupts c rest

/-- Whether two neighbouring characters satisfy `p` and `q`. -/
def hasPair (p q : Char → Bool) (cs : List Char) : Bool :=
  (cs.zip (cs.drop 1)).any fun (a, b) ↦ p a && q b

/-- Whether a space stands before a line break, where it would be lost, or a character needs an
escape. -/
def needsEscapes (cs : List Char) : Bool :=
  hasPair (· == ' ') breaksLine cs || !cs.all isPrintable

/-- Whether a text keeps its white space when it is written plain. -/
def keepsSpace (cs : List Char) : Bool :=
  cs.head?.all (· != ' ') && cs.getLast?.all (· != ' ') && !cs.any breaksLine

/-- Whether a text can be written plain. -/
def plainAllowed (cs : List Char) : Bool :=
  keepsSpace cs && !needsEscapes cs && !hasIndicators cs

/-- Whether a text can be written in single quotes. -/
def singleQuotedAllowed (cs : List Char) : Bool :=
  !hasPair breaksLine (· == ' ') cs && !needsEscapes cs

/-- Whether a text can be written as a literal block. -/
def literalAllowed (cs : List Char) : Bool :=
  cs.getLast?.all (· != ' ') && !needsEscapes cs

/-- Whether a text looks like something other than text when it is written plain. -/
def looksOther (cs : List Char) : Bool := meaning cs != .text || isZeroPadded cs

/-- The style in which a text is written. -/
def styleOf (cs : List Char) : Style :=
  if cs.contains '\n' then if literalAllowed cs then .literal else .doubleQuoted
  else if !looksOther cs && plainAllowed cs then .plain
  else if singleQuotedAllowed cs then .singleQuoted
  else .doubleQuoted

/-! ## Texts -/

/-- A number of spaces. -/
def spaces (n : Nat) : List Char := List.replicate n ' '

/-- A text in single quotes. A line after a break is indented. -/
def singleQuoted (indent : Nat) (cs : List Char) : List Char := '\'' :: go false cs
where
  /-- The rest of the text and the closing quote; `broken` tells whether a break came before. -/
  go (broken : Bool) : List Char → List Char
    | [] => (if broken then spaces indent else []) ++ ['\'']
    | c :: rest =>
      if breaksLine c then c :: go true rest
      else (if broken then spaces indent else []) ++ (if c == '\'' then ['\'', '\''] else [c]) ++
        go false rest

/-- The digits of `n` to the base 16 in upper case, in `width` places. -/
def upperHex (width n : Nat) : List Char :=
  let digits := (Nat.toDigits 16 n).map Char.toUpper
  List.replicate (width - digits.length) '0' ++ digits

/-- How a character is written after a backslash. -/
def escapeOf (c : Char) : List Char :=
  match c.toNat with
  | 0x00 => ['0']
  | 0x07 => ['a']
  | 0x08 => ['b']
  | 0x09 => ['t']
  | 0x0A => ['n']
  | 0x0B => ['v']
  | 0x0C => ['f']
  | 0x0D => ['r']
  | 0x1B => ['e']
  | 0x22 => ['"']
  | 0x5C => ['\\']
  | 0x85 => ['N']
  | 0x2028 => ['L']
  | 0x2029 => ['P']
  | n =>
    if n ≤ 0xFF then 'x' :: upperHex 2 n
    else if n ≤ 0xFFFF then 'u' :: upperHex 4 n
    else 'U' :: upperHex 8 n

/-- A text in double quotes. -/
def doubleQuoted (cs : List Char) : List Char :=
  '"' :: cs.flatMap (fun c ↦
    if !isPrintable c || breaksLine c || c == '"' || c == '\\' then '\\' :: escapeOf c else [c]) ++
    ['"']

/-- The indicators after the bar of a literal block: the number of columns if the text begins with
white space, and what becomes of the breaks at its end. -/
def literalHints (cs : List Char) : List Char :=
  let columns := if cs.head?.any fun c ↦ c == ' ' || breaksLine c then ['2'] else []
  let chomping := match cs.reverse with
    | [] => ['-']
    | [c] => if breaksLine c then ['+'] else ['-']
    | c :: d :: _ => if !breaksLine c then ['-'] else if breaksLine d then ['+'] else []
  columns ++ chomping

/-- The lines of a literal block, of which those that are not empty are indented. -/
def literalLines (indent : Nat) (lineStart : Bool) : List Char → List Char
  | [] => []
  | c :: rest =>
    if breaksLine c then c :: literalLines indent true rest
    else (if lineStart then spaces indent else []) ++ c :: literalLines indent false rest

/-- A text with the end of its line. `indent` is the column of the collection around it. -/
def writeText (indent : Nat) (cs : List Char) : List Char :=
  match styleOf cs with
  | .plain => cs ++ ['\n']
  | .singleQuoted => singleQuoted (indent + 2) cs ++ ['\n']
  | .doubleQuoted => doubleQuoted cs ++ ['\n']
  | .literal =>
    '|' :: literalHints cs ++ '\n' :: literalLines (indent + 2) true cs ++
      if cs.getLast?.any breaksLine then [] else ['\n']

/-- Whether a text can be written as a key without being announced: it stays on one line and takes
no more than 128 bytes. -/
def isSimpleKey (cs : List Char) : Bool :=
  !cs.any breaksLine && (String.ofList cs).utf8ByteSize ≤ 128

/-- A key that is not announced. -/
def writeKey (cs : List Char) : List Char :=
  match styleOf cs with
  | .plain => cs
  | .singleQuoted => singleQuoted 0 cs
  | _ => doubleQuoted cs

/-! ## Trees -/

/-- A floating-point number. -/
def writeReal : Binary64 → List Char
  | .finite negative m => Text.writeFinite negative m
  | .infinite false => ['.', 'i', 'n', 'f']
  | .infinite true => ['-', '.', 'i', 'n', 'f']
  | .undefined => ['.', 'n', 'a', 'n']

/-- A node without nodes inside it, with the end of its line. -/
def writeLeaf (indent : Nat) : Tree → List Char
  | .bool true => ['t', 'r', 'u', 'e', '\n']
  | .bool false => ['f', 'a', 'l', 's', 'e', '\n']
  | .int n => (toString n).toList ++ ['\n']
  | .real x => writeReal x ++ ['\n']
  | .text s => writeText indent s.toList
  | .list _ => ['[', ']', '\n']
  | .record _ => ['\x7b', '\x7d', '\n']
  | .null | .blank | .tagged _ | .unreadable => ['n', 'u', 'l', 'l', '\n']

/-- A key and its colon. A key that is not simple is announced, and the colon then stands on a line
of its own. -/
def writeName (indent : Nat) (name : List Char) : List Char :=
  if isSimpleKey name then writeKey name ++ [':']
  else '?' :: ' ' :: writeText indent name ++ spaces indent ++ [':', ' ']

mutual

/-- The fields of a record whose first line begins at column `indent`. -/
def writeFields (indent : Nat) : List (String × Tree) → List Char
  | [] => []
  | [(name, value)] =>
    writeName indent name.toList ++ writeNode (isSimpleKey name.toList) indent value
  | (name, value) :: rest =>
    writeName indent name.toList ++ writeNode (isSimpleKey name.toList) indent value ++
      spaces indent ++ writeFields indent rest

/-- The items of a list whose first line begins at column `indent`. -/
def writeItems (indent : Nat) : List Tree → List Char
  | [] => []
  | [item] => '-' :: ' ' :: writeNode false indent item
  | item :: rest =>
    '-' :: ' ' :: writeNode false indent item ++ spaces indent ++ writeItems indent rest

/-- A node inside a collection at column `indent`. After the colon of a simple key, a collection
begins on a new line and anything else after a space; elsewhere a node begins where it stands, two
columns further. -/
def writeNode (afterKey : Bool) (indent : Nat) : Tree → List Char
  | .record fields =>
    if fields.isEmpty then (if afterKey then [' '] else []) ++ writeLeaf indent (.record [])
    else (if afterKey then '\n' :: spaces (indent + 2) else []) ++ writeFields (indent + 2) fields
  | .list items =>
    if items.isEmpty then (if afterKey then [' '] else []) ++ writeLeaf indent (.list [])
    else if afterKey then '\n' :: spaces indent ++ writeItems indent items
    else writeItems (indent + 2) items
  | .tagged node => writeNode afterKey indent node
  | node => (if afterKey then [' '] else []) ++ writeLeaf indent node

end

/-- The text of a record. -/
def render (fields : List (String × Tree)) : String := String.ofList (writeFields 0 fields)

end Reachability.Yaml
