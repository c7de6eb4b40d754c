import Reachability.Yaml.Scalar
import Reachability.Yaml.Token

/-!
# Scanning a YAML stream

The scanner turns characters into tokens. Indentation becomes explicit: a block begins where a line
is indented more than the block around it, and ends before the first line that is indented less.

A mapping key need not be announced: in `name: x` only the colon shows that `name` is a key. The
scanner therefore remembers, for every level of brackets, where the last possible key began, and
when a colon follows it inserts the key token there, and before it the start of a block mapping if
one begins. A possible key must stand on one line and be no longer than 1024 characters. It is
required to be a key if it stands exactly at the indentation of the block.
-/

namespace Reachability.Yaml

/-! ## State -/

/-- A place where a key may have begun. -/
structure PossibleKey where
  required : Bool
  /-- The number of tokens before the key. -/
  position : Nat
  line : Nat
  column : Nat

/-- The state of the scanner. -/
structure Scanner where
  cursor : Cursor
  /-- The tokens so far, the last one first. -/
  tokens : List Token
  count : Nat
  /-- The possible keys, for the innermost brackets first and for the block around all last. -/
  keys : List (Option PossibleKey)
  /-- The columns of the open blocks, the innermost first. -/
  indents : List Nat
  /-- Whether a key may begin here without being announced. -/
  keyAllowed : Bool

namespace Scanner

/-- The scanner at the start of a stream. -/
def start (cs : List Char) : Scanner := ⟨⟨cs, 0, 0⟩, [], 0, [none], [], true⟩

/-- Whether the scanner is inside brackets or braces. -/
def inFlow (s : Scanner) : Bool := 1 < s.keys.length

/-- The column after that of the innermost block. -/
def innerColumn (s : Scanner) : Nat := s.indents.head?.elim 0 (· + 1)

/-- Emits a token. -/
def emit (s : Scanner) (t : Token) : Scanner :=
  { s with tokens := t :: s.tokens, count := s.count + 1 }

/-- Inserts tokens after the first `position` ones. -/
def insertAt (s : Scanner) (position : Nat) (ts : List Token) : Scanner :=
  let (later, earlier) := s.tokens.splitAt (s.count - position)
  { s with tokens := later ++ ts.reverse ++ earlier, count := s.count + ts.length }

/-- Replaces the possible key of the innermost level. -/
def setKey (s : Scanner) (key : Option PossibleKey) : Scanner :=
  { s with keys := key :: s.keys.drop 1 }

/-- Moves the cursor over an indicator of `n` characters and emits its token. -/
def take (s : Scanner) (n : Nat) (t : Token) : Scanner :=
  { s with cursor := s.cursor.skip n }.emit t

/-! ## Keys -/

/-- Gives up the possible key of the innermost level, which must not be required. -/
def dropKey (s : Scanner) : Option Scanner :=
  if s.keys.head?.join.any (·.required) then none else some (s.setKey none)

/-- Notes that a key may begin here, if that is allowed. -/
def saveKey (s : Scanner) : Option Scanner :=
  if s.keyAllowed then do
    let s ← s.dropKey
    let c := s.cursor
    let required := !s.inFlow && s.indents.head? == some c.column
    return s.setKey (some ⟨required, s.count, c.line, c.column⟩)
  else some s

/-- Gives up the possible keys that are on an earlier line or too far back. -/
def dropStaleKeys (s : Scanner) : Option Scanner := do
  let c := s.cursor
  let keys ← s.keys.mapM fun key ↦ match key with
    | some k =>
      if k.line < c.line || k.column + 1024 < c.column then
        if k.required then none else some none
      else some (some k)
    | none => some none
  return { s with keys }

/-! ## Blocks -/

/-- Opens a block at a column if it is deeper than the block around it, and tells whether it did.
Indentation means nothing inside brackets. -/
def openBlock (s : Scanner) (column : Nat) : Bool × Scanner :=
  if !s.inFlow && s.innerColumn ≤ column then (true, { s with indents := column :: s.indents })
  else (false, s)

/-- Opens a block here, starting it with a token, if it is deeper than the block around it. -/
def openBlockHere (s : Scanner) (t : Token) : Scanner :=
  match s.openBlock s.cursor.column with
  | (true, s) => s.emit t
  | (false, s) => s

/-- Closes every block that satisfies `deeper`, starting with the innermost. -/
def closeBlocks (s : Scanner) (deeper : Nat → Bool) : Scanner :=
  if s.inFlow then s
  else
    let (closed, indents) := s.indents.span deeper
    closed.foldl (fun s _ ↦ s.emit .blockEnd) { s with indents }

/-! ## White space between tokens -/

/-- Skips white space, comments and line breaks. A tab counts as white space only where no key may
begin. A new line may begin a key, unless it is inside brackets. -/
def skipSpace : Nat → Scanner → Scanner
  | 0, s => s
  | fuel + 1, s =>
    let c := s.cursor
    let c := if c.column == 0 && c.rest.head?.any (·.toNat == 0xFEFF) then c.skip 1 else c
    let tabs := s.inFlow || !s.keyAllowed
    let c := c.skipWhile fun ch ↦ ch == ' ' || tabs && ch == '\t'
    let c := match c.rest with
      | '#' :: _ => c.skipWhile fun ch ↦ !isBreak ch
      | _ => c
    match c.rest with
    | ch :: _ =>
      if isBreak ch then
        skipSpace fuel { s with cursor := c.next, keyAllowed := s.keyAllowed || !s.inFlow }
      else { s with cursor := c }
    | [] => { s with cursor := c }

/-! ## Tags and directives -/

/-- Whether `c` may occur in the suffix of a tag; `verbatim` admits flow indicators too. -/
def isTagChar (verbatim : Bool) (c : Char) : Bool :=
  isWord c || [';', '/', '?', ':', '@', '&', '=', '+', '$', '.', '%', '!', '~', '*', '\'', '(',
    ')'].contains c || verbatim && [',', '[', ']'].contains c

/-- The number of octets of the UTF-8 sequence that an octet begins. -/
def sequenceLength? (octet : Nat) : Option Nat :=
  if octet < 0x80 then some 1
  else if octet / 0x20 = 6 then some 2
  else if octet / 0x10 = 14 then some 3
  else if octet / 0x08 = 30 then some 4
  else none

/-- Reads an octet: a percent sign and two hexadecimal digits. -/
def scanOctet : List Char → Option (Nat × List Char)
  | '%' :: a :: b :: rest => do return (← Text.numeral? 16 [a, b], rest)
  | _ => none

/-- Reads `n` octets that continue a sequence. -/
def scanContinuation : Nat → List Char → Option (Tag × List Char)
  | 0, cs => some ([], cs)
  | n + 1, cs => do
    let (octet, cs) ← scanOctet cs
    if octet / 0x40 ≠ 2 then none
    let (octets, cs) ← scanContinuation n cs
    return (octet.toUInt8 :: octets, cs)

/-- Reads the octets of an escaped character of a tag. What character they encode, if any, does not
matter. -/
def scanTagEscape (cs : List Char) : Option (Tag × List Char) := do
  let (octet, cs) ← scanOctet cs
  let (octets, cs) ← scanContinuation ((← sequenceLength? octet) - 1) cs
  return (octet.toUInt8 :: octets, cs)

/-- Reads the characters of a tag, after the ones in `acc` in reverse. -/
def scanTagChars (verbatim : Bool) : Nat → Tag → Cursor → Option (Tag × Cursor)
  | 0, _, _ => none
  | fuel + 1, acc, c =>
    match c.rest with
    | [] => some (acc.reverse, c)
    | ch :: _ =>
      if !isTagChar verbatim ch then some (acc.reverse, c)
      else if ch == '%' then do
        let (octets, rest) ← scanTagEscape c.rest
        scanTagChars verbatim fuel (octets.reverse ++ acc) (c.skip (c.rest.length - rest.length))
      else scanTagChars verbatim fuel (ch.toNat.toUInt8 :: acc) c.next

/-- Reads the suffix of a tag that begins with `start`. A suffix ends at its first zero byte. -/
def scanTagSuffix (verbatim : Bool) (start : List Char) (c : Cursor) : Option (Tag × Cursor) := do
  let (suffix, c) ←
    scanTagChars verbatim (c.rest.length + 1) (Tag.ofText (String.ofList start)).reverse c
  return (suffix.takeWhile (· != 0), c)

/-- Reads a suffix that may not be missing. -/
def scanSomeSuffix (verbatim : Bool) (c : Cursor) : Option (Tag × Cursor) :=
  if c.rest.head?.any (isTagChar verbatim) then scanTagSuffix verbatim [] c else none

/-- Reads the handle of a tag: an exclamation mark, and further word characters up to a second mark
if there is one. The flag tells whether the handle is complete. -/
def scanTagHandle (c : Cursor) : Option (List Char × Bool × Cursor) :=
  match c.rest with
  | '!' :: _ =>
    let (word, c) := (c.skip 1).run isWord
    match c.rest with
    | '!' :: _ => some ('!' :: word ++ ['!'], true, c.skip 1)
    | _ => some ('!' :: word, word.isEmpty, c)
  | _ => none

/-- Reads a tag, as a handle and a suffix. A verbatim tag has an empty handle, and so has the tag
that consists of an exclamation mark only. -/
def scanTag (inFlow : Bool) (c : Cursor) : Option (List Char × Tag × Cursor) := do
  let (handle, suffix, c) ←
    if (c.rest.drop 1).head? == some '<' then do
      let (suffix, c) ← scanSomeSuffix true (c.skip 2)
      if c.rest.head? == some '>' then some ([], suffix, c.skip 1) else none
    else do
      let (handle, _, d) ← scanTagHandle c
      if 1 < handle.length && handle.getLast? == some '!' then
        let (suffix, d) ← scanSomeSuffix false d
        some (handle, suffix, d)
      else
        let (suffix, d) ← scanTagSuffix false (handle.drop 1) d
        some (if suffix.isEmpty then ([], .bang, d) else (['!'], suffix, d))
  if atSpace c.rest || inFlow && c.rest.head? == some ',' then some (handle, suffix, c) else none

/-- Reads a number of a version. -/
def scanVersionNumber (c : Cursor) : Option (Nat × Cursor) := do
  let (digits, c) := c.run Char.isDigit
  if digits.length ≤ 9 then some (← Text.decimal? digits, c) else none

/-- Reads a version directive after its name. -/
def scanVersion (c : Cursor) : Option (Token × Cursor) := do
  let (major, c) ← scanVersionNumber (c.skipWhile isBlank)
  match c.rest with
  | '.' :: _ => do
    let (minor, c) ← scanVersionNumber (c.skip 1)
    some (.versionDirective major minor, c)
  | _ => none

/-- Reads a tag directive after its name. -/
def scanTagDirective (c : Cursor) : Option (Token × Cursor) := do
  let (handle, complete, c) ← scanTagHandle (c.skipWhile isBlank)
  if complete && c.rest.head?.any isBlank then
    let (uri, c) ← scanSomeSuffix true (c.skipWhile isBlank)
    if atSpace c.rest then some (.tagDirective handle uri, c) else none
  else none

/-- Reads a directive after its percent sign, with the rest of its line. -/
def scanDirective (c : Cursor) : Option (Token × Cursor) := do
  let (name, c) := c.run isWord
  if !atSpace c.rest then none
  let (token, c) ←
    if name = ['Y', 'A', 'M', 'L'] then scanVersion c
    else if name = ['T', 'A', 'G'] then scanTagDirective c
    else none
  let c := c.skipComment
  if c.rest.head?.all isBreak then return (token, c.next) else none

/-- Reads the name of an anchor or an alias after its indicator. -/
def scanName (c : Cursor) : Option (List Char × Cursor) :=
  let (name, c) := c.run isWord
  let ends := atSpace c.rest || c.rest.head?.any fun ch ↦
    ['?', ':', ',', ']', '\x7d', '%', '@', '\x60'].contains ch
  if !name.isEmpty && ends then some (name, c) else none

/-! ## Tokens -/

/-- Ends all blocks and gives up the possible key, before a marker or a directive. -/
def finishBlocks (s : Scanner) : Option Scanner := do
  return { ← (s.closeBlocks fun _ ↦ true).dropKey with keyAllowed := false }

/-- The end of the stream. -/
def fetchEnd (s : Scanner) : Option Scanner := do
  return (← s.finishBlocks).emit .streamEnd

/-- A directive. -/
def fetchDirective (s : Scanner) : Option Scanner := do
  let s ← s.finishBlocks
  let (token, c) ← scanDirective (s.cursor.skip 1)
  return { s with cursor := c }.emit token

/-- The marker of a document's start or end. -/
def fetchMarker (s : Scanner) (t : Token) : Option Scanner := do
  return (← s.finishBlocks).take 3 t

/-- An opening bracket or brace, which may itself begin a key. -/
def fetchOpening (s : Scanner) (t : Token) : Option Scanner := do
  let s ← s.saveKey
  return { s with keys := none :: s.keys, keyAllowed := true }.take 1 t

/-- A closing bracket or brace. -/
def fetchClosing (s : Scanner) (t : Token) : Option Scanner := do
  let s ← s.dropKey
  let keys := if s.inFlow then s.keys.drop 1 else s.keys
  return { s with keys, keyAllowed := false }.take 1 t

/-- A comma between the items in brackets or braces. -/
def fetchFlowEntry (s : Scanner) : Option Scanner := do
  return { ← s.dropKey with keyAllowed := true }.take 1 .flowEntry

/-- A dash before an item of a block. -/
def fetchBlockEntry (s : Scanner) : Option Scanner := do
  if !s.inFlow && !s.keyAllowed then none
  let s ← (s.openBlockHere .blockSequenceStart).dropKey
  return { s with keyAllowed := true }.take 1 .blockEntry

/-- A question mark that announces a key. -/
def fetchKey (s : Scanner) : Option Scanner := do
  if !s.inFlow && !s.keyAllowed then none
  let s ← (s.openBlockHere .blockMappingStart).dropKey
  return { s with keyAllowed := !s.inFlow }.take 1 .key

/-- A colon before a value. If a key may have begun, it now has, and the tokens that say so are
inserted before it. -/
def fetchValue (s : Scanner) : Option Scanner :=
  match s.keys.head?.join with
  | some key =>
    let (opened, s) := s.openBlock key.column
    let s := s.insertAt key.position (if opened then [.blockMappingStart, .key] else [.key])
    some ({ s.setKey none with keyAllowed := false }.take 1 .value)
  | none => do
    if !s.inFlow && !s.keyAllowed then none
    let s := s.openBlockHere .blockMappingStart
    return { s with keyAllowed := !s.inFlow }.take 1 .value

/-- An alias or an anchor. -/
def fetchName (s : Scanner) (t : List Char → Token) : Option Scanner := do
  let s ← s.saveKey
  let (name, c) ← scanName (s.cursor.skip 1)
  return { s with cursor := c, keyAllowed := false }.emit (t name)

/-- A tag. -/
def fetchTag (s : Scanner) : Option Scanner := do
  let s ← s.saveKey
  let (handle, suffix, c) ← scanTag s.inFlow s.cursor
  return { s with cursor := c, keyAllowed := false }.emit (.tag handle suffix)

/-- A block scalar. -/
def fetchBlockScalar (s : Scanner) (literal : Bool) : Option Scanner := do
  let s ← s.dropKey
  let (text, c) ← scanBlock literal s.indents.head? (s.cursor.skip 1)
  return { s with cursor := c, keyAllowed := true }.emit (.scalar text false)

/-- A quoted scalar. -/
def fetchQuoted (s : Scanner) (quote : Char) : Option Scanner := do
  let s ← s.saveKey
  let (text, c) ← scanQuoted quote (s.cursor.rest.length + 1) [] (s.cursor.skip 1)
  return { s with cursor := c, keyAllowed := false }.emit (.scalar text false)

/-- A plain scalar. One that was left at the start of a line may be followed by a key. -/
def fetchPlain (s : Scanner) : Option Scanner := do
  let s ← s.saveKey
  let (text, lineStart, c) ←
    scanPlain s.inFlow s.innerColumn (s.cursor.rest.length + 1) [] .none s.cursor
  return { s with cursor := c, keyAllowed := lineStart }.emit (.scalar text true)

/-- Whether a plain scalar may begin with `c`, where `rest` is what follows. -/
def startsPlain (inFlow : Bool) (c : Char) (rest : List Char) : Bool :=
  !(isBlank c || ['-', '?', ':', ',', '[', ']', '\x7b', '\x7d', '#', '&', '*', '!', '|', '>', '\'',
      '"', '%', '@', '\x60'].contains c) ||
    c == '-' && !rest.head?.any isBlank ||
    !inFlow && (c == '?' || c == ':') && !atSpace rest

/-- Reads the token that begins with `c`, where `rest` is what follows. -/
def fetchAt (s : Scanner) (c : Char) (rest : List Char) : Option Scanner :=
  if s.cursor.column == 0 && c == '%' then s.fetchDirective
  else if s.cursor.atMarker '-' then s.fetchMarker .documentStart
  else if s.cursor.atMarker '.' then s.fetchMarker .documentEnd
  else if c == '[' then s.fetchOpening .flowSequenceStart
  else if c == '\x7b' then s.fetchOpening .flowMappingStart
  else if c == ']' then s.fetchClosing .flowSequenceEnd
  else if c == '\x7d' then s.fetchClosing .flowMappingEnd
  else if c == ',' then s.fetchFlowEntry
  else if c == '-' && atSpace rest then s.fetchBlockEntry
  else if c == '?' && (s.inFlow || atSpace rest) then s.fetchKey
  else if c == ':' && (s.inFlow || atSpace rest) then s.fetchValue
  else if c == '*' then s.fetchName .aliasOf
  else if c == '&' then s.fetchName .anchor
  else if c == '!' then s.fetchTag
  else if c == '|' && !s.inFlow then s.fetchBlockScalar true
  else if c == '>' && !s.inFlow then s.fetchBlockScalar false
  else if c == '\'' || c == '"' then s.fetchQuoted c
  else if startsPlain s.inFlow c rest then s.fetchPlain
  else none

/-- Reads tokens up to the end of the stream. -/
def scanAll : Nat → Scanner → Option Scanner
  | 0, _ => none
  | fuel + 1, s => do
    let s := s.skipSpace (s.cursor.rest.length + 1)
    let s ← s.dropStaleKeys
    let s := s.closeBlocks (s.cursor.column < ·)
    match s.cursor.rest with
    | [] => s.fetchEnd
    | c :: rest => scanAll fuel (← s.fetchAt c rest)

end Scanner

/-- The tokens of a stream. -/
def tokenize (cs : List Char) : Option (List Token) := do
  if !cs.all admitted then none
  let s ← (Scanner.start (unifyBreaks cs)).scanAll (cs.length + 1)
  return s.tokens.reverse

end Reachability.Yaml
