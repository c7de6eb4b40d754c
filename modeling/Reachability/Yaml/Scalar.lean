import Reachability.Text.Decimal
import Reachability.Yaml.Cursor

/-!
# Scalars of a YAML stream

Scalars come plain, in single or double quotes, and as literal or folded blocks. In all but the
blocks, white space around a line break is dropped and the break itself becomes a space, unless more
breaks follow, which then stand for themselves.

Every function here starts at a cursor and gives the text with the cursor after it, or nothing if
the stream is ill formed. The loops over lines take fuel; each round consumes a character, so the
length of the stream is enough.
-/

namespace Reachability.Yaml

/-! ## Gaps -/

/-- White space inside a scalar: blanks before the first break, that break, and the breaks after
it. -/
structure Gap where
  blanks : List Char
  broken : Bool
  first : List Char
  further : List Char

namespace Gap

/-- No white space. -/
def none : Gap := ⟨[], false, [], []⟩

/-- The white space after a break that a backslash takes away. -/
def escaped : Gap := ⟨[], true, [], []⟩

/-- What the white space contributes to the scalar. -/
def text (g : Gap) : List Char :=
  if !g.broken then g.blanks
  else if g.first = ['\n'] then if g.further.isEmpty then [' '] else g.further
  else g.first ++ g.further

/-- Reads white space. After a break, a tab may not stand before column `limit`. -/
def scan (limit : Nat) : Nat → Gap → Cursor → Option (Gap × Cursor)
  | 0, _, _ => .none
  | fuel + 1, g, c =>
    match c.rest with
    | [] => some (g, c)
    | ch :: _ =>
      if isBlank ch then
        if !g.broken then scan limit fuel { g with blanks := g.blanks ++ [ch] } c.next
        else if ch == '\t' && c.column < limit then .none
        else scan limit fuel g c.next
      else if isBreak ch then
        if !g.broken then scan limit fuel ⟨[], true, [ch], []⟩ c.next
        else scan limit fuel { g with further := g.further ++ [ch] } c.next
      else some (g, c)

end Gap

/-! ## Quoted scalars -/

/-- The character that a backslash makes of `c`, if it takes no digits. -/
def simpleEscape? : Char → Option Char
  | '0' => some (Char.ofNat 0)
  | 'a' => some (Char.ofNat 0x07)
  | 'b' => some (Char.ofNat 0x08)
  | 't' | '\t' => some '\t'
  | 'n' => some '\n'
  | 'v' => some (Char.ofNat 0x0B)
  | 'f' => some (Char.ofNat 0x0C)
  | 'r' => some '\r'
  | 'e' => some (Char.ofNat 0x1B)
  | ' ' => some ' '
  | '"' => some '"'
  | '/' => some '/'
  | '\\' => some '\\'
  | 'N' => some (Char.ofNat 0x85)
  | '_' => some (Char.ofNat 0xA0)
  | 'L' => some (Char.ofNat 0x2028)
  | 'P' => some (Char.ofNat 0x2029)
  | _ => none

/-- The number of digits that a backslash and `c` take. -/
def escapeDigits? : Char → Option Nat
  | 'x' => some 2
  | 'u' => some 4
  | 'U' => some 8
  | _ => none

/-- The character with a code point. -/
def charOf? (n : Nat) : Option Char := if n.isValidChar then some (Char.ofNat n) else none

/-- Reads an escape after its backslash. -/
def scanEscape (c : Cursor) : Option (Char × Cursor) :=
  match c.rest with
  | [] => none
  | e :: rest =>
    match simpleEscape? e with
    | some ch => some (ch, c.skip 1)
    | none => do
      let count ← escapeDigits? e
      let digits := rest.take count
      if digits.length < count then none
      else return (← charOf? (← Text.numeral? 16 digits), c.skip (count + 1))

/-- Reads a quoted scalar up to white space or its closing quote, in front of `acc` in reverse. The
flag tells whether a backslash took a line break away. -/
def scanQuotedRun (quote : Char) : Nat → List Char → Cursor → Option (List Char × Bool × Cursor)
  | 0, _, _ => none
  | fuel + 1, acc, c =>
    match c.rest with
    | [] => some (acc, false, c)
    | ch :: rest =>
      if isBlank ch || isBreak ch then some (acc, false, c)
      else if quote == '\'' && ch == '\'' && rest.head? == some '\'' then
        scanQuotedRun quote fuel ('\'' :: acc) (c.skip 2)
      else if ch == quote then some (acc, false, c)
      else if quote == '"' && ch == '\\' then
        if rest.head?.any isBreak then some (acc, true, (c.skip 1).next)
        else do
          let (e, c) ← scanEscape (c.skip 1)
          scanQuotedRun quote fuel (e :: acc) c
      else scanQuotedRun quote fuel (ch :: acc) c.next

/-- Reads a quoted scalar after its opening quote. -/
def scanQuoted (quote : Char) : Nat → List Char → Cursor → Option (List Char × Cursor)
  | 0, _, _ => none
  | fuel + 1, acc, c =>
    if c.atDocumentMarker || c.rest.isEmpty then none
    else do
      let (acc, escaped, c) ← scanQuotedRun quote (c.rest.length + 1) acc c
      if c.rest.head? == some quote then return (acc.reverse, c.skip 1)
      let start := if escaped then Gap.escaped else Gap.none
      let (gap, c) ← Gap.scan 0 (c.rest.length + 1) start c
      scanQuoted quote fuel (gap.text.reverse ++ acc) c

/-! ## Plain scalars -/

/-- Whether `c` ends a plain scalar inside brackets or braces. -/
def isFlowIndicator (c : Char) : Bool :=
  c == ',' || c == '[' || c == ']' || c == '\x7b' || c == '\x7d'

/-- Reads a plain scalar up to white space or an indicator, in front of `acc` in reverse. -/
def scanPlainRun (inFlow : Bool) : Nat → List Char → Cursor → Option (List Char × Cursor)
  | 0, _, _ => none
  | fuel + 1, acc, c =>
    match c.rest with
    | [] => some (acc, c)
    | ch :: rest =>
      if isBlank ch || isBreak ch then some (acc, c)
      else if inFlow && ch == ':' && rest.head?.any fun d ↦ isFlowIndicator d || d == '?' then none
      else if ch == ':' && atSpace rest || inFlow && isFlowIndicator ch then some (acc, c)
      else scanPlainRun inFlow fuel (ch :: acc) c.next

/-- Reads a plain scalar whose lines after the first are indented to column `indent` at least. The
flag tells whether the scalar was left at the start of a line. -/
def scanPlain (inFlow : Bool) (indent : Nat) :
    Nat → List Char → Gap → Cursor → Option (List Char × Bool × Cursor)
  | 0, _, _, _ => none
  | fuel + 1, acc, gap, c =>
    if c.atDocumentMarker || c.rest.head? == some '#' then some (acc.reverse, gap.broken, c)
    else do
      let (word, c) ← scanPlainRun inFlow (c.rest.length + 1) [] c
      if word.isEmpty then return (acc.reverse, gap.broken, c)
      let acc := word ++ gap.text.reverse ++ acc
      if c.rest.head?.all fun ch ↦ !(isBlank ch || isBreak ch) then return (acc.reverse, false, c)
      let (gap, c) ← Gap.scan indent (c.rest.length + 1) .none c
      if !inFlow && c.column < indent then return (acc.reverse, gap.broken, c)
      scanPlain inFlow indent fuel acc gap c

/-! ## Block scalars -/

/-- What becomes of the line breaks at the end of a block scalar. -/
inductive Chomping where
  | strip
  | clip
  | keep
deriving DecidableEq

/-- The chomping that an indicator asks for. -/
def chomping? : Char → Option Chomping
  | '-' => some .strip
  | '+' => some .keep
  | _ => none

/-- The number of columns that an indicator asks for. -/
def increment? (c : Char) : Option Nat := if '1' ≤ c ∧ c ≤ '9' then Text.digit? c else none

/-- Reads the header of a block scalar after its indicator: the chomping and the increment, in
either order. -/
def scanBlockHeader (c : Cursor) : Option (Chomping × Option Nat × Cursor) := do
  let (chomping, increment, c) := match c.rest with
    | [] => (Chomping.clip, none, c)
    | a :: rest =>
      match chomping? a, increment? a with
      | some chomping, _ =>
        match rest.head?.bind increment? with
        | some n => (chomping, some n, c.skip 2)
        | none => (chomping, none, c.skip 1)
      | none, some n =>
        match rest.head?.bind chomping? with
        | some chomping => (chomping, some n, c.skip 2)
        | none => (.clip, some n, c.skip 1)
      | none, none => (.clip, none, c)
  let c := c.skipComment
  if c.rest.head?.all isBreak then return (chomping, increment, c.next) else none

/-- Reads the breaks and the indentation before a line of a block scalar. Without a known
indentation every space is skipped, and the deepest column is noted in `deepest`. -/
def scanIndentation (indent : Option Nat) :
    Nat → List Char → Nat → Cursor → Option (List Char × Nat × Cursor)
  | 0, _, _, _ => none
  | fuel + 1, breaks, deepest, c =>
    let spaces := (c.rest.takeWhile (· == ' ')).length
    let c := c.skip (indent.elim spaces fun n ↦ min spaces (n - c.column))
    let deepest := max deepest c.column
    match c.rest with
    | [] => some (breaks, deepest, c)
    | ch :: _ =>
      if ch == '\t' && indent.all (c.column < ·) then none
      else if isBreak ch then scanIndentation indent fuel (breaks ++ [ch]) deepest c.next
      else some (breaks, deepest, c)

/-- Reads the lines of a block scalar. `last` is the break that ended the line before, and `breaks`
are those after it; `blankLine` tells whether that line began with a blank. -/
def scanBlockLines (literal : Bool) (indent : Nat) :
    Nat → List Char → List Char → List Char → Bool → Cursor →
      Option (List Char × List Char × List Char × Cursor)
  | 0, _, _, _, _, _ => none
  | fuel + 1, acc, last, breaks, blankLine, c =>
    match c.rest with
    | [] => some (acc, last, breaks, c)
    | ch :: _ =>
      if c.column ≠ indent then some (acc, last, breaks, c)
      else do
        let folded := !literal && last == ['\n'] && !blankLine && !isBlank ch
        let joint := if folded then if breaks.isEmpty then [' '] else [] else last
        let (line, c) := c.run fun d ↦ !isBreak d
        let acc := line.reverse ++ breaks.reverse ++ joint.reverse ++ acc
        let (breaks, _, next) ← scanIndentation (some indent) (c.rest.length + 1) [] 0 c.next
        scanBlockLines literal indent fuel acc (c.rest.take 1) breaks (isBlank ch) next

/-- Reads a block scalar after its indicator. `parent` is the column to which the enclosing block is
indented. -/
def scanBlock (literal : Bool) (parent : Option Nat) (c : Cursor) :
    Option (List Char × Cursor) := do
  let (chomping, increment, c) ← scanBlockHeader c
  let known := increment.map fun n ↦ parent.elim n (· + n)
  let (breaks, deepest, c) ← scanIndentation known (c.rest.length + 1) [] 0 c
  let indent := known.getD (max (max deepest (parent.elim 0 (· + 1))) 1)
  let (acc, last, breaks, c) ←
    scanBlockLines literal indent (c.rest.length + 1) [] [] breaks false c
  let ending := match chomping with
    | .strip => []
    | .clip => last
    | .keep => last ++ breaks
  return (acc.reverse ++ ending, c)

end Reachability.Yaml
