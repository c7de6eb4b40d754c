/-!
# Characters and positions of a YAML stream

The stream is a list of characters. Before anything else, characters that YAML does not admit are
refused, and the line breaks that mean the same are made the same: a carriage return, alone or
before a line feed, and a next-line character become line feeds. Line and paragraph separators
break lines too, but stay as they are, because scalars keep them.

A cursor is what is left of the stream, with the line and column reached.
-/

namespace Reachability.Yaml

/-- Whether YAML admits `c` in a stream. -/
def admitted (c : Char) : Bool :=
  let n := c.toNat
  n == 0x09 || n == 0x0A || n == 0x0D || (0x20 ≤ n && n ≤ 0x7E) || n == 0x85 ||
    (0xA0 ≤ n && n ≤ 0xFFFD) || 0x10000 ≤ n

/-- The characters with equivalent line breaks made line feeds. -/
def unifyBreaks : List Char → List Char
  | [] => []
  | '\r' :: '\n' :: rest => '\n' :: unifyBreaks rest
  | '\r' :: rest => '\n' :: unifyBreaks rest
  | c :: rest => (if c.toNat = 0x85 then '\n' else c) :: unifyBreaks rest

/-- Whether `c` breaks a line, in a stream with unified breaks. -/
def isBreak (c : Char) : Bool := c == '\n' || c.toNat == 0x2028 || c.toNat == 0x2029

/-- Whether `c` is white space within a line. -/
def isBlank (c : Char) : Bool := c == ' ' || c == '\t'

/-- Whether `c` may occur in a name. -/
def isWord (c : Char) : Bool := c.isAlphanum || c == '_' || c == '-'

/-- Whether the stream ends here or goes on with white space. -/
def atSpace : List Char → Bool
  | [] => true
  | c :: _ => isBlank c || isBreak c

/-- What is left of a stream, and where that begins. -/
structure Cursor where
  rest : List Char
  line : Nat
  column : Nat

namespace Cursor

/-- The position after the next character. -/
def next (c : Cursor) : Cursor :=
  match c.rest with
  | [] => c
  | ch :: rest => if isBreak ch then ⟨rest, c.line + 1, 0⟩ else ⟨rest, c.line, c.column + 1⟩

/-- The position after `n` characters of this line. -/
def skip (c : Cursor) (n : Nat) : Cursor := ⟨c.rest.drop n, c.line, c.column + n⟩

/-- The characters of this line that satisfy `p` up to the first that does not, and the position
after them. -/
def run (c : Cursor) (p : Char → Bool) : List Char × Cursor :=
  let (taken, rest) := c.rest.span p
  (taken, ⟨rest, c.line, c.column + taken.length⟩)

/-- The position after the characters that satisfy `p`. -/
def skipWhile (c : Cursor) (p : Char → Bool) : Cursor := (c.run p).2

/-- The position at the end of the line if only white space and a comment stand before it. -/
def skipComment (c : Cursor) : Cursor :=
  let c := c.skipWhile isBlank
  match c.rest with
  | '#' :: _ => c.skipWhile fun ch ↦ !isBreak ch
  | _ => c

/-- Whether the line is just a marker of three equal characters, or begins with it and a blank. -/
def atMarker (c : Cursor) (ch : Char) : Bool :=
  c.column == 0 && [ch, ch, ch].isPrefixOf c.rest && atSpace (c.rest.drop 3)

/-- Whether a document begins or ends here. -/
def atDocumentMarker (c : Cursor) : Bool := c.atMarker '-' || c.atMarker '.'

end Cursor

end Reachability.Yaml
