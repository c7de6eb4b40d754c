import Reachability.Flow

/-!
# Tables

A table has a header and rows, and is drawn with a frame. A column is as wide as the longest of its
entries in UTF-8 bytes, while an entry is padded by its number of characters; the two agree on
ASCII. Widths are numbers of 16 bits, so a table with a longer entry cannot be drawn.

A grid is the table that shows a mark for every flow: a row for every source and a column for every
destination.
-/

namespace Reachability

/-- A header and rows of entries. -/
structure Table where
  header : List String
  rows : List (List String)
deriving DecidableEq

namespace Table

/-! ## Grids -/

/-- The entry of a grid for the marked ports of one source and one destination: the mark alone if
there is one port, and each port with its mark if there are more. -/
def entry : List (ServicePort × Char) → String
  | [] => ""
  | [(_, mark)] => mark.toString
  | ports => " ".intercalate (ports.map fun (port, mark) ↦ s!"{port}:{mark}")

/-- The row of a source: its marked flows by destination. -/
def gridRow (columns : List WorkloadKey) (source : WorkloadKey) (cells : List (Flow × Char)) :
    List String :=
  let row := cells.filter (·.1.source == source)
  toString source :: columns.map fun destination ↦
    entry ((row.filter (·.1.destination == destination)).map fun c ↦ (c.1.port, c.2))

/-- Lays out marked flows with a row for each source and a column for each destination. -/
def grid (cells : List (Flow × Char)) : Table :=
  let columns := (SortedSet.ofList (cells.map (·.1.destination))).members
  let sources := (SortedSet.ofList (cells.map (·.1.source))).members
  { header := "-" :: columns.map toString
    rows := sources.map fun source ↦ gridRow columns source cells }

/-! ## Drawing -/

/-- The widths of columns after a further row, which may have more entries than those before. -/
def widen : List Nat → List String → List Nat
  | widths, [] => widths
  | [], row => row.map (·.utf8ByteSize)
  | w :: widths, s :: row => max w s.utf8ByteSize :: widen widths row

/-- The width of every column. -/
def widths (t : Table) : List Nat := t.rows.foldl widen (t.header.map (·.utf8ByteSize))

/-- An entry with blanks after it up to a number of characters. -/
def padded (width : Nat) (s : String) : String := s.pushn ' ' (width - s.length)

/-- The line of a row. -/
def line (widths : List Nat) (row : List String) : String :=
  "| " ++ " | ".intercalate (List.zipWith padded widths row) ++ " |\n"

/-- The line between the header, the rows and the outside. -/
def ruleLine (widths : List Nat) : String :=
  "+" ++ "+".intercalate (widths.map fun w ↦ "".pushn '-' (w + 2)) ++ "+\n"

/-- The greatest width that a column can have. -/
def widthLimit : Nat := 65535

/-- The drawing of a table, unless a column would be too wide. -/
def render (t : Table) : Option String :=
  let ws := t.widths
  let rule := ruleLine ws
  if ws.all (· ≤ widthLimit) then
    some (rule ++ line ws t.header ++ rule ++ String.join (t.rows.map (line ws)) ++ rule)
  else none

end Table

end Reachability
