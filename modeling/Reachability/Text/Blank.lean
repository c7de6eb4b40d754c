/-!
# White space

The characters with the Unicode property `White_Space`, and trimming by them. Names in lists and
port references are trimmed by this class, so an ideographic space or a line separator goes as a
plain space does.
-/

namespace Reachability.Text

/-- Whether `c` has the Unicode property `White_Space`. -/
def isBlank (c : Char) : Bool :=
  let n := c.toNat
  (0x09 ≤ n && n ≤ 0x0D) || n == 0x20 || n == 0x85 || n == 0xA0 || n == 0x1680 ||
    (0x2000 ≤ n && n ≤ 0x200A) || n == 0x2028 || n == 0x2029 || n == 0x202F || n == 0x205F ||
    n == 0x3000

/-- The characters without blanks at the start. -/
def trimStart (cs : List Char) : List Char := cs.dropWhile isBlank

/-- The characters without blanks at either end. -/
def trim (cs : List Char) : List Char := (trimStart (trimStart cs).reverse).reverse

/-- The text without blanks at either end. -/
def trimmed (s : String) : String := String.ofList (trim s.toList)

end Reachability.Text
