import Reachability.Text.Unprintable

/-!
# Quotations

Messages quote the text that they object to, so that blanks and invisible characters show. A
quotation stands in double quotes; a quote and a backslash get a backslash, the usual controls get
their letter, and every other control or unprintable character is written `\u` with its code point
in braces, in the fewest hexadecimal digits. Everything else stands for itself.
-/

namespace Reachability.Text

/-- A code point in hexadecimal, in braces after `\u`. -/
def escapedCode (c : Char) : List Char :=
  ['\\', 'u', '\x7b'] ++ Nat.toDigits 16 c.toNat ++ ['\x7d']

/-- How a character is written inside a quotation. -/
def quotedChar (c : Char) : List Char :=
  match c with
  | '"' => ['\\', '"']
  | '\\' => ['\\', '\\']
  | '\n' => ['\\', 'n']
  | '\r' => ['\\', 'r']
  | '\t' => ['\\', 't']
  | c =>
    if c.toNat = 0 then ['\\', '0']
    else if c.toNat < 0x20 then escapedCode c
    else if c.toNat < 0x7F then [c]
    else if isUnprintable c then escapedCode c
    else [c]

/-- The quotation of `s`. -/
def quoted (s : String) : String :=
  String.ofList ('"' :: s.toList.flatMap quotedChar ++ ['"'])

end Reachability.Text
