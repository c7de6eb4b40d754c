/-!
# Tokens of a YAML stream

Indentation is a matter of the scanner alone. A block has a token for its start and one for its
end, so a parser need not know in which column a node begins. The one exception is a list in the
column of its key, which shows only by the tokens of its items.
-/

namespace Reachability.Yaml

/-- The bytes of a tag. They need not be text, because an escape may spell any byte. -/
abbrev Tag := List UInt8

/-- The tag that a text spells. -/
def Tag.ofText (s : String) : Tag := s.toUTF8.toList

/-- The tag that consists of an exclamation mark only. -/
def Tag.bang : Tag := Tag.ofText "!"

/-- A token of a YAML stream. -/
inductive Token where
  | versionDirective (major minor : Nat)
  | tagDirective (handle : List Char) (uri : Tag)
  | documentStart
  | documentEnd
  | blockSequenceStart
  | blockMappingStart
  | blockEnd
  | flowSequenceStart
  | flowSequenceEnd
  | flowMappingStart
  | flowMappingEnd
  | blockEntry
  | flowEntry
  | key
  | value
  | aliasOf (name : List Char)
  | anchor (name : List Char)
  | tag (handle : List Char) (suffix : Tag)
  /-- A scalar; `plain` if it stands without quotes and not as a block. -/
  | scalar (text : List Char) (plain : Bool)
  | streamEnd
deriving DecidableEq

end Reachability.Yaml
