import Reachability.Yaml.Node
import Reachability.Yaml.Token

/-!
# Parsing a YAML stream

A recursive descent over tokens. Where a node may be missing, an empty scalar stands for it. The
fuel bounds the number of nested calls; no more than two of them happen for each token.
-/

namespace Reachability.Yaml

/-- A node of a text, whose anchors go by name. -/
abbrev TextNode := Node (List Char)

/-! ## Tags -/

/-- What tag handles stand for. -/
abbrev TagHandles := List (List Char × Tag)

/-- The handles that every document has unless it declares them otherwise. -/
def defaultHandles : TagHandles :=
  [(['!'], .bang), (['!', '!'], .ofText "tag:yaml.org,2002:")]

/-- The tag that a handle and a suffix denote. A verbatim tag has an empty handle. -/
def resolveTag (handles : TagHandles) (handle : List Char) (suffix : Tag) : Option Tag :=
  if handle.isEmpty then some suffix else (handles.lookup handle).map (· ++ suffix)

/-- Reads the anchor and the tag of a node, in either order. -/
def parseProperties (handles : TagHandles) :
    List Token → Option (Properties (List Char) × List Token)
  | .anchor name :: .tag handle suffix :: rest | .tag handle suffix :: .anchor name :: rest =>
    do return (⟨some name, some (← resolveTag handles handle suffix)⟩, rest)
  | .anchor name :: rest => some (⟨some name, none⟩, rest)
  | .tag handle suffix :: rest => do
    return (⟨none, some (← resolveTag handles handle suffix)⟩, rest)
  | ts => some (.none, ts)

/-! ## Where nodes are missing -/

/-- Whether the tokens go on with one of the given ones, or end. -/
def meets (stops : List Token) (ts : List Token) : Bool := ts.head?.all (stops.contains ·)

/-- The tokens before which a key or a value of a block mapping is missing. -/
def mappingStops : List Token := [.key, .value, .blockEnd]

/-- The tokens before which an item of a block sequence is missing. -/
def sequenceStops : List Token := [.blockEntry, .blockEnd]

/-- The tokens before which an item of a sequence that is not indented is missing. -/
def indentlessStops : List Token := [.blockEntry, .key, .value, .blockEnd]

/-- The token after the comma that must stand between items, or the first token if none has come
before. -/
def afterComma (first : Bool) (ts : List Token) : Option (List Token) :=
  if first then some ts
  else match ts with
    | .flowEntry :: rest => some rest
    | _ => none

/-! ## Nodes -/

mutual

/-- Reads a node. A block collection may stand only where `block` is set, and a sequence that is
not indented only as a key or value of a block mapping. -/
def parseNode (handles : TagHandles) :
    Nat → Bool → Bool → List Token → Option (TextNode × List Token)
  | 0, _, _, _ => none
  | _ + 1, _, _, .aliasOf name :: rest => some (.aliasOf name, rest)
  | fuel + 1, block, indentless, ts => do
    let (properties, ts) ← parseProperties handles ts
    match ts with
    | .scalar text plain :: rest =>
      return (.scalar properties text plain, rest)
    | .flowSequenceStart :: rest =>
      let (items, rest) ← parseFlowItems handles fuel true rest
      return (.sequence properties items, rest)
    | .flowMappingStart :: rest =>
      let (entries, rest) ← parseFlowEntries handles fuel true rest
      return (.mapping properties entries, rest)
    | .blockEntry :: _ =>
      if indentless then
        let (items, rest) ← parseIndentlessItems handles fuel ts
        return (.sequence properties items, rest)
      else emptyNode properties ts
    | .blockSequenceStart :: rest =>
      if block then
        let (items, rest) ← parseBlockItems handles fuel rest
        return (.sequence properties items, rest)
      else emptyNode properties ts
    | .blockMappingStart :: rest =>
      if block then
        let (entries, rest) ← parseBlockEntries handles fuel rest
        return (.mapping properties entries, rest)
      else emptyNode properties ts
    | _ => emptyNode properties ts
where
  /-- A node that has properties may have no content. -/
  emptyNode (properties : Properties (List Char)) (ts : List Token) :
      Option (TextNode × List Token) :=
    if properties.anchor.isSome || properties.tag.isSome then
      some (.scalar properties [] true, ts)
    else none

/-- Reads a node unless one of the given tokens shows that it is missing. -/
def parseOptional (handles : TagHandles) (stops : List Token) :
    Nat → Bool → Bool → List Token → Option (TextNode × List Token)
  | 0, _, _, _ => none
  | fuel + 1, block, indentless, ts =>
    if meets stops ts then some (.missing, ts) else parseNode handles fuel block indentless ts

/-- Reads the items of a block sequence and its end. -/
def parseBlockItems (handles : TagHandles) : Nat → List Token → Option (List TextNode × List Token)
  | 0, _ => none
  | fuel + 1, .blockEntry :: rest => do
    let (item, rest) ← parseOptional handles sequenceStops fuel true false rest
    let (items, rest) ← parseBlockItems handles fuel rest
    return (item :: items, rest)
  | _ + 1, .blockEnd :: rest => some ([], rest)
  | _ + 1, _ => none

/-- Reads the items of a sequence that is not indented, which ends where no item follows. -/
def parseIndentlessItems (handles : TagHandles) :
    Nat → List Token → Option (List TextNode × List Token)
  | 0, _ => none
  | fuel + 1, .blockEntry :: rest => do
    let (item, rest) ← parseOptional handles indentlessStops fuel true false rest
    let (items, rest) ← parseIndentlessItems handles fuel rest
    return (item :: items, rest)
  | _ + 1, ts => some ([], ts)

/-- Reads the entries of a block mapping and its end. -/
def parseBlockEntries (handles : TagHandles) :
    Nat → List Token → Option (List (TextNode × TextNode) × List Token)
  | 0, _ => none
  | fuel + 1, .key :: rest => do
    let (key, rest) ← parseOptional handles mappingStops fuel true true rest
    let (value, rest) ← parseValue handles mappingStops fuel true rest
    let (entries, rest) ← parseBlockEntries handles fuel rest
    return ((key, value) :: entries, rest)
  | _ + 1, .blockEnd :: rest => some ([], rest)
  | _ + 1, _ => none

/-- Reads the value after a key, if there is one. -/
def parseValue (handles : TagHandles) (stops : List Token) :
    Nat → Bool → List Token → Option (TextNode × List Token)
  | 0, _, _ => none
  | fuel + 1, block, .value :: rest => parseOptional handles stops fuel block block rest
  | _ + 1, _, ts => some (.missing, ts)

/-- Reads the items of a flow sequence and its end. -/
def parseFlowItems (handles : TagHandles) :
    Nat → Bool → List Token → Option (List TextNode × List Token)
  | 0, _, _ => none
  | _ + 1, _, .flowSequenceEnd :: rest => some ([], rest)
  | fuel + 1, first, ts => do
    match ← afterComma first ts with
    | .flowSequenceEnd :: rest => return ([], rest)
    | .key :: rest =>
      let (item, rest) ← parsePair handles fuel rest
      let (items, rest) ← parseFlowItems handles fuel false rest
      return (item :: items, rest)
    | ts =>
      let (item, rest) ← parseNode handles fuel false false ts
      let (items, rest) ← parseFlowItems handles fuel false rest
      return (item :: items, rest)

/-- Reads a mapping of one entry that stands as an item of a flow sequence, after its key token. A
missing key takes the token before which it is missing with it. -/
def parsePair (handles : TagHandles) : Nat → List Token → Option (TextNode × List Token)
  | 0, _ => none
  | fuel + 1, ts => do
    let (key, rest) ←
      if meets [.value, .flowEntry, .flowSequenceEnd] ts then some (.missing, ts.drop 1)
      else parseNode handles fuel false false ts
    let (value, rest) ← parseValue handles [.flowEntry, .flowSequenceEnd] fuel false rest
    return (.mapping .none [(key, value)], rest)

/-- Reads the entries of a flow mapping and its end. -/
def parseFlowEntries (handles : TagHandles) :
    Nat → Bool → List Token → Option (List (TextNode × TextNode) × List Token)
  | 0, _, _ => none
  | _ + 1, _, .flowMappingEnd :: rest => some ([], rest)
  | fuel + 1, first, ts => do
    match ← afterComma first ts with
    | .flowMappingEnd :: rest => return ([], rest)
    | .key :: rest =>
      let (key, rest) ←
        parseOptional handles [.value, .flowEntry, .flowMappingEnd] fuel false false rest
      let (value, rest) ← parseValue handles [.flowEntry, .flowMappingEnd] fuel false rest
      let (entries, rest) ← parseFlowEntries handles fuel false rest
      return ((key, value) :: entries, rest)
    | ts =>
      let (key, rest) ← parseNode handles fuel false false ts
      let (entries, rest) ← parseFlowEntries handles fuel false rest
      return ((key, .missing) :: entries, rest)

end

/-! ## Documents -/

/-- Reads the directives before a document: at most one version, which must be 1.1 or 1.2, and at
most one declaration of each handle. -/
def parseDirectives : Nat → Bool → TagHandles → List Token → Option (TagHandles × List Token)
  | 0, _, _, _ => none
  | fuel + 1, versioned, handles, .versionDirective major minor :: rest =>
    if versioned || major ≠ 1 || !(minor == 1 || minor == 2) then none
    else parseDirectives fuel true handles rest
  | fuel + 1, versioned, handles, .tagDirective handle uri :: rest =>
    if handles.any (·.1 == handle) then none
    else parseDirectives fuel versioned (handles ++ [(handle, uri)]) rest
  | _ + 1, _, handles, ts => some (handles, ts)

/-- Whether a document has to be announced before this token. -/
def Token.isDocumentBoundary : Token → Bool
  | versionDirective .. | tagDirective .. | documentStart | documentEnd | streamEnd => true
  | _ => false

/-- The tokens after the marker of a document's end, if it is there. -/
def afterDocument : List Token → List Token
  | .documentEnd :: rest => rest
  | ts => ts

/-- Reads a document that is announced by its start marker. -/
def parseExplicit (ts : List Token) : Option (TextNode × List Token) := do
  let (declared, rest) ← parseDirectives (ts.length + 1) false [] ts
  match rest with
  | .documentStart :: rest =>
    if rest.head?.all (·.isDocumentBoundary) then return (.missing, rest)
    else parseNode (declared ++ defaultHandles) (2 * rest.length + 2) true false rest
  | _ => none

/-- Reads all documents after the first. -/
def parseDocuments : Nat → List Token → Option (List TextNode)
  | 0, _ => none
  | fuel + 1, ts =>
    match ts.dropWhile (· == .documentEnd) with
    | .streamEnd :: _ => some []
    | ts => do
      let (document, rest) ← parseExplicit ts
      return document :: (← parseDocuments fuel (afterDocument rest))

/-- Reads a stream. Its first document need not be announced. -/
def parseStream (ts : List Token) : Option (List TextNode) :=
  match ts with
  | [] => none
  | .streamEnd :: _ => some []
  | .versionDirective .. :: _ | .tagDirective .. :: _ | .documentStart :: _ =>
    parseDocuments (ts.length + 1) ts
  | ts => do
    let (document, rest) ← parseNode defaultHandles (2 * ts.length + 2) true false ts
    return document :: (← parseDocuments (ts.length + 1) (afterDocument rest))

end Reachability.Yaml
