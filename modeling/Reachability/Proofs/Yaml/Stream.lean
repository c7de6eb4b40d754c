import Mathlib.Data.List.Basic
import Reachability.Proofs.Yaml.Value
import Reachability.Proofs.Yaml.Written

/-!
# Reading back streams

A stream is made of parts with separators between them. A part is a record or says nothing, and what
is read are the records in their order. The block of a record is still open at its end, and it is
the separator or the end of the stream that closes it; so each part is followed up to there
(`Part.leads_text`), and the separators are followed by themselves (`Scanner.leads_separator`).
-/

namespace Reachability.Yaml

/-! ## Parts -/

/-- A text that says nothing: line breaks, and then perhaps a word for null on a line of its own. -/
structure Silence where
  breaks : Nat
  word : Option { w : List Char // isNullWord w = true }

/-- A record of plain data that can be a document. -/
structure PlainRecord where
  fields : List (String × Tree)
  nonempty : fields ≠ []
  plain : (Tree.record fields).Plain depthLimit

/-- What stands between the separators of a stream. -/
inductive Part where
  | record (r : PlainRecord)
  | silence (s : Silence)

/-- The text of silence. -/
def Silence.text (s : Silence) : List Char :=
  List.replicate s.breaks '\n' ++ s.word.elim [] (·.1 ++ ['\n'])

namespace Part

/-- The text of a part. -/
def text : Part → List Char
  | record r => writeFields 0 r.fields
  | silence s => s.text

/-- The tokens of a part. -/
def tokens : Part → List Token
  | record r => nodeTokens false (.record r.fields)
  | silence s => s.word.elim [] fun w ↦ [.scalar w.1 true]

/-- The node that is the document of a part. -/
def node : Part → TextNode
  | record r => nodeOf (.record r.fields)
  | silence s => .scalar .none (s.word.elim [] (·.1)) true

/-- What a part says. -/
def tree? : Part → Option Tree
  | record r => some (.record r.fields)
  | silence _ => none

end Part

/-- A line that separates documents. -/
def separator : List Char := ['-', '-', '-', '\n']

/-- A stream of documents with given texts. -/
def stream (texts : List String) : String := String.intercalate "---\n" texts

theorem standsPlain_nullWord {w : List Char} (h : isNullWord w = true) : StandsPlain w := by
  obtain ⟨word, hword, heq⟩ := List.any_eq_true.mp h
  obtain rfl := eq_of_beq heq
  have hplain : ∀ word ∈ ["null", "Null", "NULL", "~"],
      word.toList ≠ [] ∧ plainAllowed word.toList = true := by decide
  exact ⟨(hplain word hword).1, (hplain word hword).2⟩

theorem PlainRecord.tokens_eq (r : PlainRecord) : nodeTokens false (.record r.fields) =
    .blockMappingStart :: (fieldTokens r.fields ++ [.blockEnd]) := by
  simp [nodeTokens, r.nonempty]

/-! ## Scanning -/

/-- The text is at its end or at a separator. -/
def AtSeparator (r : List Char) : Prop := r = [] ∨ ∃ rest, r = separator ++ rest

theorem AtSeparator.atWord {r : List Char} (h : AtSeparator r) : AtWord isGap r := by
  rcases h with rfl | ⟨rest, rfl⟩
  · exact fun c hc ↦ absurd hc (by simp)
  · exact atWord_cons (by decide) _

theorem AtSeparator.stops {r : List Char} (h : AtSeparator r) (line : Nat) :
    r = [] ∨ Cursor.atDocumentMarker ⟨r, line, 0⟩ = true := by
  rcases h with rfl | ⟨rest, rfl⟩
  · exact Or.inl rfl
  · exact Or.inr rfl

namespace Scanner

variable {line : Nat} {ts : List Token}

theorem leads_breaks (line n : Nat) (r : List Char) :
    Leads (before (List.replicate n '\n' ++ r) line 0 ts [] true)
      (before r (line + n) 0 ts [] true) := by
  induction n generalizing line with
  | zero => exact Leads.of_settle rfl (Nat.le_refl _)
  | succ n ih =>
    have hrest := ih (line + 1)
    rw [Nat.add_assoc, Nat.add_comm 1 n] at hrest
    exact (leads_break _).trans hrest

theorem leads_nullWord {w : List Char} (h : isNullWord w = true) {r : List Char}
    (hr : AtSeparator r) :
    Leads (before (w ++ '\n' :: r) line 0 ts [] true)
      (before r (line + 1) 0 (.scalar w true :: ts) [] true) := by
  have hends : PlainEnds (([] : List Nat).head?.elim 0 (· + 1)) line (0 + w.length) ('\n' :: r)
      true ⟨r, line + 1, 0⟩ :=
    .newline (k := 0) hr.atWord.of_isGap (Or.inr (hr.stops (line + 1)))
  have hkey : Lapsed (keyHere line 0 ts [] true) (line + 1) := by
    intro k hk
    obtain rfl := Option.some.inj hk
    exact ⟨rfl, Nat.lt_succ_self line⟩
  exact (leads_plain (standsPlain_nullWord h) (by simp) true hends).trans
    (leads_spaces (k := 0) hr.atWord hkey)

/-- A separator closes the block of a document, if there is one. -/
theorem leads_separator {indents : List Nat} (hindents : indents = [] ∨ indents = [0])
    (r : List Char) :
    Leads (before (separator ++ r) line 0 ts indents true)
      (before r (line + 1) 0 (.documentStart :: (List.replicate indents.length .blockEnd ++ ts)) []
        true) := by
  have hmarker : Leads (before (separator ++ r) line 0 ts indents true)
      (before ('\n' :: r) line 3
        (.documentStart :: (List.replicate indents.length .blockEnd ++ ts)) [] false) := by
    refine leads_fetch (by decide) ?_ ?_ (by simp [before])
    · rcases hindents with rfl | rfl <;> simp
    · rcases hindents with rfl | rfl <;> rfl
  exact hmarker.trans (leads_break r)

theorem scanAll_end {indents : List Nat} (hindents : indents = [] ∨ indents = [0]) (fuel : Nat) :
    (scanAll (fuel + 1) (before [] line 0 ts indents true)).map (·.tokens) =
      some (.streamEnd :: (List.replicate indents.length .blockEnd ++ ts)) := by
  rw [scanAll_succ, settle_before (by simp [AtWord]), closeBlocks_stop]
  · rcases hindents with rfl | rfl <;> rfl
  · rcases hindents with rfl | rfl <;> simp [before]

end Scanner

open Scanner

/-- A part is read up to the separator after it. The blocks that are still open make up for the
tokens that are still missing. -/
theorem Part.leads_text (part : Part) {r : List Char} (hr : AtSeparator r) (line : Nat)
    (ts : List Token) :
    ∃ line' ts' indents, (indents = [] ∨ indents = [0]) ∧
      Leads (before (part.text ++ r) line 0 ts [] true) (before r line' 0 ts' indents true) ∧
      List.replicate indents.length .blockEnd ++ ts' = part.tokens.reverse ++ ts := by
  cases part with
  | record record =>
    have hopens : Opens .blockMappingStart 0 ts [] (.blockMappingStart :: ts) [0] :=
      .opened ts (by simp)
    obtain ⟨line', hleads⟩ := leads_fields line (k := 0)
      (fun f hf ↦ scans_of_plain (record.plain.2 f hf)) record.nonempty hopens (Nat.le_refl 0)
      hr.atWord
    refine ⟨line', _, [0], Or.inr rfl, hleads, ?_⟩
    rw [tokens, record.tokens_eq]
    simp
  | silence s =>
    obtain ⟨breaks, word⟩ := s
    have hbreaks := fun r ↦ @leads_breaks ts line breaks r
    cases word with
    | none =>
      refine ⟨line + breaks, ts, [], Or.inl rfl, ?_, rfl⟩
      simpa [text, Silence.text] using hbreaks r
    | some w =>
      refine ⟨line + breaks + 1, .scalar w.1 true :: ts, [], Or.inl rfl, ?_, rfl⟩
      simpa [text, Silence.text] using (hbreaks _).trans (leads_nullWord w.2 hr)

/-- The text of a part and of the parts after it. -/
def partsText (part : Part) (parts : List Part) : List Char :=
  part.text ++ parts.flatMap (separator ++ ·.text)

/-- The tokens of the parts after a part. -/
def furtherTokens (parts : List Part) : List Token :=
  parts.flatMap (.documentStart :: ·.tokens) ++ [.streamEnd]

theorem scanAll_partsText (part : Part) (parts : List Part) (line : Nat) (ts : List Token)
    {fuel : Nat} (hfuel : (partsText part parts).length < fuel) :
    (scanAll fuel (before (partsText part parts) line 0 ts [] true)).map (·.tokens) =
      some ((part.tokens ++ furtherTokens parts).reverse ++ ts) := by
  induction parts generalizing part line ts fuel with
  | nil =>
    obtain ⟨line', ts', indents, hindents, hleads, htokens⟩ :=
      part.leads_text (Or.inl rfl) line ts
    obtain ⟨fuel', hfuel', hscan⟩ := hleads.scanAll_eq hfuel
    obtain ⟨fuel', rfl⟩ : ∃ f, fuel' = f + 1 := ⟨fuel' - 1, by omega⟩
    rw [partsText, List.flatMap_nil, hscan, scanAll_end hindents, htokens]
    simp [furtherTokens]
  | cons next parts ih =>
    have htext : partsText part (next :: parts) =
        part.text ++ (separator ++ partsText next parts) := by
      simp [partsText]
    rw [htext] at hfuel ⊢
    obtain ⟨line', ts', indents, hindents, hleads, htokens⟩ :=
      part.leads_text (Or.inr ⟨partsText next parts, rfl⟩) line ts
    obtain ⟨fuel', hfuel', hscan⟩ := (hleads.trans (leads_separator hindents _)).scanAll_eq hfuel
    rw [hscan, ih next _ _ hfuel', htokens]
    simp [furtherTokens]

/-! ## Characters -/

theorem Part.printable_text (part : Part) : Printable part.text := by
  cases part with
  | record record =>
    exact printable_writeFields fun f hf afterKey ↦
      printable_writeNode (record.plain.2 f hf) afterKey 0
  | silence s =>
    refine Printable.append (fun c hc ↦ ?_) ?_
    · rw [List.eq_of_mem_replicate hc]
      decide
    · cases s.word with
      | none => exact .nil
      | some w =>
        have hword : Printable w.1 := (standsPlain_nullWord w.2).isPlain.printable
        exact hword.append (.cons (by decide) .nil)

theorem printable_partsText (part : Part) (parts : List Part) :
    Printable (partsText part parts) := by
  refine part.printable_text.append fun c hc ↦ ?_
  obtain ⟨next, -, hmem⟩ := List.mem_flatMap.mp hc
  have hseparator : Printable separator := List.all_eq_true.mp (by decide)
  exact hseparator.append next.printable_text c hmem

theorem tokenize_partsText (part : Part) (parts : List Part) :
    tokenize (partsText part parts) = some (part.tokens ++ furtherTokens parts) := by
  have hprintable := printable_partsText part parts
  have hscan := scanAll_partsText part parts 0 [] (Nat.lt_succ_self _)
  obtain ⟨s, hs, htokens⟩ := Option.map_eq_some_iff.mp hscan
  have hstart : Scanner.start (partsText part parts) =
      before (partsText part parts) 0 0 [] [] true := rfl
  rw [tokenize, all_admitted_of_printable hprintable, unifyBreaks_of_printable hprintable, hstart]
  simp [hs, htokens]

/-! ## Parsing -/

/-- A part that has tokens begins a document, and is parsed as the document that it is. -/
theorem Part.parseNode_tokens {part : Part} (hne : part.tokens ≠ []) (handles : TagHandles)
    (rest : List Token) {fuel : Nat} (hfuel : 2 * (part.tokens ++ rest).length < fuel) :
    parseNode handles fuel true false (part.tokens ++ rest) = some (part.node, rest) := by
  rw [List.length_append] at hfuel
  cases part with
  | record record =>
    exact (parses_of_plain record.plain).parse handles fuel false false rest (by simp)
      (by rw [tokens] at hfuel; simp; omega)
  | silence s =>
    obtain ⟨breaks, word⟩ := s
    cases word with
    | none => exact absurd rfl hne
    | some w =>
      obtain ⟨fuel, rfl⟩ : ∃ f, fuel = f + 1 := ⟨fuel - 1, by omega⟩
      exact parseNode_scalar true w.1 true

theorem Part.tokens_cases (part : Part) :
    (part.tokens = [] ∧ part.node = .missing ∧ part.tree? = none) ∨
      ∃ token ts, part.tokens = token :: ts ∧
        (token = .blockMappingStart ∨ ∃ text, token = .scalar text true) := by
  cases part with
  | record record => exact Or.inr ⟨_, _, record.tokens_eq, Or.inl rfl⟩
  | silence s =>
    obtain ⟨breaks, word⟩ := s
    cases word with
    | none => exact Or.inl ⟨rfl, rfl, rfl⟩
    | some w => exact Or.inr ⟨_, _, rfl, Or.inr ⟨w.1, rfl⟩⟩

/-- After a part comes a separator or the end of the stream. -/
theorem furtherTokens_cases (parts : List Part) :
    (parts = [] ∧ furtherTokens parts = [.streamEnd]) ∨
      ∃ part rest, parts = part :: rest ∧
        furtherTokens parts = .documentStart :: (part.tokens ++ furtherTokens rest) := by
  cases parts with
  | nil => exact Or.inl ⟨rfl, rfl⟩
  | cons part rest => exact Or.inr ⟨part, rest, rfl, by simp [furtherTokens]⟩

theorem head?_furtherTokens (parts : List Part) :
    (furtherTokens parts).head?.all (·.isDocumentBoundary) = true := by
  rcases furtherTokens_cases parts with ⟨-, h⟩ | ⟨part, rest, -, h⟩ <;> rw [h] <;> rfl

theorem afterDocument_furtherTokens (parts : List Part) :
    afterDocument (furtherTokens parts) = furtherTokens parts := by
  rcases furtherTokens_cases parts with ⟨-, h⟩ | ⟨part, rest, -, h⟩ <;> rw [h] <;> rfl

/-- The tokens of a document that is announced, where that document is not missing. -/
theorem parseExplicit_of_parseNode {ts rest : List Token} {node : TextNode}
    (hboundary : ts.head?.all (·.isDocumentBoundary) = false)
    (hparse : parseNode defaultHandles (2 * ts.length + 2) true false ts = some (node, rest)) :
    parseExplicit (.documentStart :: ts) = some (node, rest) := by
  simp [parseExplicit, parseDirectives, hboundary, hparse]

theorem parseExplicit_part (part : Part) (parts : List Part) :
    parseExplicit (.documentStart :: (part.tokens ++ furtherTokens parts)) =
      some (part.node, furtherTokens parts) := by
  rcases part.tokens_cases with ⟨htokens, hnode, -⟩ | ⟨token, ts, htokens, htoken⟩
  · rw [htokens, hnode, List.nil_append]
    simp [parseExplicit, parseDirectives, head?_furtherTokens parts]
  · have hne : part.tokens ≠ [] := by simp [htokens]
    refine parseExplicit_of_parseNode ?_ (part.parseNode_tokens hne _ _ (by omega))
    rw [htokens]
    rcases htoken with rfl | ⟨text, rfl⟩ <;> rfl

theorem parseDocuments_parts (parts : List Part) {fuel : Nat} (hfuel : parts.length < fuel) :
    parseDocuments fuel (furtherTokens parts) = some (parts.map Part.node) := by
  induction parts generalizing fuel with
  | nil =>
    obtain ⟨fuel, rfl⟩ : ∃ f, fuel = f + 1 := ⟨fuel - 1, by omega⟩
    rfl
  | cons part parts ih =>
    obtain ⟨fuel, rfl⟩ : ∃ f, fuel = f + 1 := ⟨fuel - 1, by omega⟩
    rw [List.length_cons] at hfuel
    have htokens : furtherTokens (part :: parts) =
        .documentStart :: (part.tokens ++ furtherTokens parts) := by simp [furtherTokens]
    have hdrop : (furtherTokens (part :: parts)).dropWhile (· == .documentEnd) =
        furtherTokens (part :: parts) := by
      rw [htokens]
      rfl
    rw [parseDocuments, hdrop, htokens]
    simp [parseExplicit_part, afterDocument_furtherTokens, ih (Nat.lt_of_succ_lt_succ hfuel)]

theorem length_lt_furtherTokens (parts : List Part) :
    parts.length < (furtherTokens parts).length := by
  induction parts with
  | nil => simp [furtherTokens]
  | cons part parts ih =>
    simp only [furtherTokens, List.flatMap_cons, List.length_append, List.length_cons] at ih ⊢
    omega

/-- A stream whose first document is not announced. -/
theorem parseStream_of_parseNode {token : Token} {ts rest : List Token} {node : TextNode}
    {nodes : List TextNode}
    (htoken : token = .blockMappingStart ∨ ∃ text, token = .scalar text true)
    (hparse : parseNode defaultHandles (2 * (token :: ts).length + 2) true false (token :: ts) =
      some (node, rest))
    (hrest : parseDocuments ((token :: ts).length + 1) (afterDocument rest) = some nodes) :
    parseStream (token :: ts) = some (node :: nodes) := by
  rcases htoken with rfl | ⟨text, rfl⟩ <;>
  · rw [parseStream, hparse]
    · simp only [Option.bind_eq_bind, Option.bind_some, hrest]
      rfl
    all_goals simp

/-- The documents of a stream are those of its parts, except that a stream may begin with a
separator and then has no document before it. -/
theorem parseStream_parts (part : Part) (parts : List Part) :
    ∃ nodes, parseStream (part.tokens ++ furtherTokens parts) = some nodes ∧
      (nodes = part.node :: parts.map Part.node ∨
        part.tree? = none ∧ nodes = parts.map Part.node) := by
  have hlength := length_lt_furtherTokens parts
  rcases part.tokens_cases with ⟨htokens, -, htree⟩ | ⟨token, ts, htokens, htoken⟩
  · -- nothing stands before the first separator, so it announces the first document
    refine ⟨parts.map Part.node, ?_, Or.inr ⟨htree, rfl⟩⟩
    rw [htokens, List.nil_append]
    have hparse := parseDocuments_parts parts (Nat.lt_succ_of_lt hlength)
    rcases furtherTokens_cases parts with ⟨rfl, h⟩ | ⟨next, rest, -, h⟩
    · rfl
    · rw [h] at hparse ⊢
      exact hparse
  · refine ⟨part.node :: parts.map Part.node, ?_, Or.inl rfl⟩
    have hparse := part.parseNode_tokens (by rw [htokens]; simp) defaultHandles
      (furtherTokens parts) (Nat.lt_add_of_pos_right (Nat.succ_pos 1))
    have hrest : parseDocuments ((part.tokens ++ furtherTokens parts).length + 1)
        (afterDocument (furtherTokens parts)) = some (parts.map Part.node) := by
      rw [afterDocument_furtherTokens]
      exact parseDocuments_parts parts (by rw [List.length_append]; omega)
    rw [htokens] at hparse hrest ⊢
    exact parseStream_of_parseNode htoken hparse hrest

/-! ## Values -/

theorem meaning_null {cs : List Char} (h : cs = [] ∨ isNullWord cs = true) :
    meaning cs = .null := by
  rw [meaning, if_pos]
  rcases h with rfl | h
  · rfl
  · rw [h, Bool.or_true]

/-- A document says what its part says. -/
theorem Part.documentValue_node (part : Part) :
    ∃ value, documentValue part.node = some value ∧
      ((value.isNull = true ∧ part.tree? = none) ∨
        (value.isNull = false ∧ part.tree? = some value.toTree)) := by
  cases part with
  | record record =>
    have hvalue := documentValue_nodeOf record.plain
    refine ⟨_, hvalue, Or.inr ⟨?_, ?_⟩⟩
    · rw [valueOf]
      rfl
    · rw [tree?, (hasValue_of_plain record.plain).tree]
  | silence s =>
    have hnull : meaning (s.word.elim [] (·.1)) = .null := by
      cases s.word with
      | none => exact meaning_null (Or.inl rfl)
      | some w => exact meaning_null (Or.inr w.2)
    have hvalue : untaggedValue (s.word.elim [] (·.1)) true = some .null := by
      simp [untaggedValue, plainValue, hnull]
    refine ⟨.null, ?_, Or.inl ⟨rfl, rfl⟩⟩
    simp [documentValue, StateT.run, node, link_scalar, nodeValue_scalar _ _ hvalue]

theorem mapM_documentValue (parts : List Part) :
    ∃ values, (parts.map Part.node).mapM documentValue = some values ∧
      (values.filter (!·.isNull)).map (·.toTree) = parts.filterMap Part.tree? := by
  induction parts with
  | nil => exact ⟨[], rfl, rfl⟩
  | cons part parts ih =>
    obtain ⟨values, hvalues, htrees⟩ := ih
    obtain ⟨value, hvalue, hsays⟩ := part.documentValue_node
    refine ⟨value :: values, by simp [hvalue, hvalues], ?_⟩
    rcases hsays with ⟨hnull, htree⟩ | ⟨hnull, htree⟩
    · rw [List.filterMap_cons_none htree, List.filter_cons_of_neg (by simp [hnull]), htrees]
    · rw [List.filterMap_cons_some htree, List.filter_cons_of_pos (by simp [hnull]), List.map_cons,
        htrees]

/-! ## Reading -/

theorem toList_stream (part : Part) (parts : List Part) :
    (stream ((part :: parts).map fun part ↦ String.ofList part.text)).toList =
      partsText part parts := by
  have hseparator : "---\n".toList = separator := by decide
  rw [stream, String.toList_intercalate, hseparator, List.map_map]
  induction parts generalizing part with
  | nil => simp [partsText, List.intercalate]
  | cons next parts ih =>
    have hrest := ih next
    rw [List.map_cons] at hrest
    rw [List.map_cons, List.map_cons, List.intercalate_cons_cons, hrest]
    simp [partsText]

/-- **A stream is read as the records among its parts, in their order.** -/
theorem read_stream (parts : List Part) :
    read (stream (parts.map fun part ↦ String.ofList part.text)) =
      some (parts.filterMap Part.tree?) := by
  cases parts with
  | nil => rfl
  | cons part parts =>
    obtain ⟨nodes, hnodes, hcases⟩ := parseStream_parts part parts
    have hread : ∀ {parts' : List Part}, nodes = parts'.map Part.node →
        read (stream ((part :: parts).map fun part ↦ String.ofList part.text)) =
          some (parts'.filterMap Part.tree?) := by
      rintro parts' rfl
      obtain ⟨values, hvalues, htrees⟩ := mapM_documentValue parts'
      rw [read, toList_stream, tokenize_partsText]
      simp [hnodes, hvalues, htrees]
    rcases hcases with hnodes | ⟨htree, hnodes⟩
    · exact hread (hnodes : nodes = (part :: parts).map Part.node)
    · rw [hread hnodes, List.filterMap_cons_none htree]

end Reachability.Yaml
