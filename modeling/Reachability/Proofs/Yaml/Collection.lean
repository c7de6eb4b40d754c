import Reachability.Proofs.Numeral
import Reachability.Proofs.PlainTree
import Reachability.Proofs.Yaml.Leaf

/-!
# Scanning trees

The tokens of a tree, and the scanner that finds them in the text of the tree. A collection opens a
block at the column where it begins, unless it is a list in the column of its key. The block is
closed once something is indented less, which is after the text of the collection; so a collection
is first followed with its block left open (`leads_items`, `leads_fields`).
-/

namespace Reachability.Yaml

/-! ## Tokens -/

mutual

/-- The tokens of a tree. A list after a key is not a block of its own. -/
def nodeTokens (afterKey : Bool) : Tree → List Token
  | .text s => [.scalar s.toList (isPlainStyle s.toList)]
  | .int n => [.scalar (toString n).toList true]
  | .list items =>
    if items.isEmpty then [.flowSequenceStart, .flowSequenceEnd]
    else if afterKey then itemTokens items
    else .blockSequenceStart :: (itemTokens items ++ [.blockEnd])
  | .record fields =>
    if fields.isEmpty then [.flowMappingStart, .flowMappingEnd]
    else .blockMappingStart :: (fieldTokens fields ++ [.blockEnd])
  | _ => []

/-- The tokens of the items of a list. -/
def itemTokens : List Tree → List Token
  | [] => []
  | item :: rest => .blockEntry :: (nodeTokens false item ++ itemTokens rest)

/-- The tokens of the fields of a record. -/
def fieldTokens : List (String × Tree) → List Token
  | [] => []
  | (name, value) :: rest =>
    .key :: .scalar name.toList (isPlainStyle name.toList) :: .value ::
      (nodeTokens (isSimpleKey name.toList) value ++ fieldTokens rest)

end

/-! ## Text -/

theorem writeItems_cons (indent : Nat) (item next : Tree) (rest : List Tree) :
    writeItems indent (item :: next :: rest) =
      '-' :: ' ' :: writeNode false indent item ++ spaces indent ++
        writeItems indent (next :: rest) := by
  rw [writeItems]
  simp

theorem writeFields_cons (indent : Nat) (name : String) (value : Tree) (next : String × Tree)
    (rest : List (String × Tree)) :
    writeFields indent ((name, value) :: next :: rest) =
      writeName indent name.toList ++ writeNode (isSimpleKey name.toList) indent value ++
        spaces indent ++ writeFields indent (next :: rest) := by
  rw [writeFields]
  simp

namespace Scanner

/-! ## Blocks -/

/-- What becomes of the tokens and the open blocks where a block is to be at a column: the block is
opened, or the innermost one is already there. -/
inductive Opens (t : Token) (column : Nat) :
    List Token → List Nat → List Token → List Nat → Prop
  | opened (tokens : List Token) {indents : List Nat} (h : ∀ i ∈ indents.head?, i < column) :
      Opens t column tokens indents (t :: tokens) (column :: indents)
  | inside (tokens : List Token) (indents : List Nat) :
      Opens t column tokens (column :: indents) tokens (column :: indents)

variable {t : Token} {line column : Nat} {tokens tokens' : List Token} {indents indents' : List Nat}

theorem Opens.head?_le (h : Opens t column tokens indents tokens' indents') :
    ∀ i ∈ indents.head?, i ≤ column := by
  cases h with
  | opened h => exact fun i hi ↦ Nat.le_of_lt (h i hi)
  | inside => exact Scanner.head?_le (Nat.le_refl column) _

theorem Opens.eq_cons (h : Opens t column tokens indents tokens' indents') :
    ∃ outer, indents' = column :: outer := by
  cases h with
  | opened => exact ⟨_, rfl⟩
  | inside => exact ⟨_, rfl⟩

theorem head?_lt {indent : Nat} (h : indent < column) (indents : List Nat) :
    ∀ i ∈ (indent :: indents).head?, i < column := by
  intro i hi
  rw [← Option.some.inj hi]
  exact h

theorem openBlock_opened {s : Scanner} (hflow : s.inFlow = false)
    (h : ∀ i ∈ s.indents.head?, i < column) :
    s.openBlock column = (true, { s with indents := column :: s.indents }) := by
  have hinner : s.innerColumn ≤ column := by
    rw [innerColumn]
    cases hhead : s.indents.head? with
    | none => exact Nat.zero_le _
    | some i => exact h i hhead
  simp [openBlock, hflow, hinner]

theorem openBlock_inside {s : Scanner} (h : s.indents.head? = some column) :
    s.openBlock column = (false, s) := by
  have hinner : ¬s.innerColumn ≤ column := by
    rw [innerColumn, h]
    exact Nat.not_succ_le_self column
  simp [openBlock, hinner]

theorem openBlockHere_eq (h : Opens t column tokens indents tokens' indents') (rest : List Char)
    (allowed : Bool) :
    (before rest line column tokens indents allowed).openBlockHere t =
      before rest line column tokens' indents' allowed := by
  cases h with
  | opened h =>
    rw [openBlockHere, before_cursor, openBlock_opened rfl h]
    rfl
  | inside => rw [openBlockHere, before_cursor, openBlock_inside rfl]

/-- A dash before an item. -/
theorem leads_dash (h : Opens .blockSequenceStart column tokens indents tokens' indents')
    (r : List Char) :
    Leads (before ('-' :: ' ' :: r) line column tokens indents true)
      (before (' ' :: r) line (column + 1) (.blockEntry :: tokens') indents' true) := by
  refine leads_fetch (by decide) h.head?_le ?_ (Nat.le_refl _)
  have hfetch : (before ('-' :: ' ' :: r) line column tokens indents true).fetchAt '-' (' ' :: r) =
      (before ('-' :: ' ' :: r) line column tokens indents true).fetchBlockEntry := by
    simp [fetchAt, Cursor.atMarker, atSpace, isBlank]
  rw [hfetch, fetchBlockEntry, openBlockHere_eq h]
  rfl

/-- A question mark before a key. -/
theorem leads_question (h : Opens .blockMappingStart column tokens indents tokens' indents')
    (r : List Char) :
    Leads (before ('?' :: ' ' :: r) line column tokens indents true)
      (before (' ' :: r) line (column + 1) (.key :: tokens') indents' true) := by
  refine leads_fetch (by decide) h.head?_le ?_ (Nat.le_refl _)
  have hfetch : (before ('?' :: ' ' :: r) line column tokens indents true).fetchAt '?' (' ' :: r) =
      (before ('?' :: ' ' :: r) line column tokens indents true).fetchKey := by
    simp [fetchAt, Cursor.atMarker, atSpace, isBlank]
  rw [hfetch, fetchKey, openBlockHere_eq h]
  rfl

/-- A colon on a line of its own. -/
theorem leads_colon (r : List Char) :
    Leads (before (':' :: ' ' :: r) line column tokens (column :: indents) true)
      (before (' ' :: r) line (column + 1) (.value :: tokens) (column :: indents) true) := by
  refine leads_fetch (by decide) (head?_le (Nat.le_refl column) indents) ?_ (Nat.le_refl _)
  have hfetch : ∀ s : Scanner, s.cursor = ⟨':' :: ' ' :: r, line, column⟩ →
      s.fetchAt ':' (' ' :: r) = s.fetchValue := fun s hs ↦ by
    simp [fetchAt, hs, Cursor.atMarker, atSpace, isBlank]
  rw [hfetch _ rfl, fetchValue]
  change (do
    if _ then none
    let s := (before (':' :: ' ' :: r) line column tokens (column :: indents) true).openBlockHere
      .blockMappingStart
    return { s with keyAllowed := !s.inFlow }.take 1 .value) = _
  rw [openBlockHere_eq (.inside _ _)]
  rfl

/-- A colon after a key on the same line. -/
theorem leads_keyColon (h : Opens .blockMappingStart column tokens indents tokens' indents')
    {column' : Nat} (hle : column ≤ column') (hnear : column' ≤ column + 1024) {r : List Char}
    (hr : atSpace r = true) (name : List Char) (plain : Bool) :
    Leads (afterScalar ⟨':' :: r, line, column'⟩ name plain line column tokens indents true false)
      (before r line (column' + 1) (.value :: .scalar name plain :: .key :: tokens') indents'
        false) := by
  obtain ⟨s, hs⟩ : ∃ s, s = afterScalar ⟨':' :: r, line, column'⟩ name plain line column tokens
    indents true false := ⟨_, rfl⟩
  rw [← hs]
  have hsettle : s.settle = some s := by
    have hskip : s.skipSpace (s.cursor.rest.length + 1) = s := by
      have hword : AtWord isGap (':' :: r) := atWord_cons (by decide) r
      rw [skipSpace_spaces (k := 0) hword (by rw [hs]; rfl), hs]
      rfl
    have hstop : s.closeBlocks (s.cursor.column < ·) = s := by
      refine closeBlocks_stop fun i hi ↦ ?_
      rw [hs] at hi ⊢
      exact Nat.le_trans (h.head?_le i hi) hle
    rw [settle, hskip, dropStaleKeys_reachable (s := s)
      (k := ⟨indents.head? == some column, tokens.length, line, column⟩) (by rw [hs]; rfl)
      (by rw [hs]; rfl) (by rw [hs]; exact hnear)]
    change some (s.closeBlocks (s.cursor.column < ·)) = some s
    rw [hstop]
  have hfetch : s.fetchAt ':' r = s.fetchValue := by
    rw [hs]
    simp [fetchAt, Cursor.atMarker, hr, afterScalar]
  refine Leads.of_fetch hsettle (by rw [hs]; rfl) (hfetch.trans ?_) (by rw [hs]; simp [afterScalar])
  rw [hs]
  -- the scalar turns out to be a key: what announces the key goes in before the scalar
  cases h with
  | opened h =>
    simp only [fetchValue, afterScalar, keyHere, if_true, List.head?_cons, Option.join_some]
    rw [openBlock_opened rfl h]
    simp [insertAt, setKey, take, emit, before, Cursor.skip, List.splitAt_eq]
  | inside =>
    simp only [fetchValue, afterScalar, keyHere, if_true, List.head?_cons, Option.join_some]
    rw [openBlock_inside rfl]
    simp [insertAt, setKey, take, emit, before, Cursor.skip, List.splitAt_eq]

/-! ## Nodes -/

/-- The text of the tree, inside a block at some column, is read as the tokens of the tree. It
begins two columns further, or anywhere after the colon of a key. What follows on the next line is
indented no more than the block. -/
structure Scans (t : Tree) : Prop where
  begins (indent : Nat) : ∃ c rest, writeNode false indent t = c :: rest ∧ isGap c = false
  spaced (indent : Nat) : ∃ c rest, writeNode true indent t = c :: rest ∧ isSpace c = true
  leads (afterKey : Bool) (indent line column k : Nat) (tokens : List Token) (indents : List Nat)
    (tail : List Char) : indent < column → (afterKey = false → column = indent + 2) → k ≤ indent →
    AtWord isGap tail →
    ∃ line', Leads (before (writeNode afterKey indent t ++ (spaces k ++ tail)) line column tokens
        (indent :: indents) !afterKey)
      (before tail line' k ((nodeTokens afterKey t).reverse ++ tokens) (indent :: indents) true)

theorem Scans.atWord {t : Tree} (h : Scans t) (indent : Nat) (r : List Char) :
    AtWord isGap (writeNode false indent t ++ r) := by
  obtain ⟨c, cs, hcs, hc⟩ := h.begins indent
  rw [hcs]
  exact atWord_cons hc _

theorem Scans.atSpace {t : Tree} (h : Scans t) (indent : Nat) (r : List Char) :
    atSpace (writeNode true indent t ++ r) = true := by
  obtain ⟨c, cs, hcs, hc⟩ := h.spaced indent
  rw [hcs]
  exact hc

/-- A tree that is written on one line, or as a single scalar. -/
theorem scans_leaf {t : Tree} (text : Nat → List Char) (ts : List Token)
    (htext : ∀ afterKey indent, writeNode afterKey indent t =
      (if afterKey then [' '] else []) ++ text indent)
    (htokens : ∀ afterKey, nodeTokens afterKey t = ts)
    (h : ∀ indent, Leaf indent (text indent) ts) : Scans t := by
  refine ⟨fun indent ↦ ?_, fun indent ↦ ⟨' ', text indent, htext true indent, by decide⟩, ?_⟩
  · rw [htext]
    exact (h indent).begins
  · intro afterKey indent line column k tokens indents tail hcolumn _ hk htail
    rw [htext, htokens]
    cases afterKey with
    | false => exact (h indent).leads line column k tokens indents true tail hcolumn hk htail
    | true =>
      obtain ⟨line', hleads⟩ := (h indent).leads line (column + 1) k tokens indents false tail
        (Nat.lt_succ_of_lt hcolumn) hk htail
      exact ⟨line', (leads_space ((h indent).atWord _)).trans hleads⟩

/-! ## Items -/

theorem writeItems_begins (indent : Nat) (item : Tree) (rest : List Tree) :
    ∃ cs, writeItems indent (item :: rest) = '-' :: cs := by
  cases rest with
  | nil => exact ⟨_, by rw [writeItems]⟩
  | cons next rest => exact ⟨_, by rw [writeItems_cons, List.cons_append, List.cons_append]⟩

theorem atWord_writeItems (indent : Nat) (item : Tree) (rest : List Tree) (r : List Char) :
    AtWord isGap (writeItems indent (item :: rest) ++ r) := by
  obtain ⟨cs, hcs⟩ := writeItems_begins indent item rest
  rw [hcs]
  exact atWord_cons (by decide) _

/-- An item is read. -/
theorem leads_item (line : Nat) {item : Tree} (hitem : Scans item)
    (hopen : Opens .blockSequenceStart column tokens indents tokens' indents') {k : Nat}
    (hk : k ≤ column) {tail : List Char} (htail : AtWord isGap tail) :
    ∃ line', Leads
      (before ('-' :: ' ' :: (writeNode false column item ++ (spaces k ++ tail))) line column tokens
        indents true)
      (before tail line' k ((itemTokens [item]).reverse ++ tokens') indents' true) := by
  obtain ⟨outer, rfl⟩ := hopen.eq_cons
  obtain ⟨line', hleads⟩ := hitem.leads false column line (column + 1 + 1) k
    (.blockEntry :: tokens') outer tail (by omega) (fun _ ↦ rfl) hk htail
  refine ⟨line', (leads_dash hopen _).trans ((leads_space (hitem.atWord column _)).trans ?_)⟩
  simpa [itemTokens] using hleads

/-- The items of a list are read, in a block that is opened by the first of them or was open
before. -/
theorem leads_items (line : Nat) {items : List Tree} (hitems : ∀ t ∈ items, Scans t)
    (hne : items ≠ []) (hopen : Opens .blockSequenceStart column tokens indents tokens' indents')
    {k : Nat} (hk : k ≤ column) {tail : List Char} (htail : AtWord isGap tail) :
    ∃ line', Leads
      (before (writeItems column items ++ (spaces k ++ tail)) line column tokens indents true)
      (before tail line' k ((itemTokens items).reverse ++ tokens') indents' true) := by
  induction items generalizing line tokens indents tokens' with
  | nil => exact absurd rfl hne
  | cons item rest ih =>
    obtain ⟨hitem, hrest⟩ := List.forall_mem_cons.mp hitems
    cases rest with
    | nil =>
      obtain ⟨line', hleads⟩ := leads_item line hitem hopen hk htail
      exact ⟨line', by simpa [writeItems] using hleads⟩
    | cons next rest =>
      have hword := atWord_writeItems column next rest (spaces k ++ tail)
      obtain ⟨line₁, hfirst⟩ := leads_item line hitem hopen (Nat.le_refl column) hword
      obtain ⟨outer, rfl⟩ := hopen.eq_cons
      obtain ⟨line', hothers⟩ := ih line₁ hrest (by simp) (.inside _ _)
      refine ⟨line', ?_⟩
      rw [writeItems_cons]
      simpa [itemTokens] using hfirst.trans hothers

/-! ## Fields -/

theorem writeName_begins (indent : Nat) (name : List Char) :
    ∃ c cs, writeName indent name = c :: cs ∧ isGap c = false := by
  rw [writeName]
  split
  · rename_i hsimple
    obtain ⟨c, cs, hcs, hc⟩ := writeKey_begins hsimple
    exact ⟨c, cs ++ [':'], by rw [hcs, List.cons_append], hc⟩
  · exact ⟨'?', _, rfl, by decide⟩

theorem writeFields_begins (indent : Nat) (field : String × Tree) (rest : List (String × Tree)) :
    ∃ c cs, writeFields indent (field :: rest) = c :: cs ∧ isGap c = false := by
  obtain ⟨name, value⟩ := field
  obtain ⟨c, cs, hcs, hc⟩ := writeName_begins indent name.toList
  cases rest with
  | nil => exact ⟨c, _, by rw [writeFields, hcs, List.cons_append], hc⟩
  | cons next rest =>
    rw [writeFields_cons, hcs]
    exact ⟨c, _, rfl, hc⟩

theorem atWord_writeFields (indent : Nat) (field : String × Tree) (rest : List (String × Tree))
    (r : List Char) : AtWord isGap (writeFields indent (field :: rest) ++ r) := by
  obtain ⟨c, cs, hcs, hc⟩ := writeFields_begins indent field rest
  rw [hcs]
  exact atWord_cons hc _

/-- A field is read. -/
theorem leads_field (line : Nat) (name : String) {value : Tree} (hvalue : Scans value)
    (hopen : Opens .blockMappingStart column tokens indents tokens' indents') {k : Nat}
    (hk : k ≤ column) {tail : List Char} (htail : AtWord isGap tail) :
    ∃ line', Leads
      (before (writeName column name.toList ++ (writeNode (isSimpleKey name.toList) column value ++
        (spaces k ++ tail))) line column tokens indents true)
      (before tail line' k ((fieldTokens [(name, value)]).reverse ++ tokens') indents' true) := by
  obtain ⟨outer, rfl⟩ := hopen.eq_cons
  have htokens : (fieldTokens [(name, value)]).reverse ++ tokens' =
      (nodeTokens (isSimpleKey name.toList) value).reverse ++
        (.value :: .scalar name.toList (isPlainStyle name.toList) :: .key :: tokens') := by
    simp [fieldTokens]
  rw [htokens]
  cases hsimple : isSimpleKey name.toList with
  | true =>
    have hspace := hvalue.atSpace column (spaces k ++ tail)
    obtain ⟨column', hle, hnear, hkey⟩ := leads_writeKey hsimple hspace hopen.head?_le line tokens
    obtain ⟨line', hleads⟩ := hvalue.leads true column line (column' + 1) k _ outer tail (by omega)
      (by simp) hk htail
    refine ⟨line', ?_⟩
    rw [writeName, hsimple, if_pos rfl, List.append_assoc, List.singleton_append]
    exact hkey.trans ((leads_keyColon hopen hle hnear hspace _ _).trans hleads)
  | false =>
    have hleaf := leaf_writeText column name.toList
    obtain ⟨line₁, hname⟩ := hleaf.leads line (column + 1 + 1) column (.key :: tokens') outer true
      (':' :: ' ' :: (writeNode false column value ++ (spaces k ++ tail))) (by omega)
      (Nat.le_refl column) (atWord_cons (by decide) _)
    obtain ⟨line', hleads⟩ := hvalue.leads false column line₁ (column + 1 + 1) k
      (.value :: .scalar name.toList (isPlainStyle name.toList) :: .key :: tokens') outer tail
      (by omega) (fun _ ↦ rfl) hk htail
    have hrest := hname.trans
      ((leads_colon _).trans ((leads_space (hvalue.atWord column _)).trans hleads))
    have hquestion := (leads_question hopen _).trans ((leads_space (hleaf.atWord _)).trans hrest)
    refine ⟨line', ?_⟩
    rw [writeName, hsimple]
    simpa using hquestion

/-- The fields of a record are read. -/
theorem leads_fields (line : Nat) {fields : List (String × Tree)}
    (hfields : ∀ f ∈ fields, Scans f.2) (hne : fields ≠ [])
    (hopen : Opens .blockMappingStart column tokens indents tokens' indents')
    {k : Nat} (hk : k ≤ column) {tail : List Char} (htail : AtWord isGap tail) :
    ∃ line', Leads
      (before (writeFields column fields ++ (spaces k ++ tail)) line column tokens indents true)
      (before tail line' k ((fieldTokens fields).reverse ++ tokens') indents' true) := by
  induction fields generalizing line tokens indents tokens' with
  | nil => exact absurd rfl hne
  | cons field rest ih =>
    obtain ⟨name, value⟩ := field
    obtain ⟨hvalue, hrest⟩ := List.forall_mem_cons.mp hfields
    cases rest with
    | nil =>
      obtain ⟨line', hleads⟩ := leads_field line name hvalue hopen hk htail
      exact ⟨line', by simpa [writeFields] using hleads⟩
    | cons next rest =>
      have hword := atWord_writeFields column next rest (spaces k ++ tail)
      obtain ⟨line₁, hfirst⟩ := leads_field line name hvalue hopen (Nat.le_refl column) hword
      obtain ⟨outer, rfl⟩ := hopen.eq_cons
      obtain ⟨line', hothers⟩ := ih line₁ hrest (by simp) (.inside _ _)
      refine ⟨line', ?_⟩
      rw [writeFields_cons]
      simpa [fieldTokens] using hfirst.trans hothers

/-! ## Trees -/

theorem scans_text (s : String) : Scans (.text s) := by
  refine scans_leaf (fun indent ↦ writeText indent s.toList) _ (fun afterKey indent ↦ ?_)
    (fun afterKey ↦ ?_) fun indent ↦ leaf_writeText indent s.toList
  · simp [writeNode, writeLeaf]
  · simp [nodeTokens]

theorem scans_list {items : List Tree} (h : ∀ t ∈ items, Scans t) : Scans (.list items) := by
  cases items with
  | nil =>
    refine scans_leaf (fun _ ↦ ['[', ']', '\n']) _ (fun afterKey indent ↦ ?_)
      (fun afterKey ↦ ?_) fun indent ↦ leaf_brackets .sequence
    · simp [writeNode, writeLeaf]
    · simp [nodeTokens]
  | cons item rest =>
    have hblock : ∀ indent, writeNode false indent (.list (item :: rest)) =
        writeItems (indent + 2) (item :: rest) := fun indent ↦ by simp [writeNode]
    have hvalue : ∀ indent, writeNode true indent (.list (item :: rest)) =
        '\n' :: spaces indent ++ writeItems indent (item :: rest) := fun indent ↦ by
      simp [writeNode]
    refine ⟨fun indent ↦ ?_, fun indent ↦ ⟨'\n', _, hvalue indent, by decide⟩, ?_⟩
    · obtain ⟨cs, hcs⟩ := writeItems_begins (indent + 2) item rest
      exact ⟨'-', cs, (hblock indent).trans hcs, by decide⟩
    · intro afterKey indent line column k tokens indents tail hcolumn hplace hk htail
      cases afterKey with
      | false =>
        obtain rfl := hplace rfl
        obtain ⟨line', hleads⟩ := leads_items line h (by simp)
          (.opened tokens (head?_lt hcolumn indents)) (Nat.le_add_right_of_le hk) htail
        refine ⟨line', ?_⟩
        rw [hblock]
        simpa [nodeTokens] using hleads.trans (leads_close htail (by omega))
      | true =>
        have hword := atWord_writeItems indent item rest (spaces k ++ tail)
        obtain ⟨line', hleads⟩ := leads_items (line + 1) h (by simp)
          (.inside tokens indents) hk htail
        refine ⟨line', ?_⟩
        rw [hvalue, List.cons_append, List.cons_append, List.append_assoc]
        simpa [nodeTokens] using (leads_nextLine hword).trans hleads

theorem scans_record {fields : List (String × Tree)} (h : ∀ f ∈ fields, Scans f.2) :
    Scans (.record fields) := by
  cases fields with
  | nil =>
    refine scans_leaf (fun _ ↦ ['\x7b', '\x7d', '\n']) _ (fun afterKey indent ↦ ?_)
      (fun afterKey ↦ ?_) fun indent ↦ leaf_brackets .mapping
    · simp [writeNode, writeLeaf]
    · simp [nodeTokens]
  | cons field rest =>
    have hblock : ∀ indent, writeNode false indent (.record (field :: rest)) =
        writeFields (indent + 2) (field :: rest) := fun indent ↦ by simp [writeNode]
    have hvalue : ∀ indent, writeNode true indent (.record (field :: rest)) =
        '\n' :: spaces (indent + 2) ++ writeFields (indent + 2) (field :: rest) :=
      fun indent ↦ by simp [writeNode]
    refine ⟨fun indent ↦ ?_, fun indent ↦ ⟨'\n', _, hvalue indent, by decide⟩, ?_⟩
    · rw [hblock]
      exact writeFields_begins (indent + 2) field rest
    · intro afterKey indent line column k tokens indents tail hcolumn hplace hk htail
      have hword := atWord_writeFields (indent + 2) field rest (spaces k ++ tail)
      have hfields := fun line ↦ leads_fields line h (by simp)
        (.opened tokens (head?_lt (Nat.lt_add_of_pos_right (Nat.succ_pos 1)) indents))
        (Nat.le_add_right_of_le hk) htail
      cases afterKey with
      | false =>
        obtain rfl := hplace rfl
        obtain ⟨line', hleads⟩ := hfields line
        refine ⟨line', ?_⟩
        rw [hblock]
        simpa [nodeTokens] using hleads.trans (leads_close htail (by omega))
      | true =>
        obtain ⟨line', hleads⟩ := hfields (line + 1)
        refine ⟨line', ?_⟩
        rw [hvalue, List.cons_append, List.cons_append, List.append_assoc]
        simpa [nodeTokens] using
          (leads_nextLine hword).trans (hleads.trans (leads_close htail (by omega)))

theorem scans_int {n : Int} (h : 0 ≤ n) : Scans (.int n) := by
  obtain ⟨m, rfl⟩ := Int.eq_ofNat_of_zero_le h
  refine scans_leaf (fun _ ↦ Nat.toDigits 10 m ++ ['\n'])
    [.scalar (Nat.toDigits 10 m) true] (fun afterKey indent ↦ ?_) (fun afterKey ↦ ?_)
    fun indent ↦ leaf_plain (standsPlain_digits Nat.toDigits_ne_nil
      fun c hc ↦ Text.isDigit_of_mem_toDigits hc)
  · simp only [writeNode, writeLeaf, Text.toList_toString_natCast]
  · simp only [nodeTokens, Text.toList_toString_natCast]

/-- The scanner finds the tokens of a tree of plain data in its text. -/
theorem scans_of_plain {depth : Nat} {t : Tree} (h : t.Plain depth) : Scans t := by
  induction h using Tree.Plain.induction with
  | text depth s => exact scans_text s
  | int depth n hn => exact scans_int hn.1
  | list depth items _ ih => exact scans_list ih
  | record depth fields _ _ ih => exact scans_record ih

end Scanner

end Reachability.Yaml
