import Reachability.Proofs.Yaml.Scanner

/-!
# Scanning texts

In whatever style a text is written, the scanner makes one scalar of it. At the end of a line it
then stands at what follows the indentation of the next line; before a colon it makes a key of it.
-/

namespace Reachability.Yaml

/-! ## Styles -/

theorem needsEscapes_eq_false {cs : List Char} (h : needsEscapes cs = false) :
    hasPair (· == ' ') breaksLine cs = false ∧ ∀ c ∈ cs, isPrintable c := by
  rw [needsEscapes, Bool.or_eq_false_iff, Bool.not_eq_false', List.all_eq_true] at h
  exact h

theorem isSingle_of_allowed {cs : List Char} (h : singleQuotedAllowed cs = true)
    (hfeed : '\n' ∉ cs) : IsSingle cs := by
  rw [singleQuotedAllowed, Bool.and_eq_true, Bool.not_eq_true', Bool.not_eq_true'] at h
  obtain ⟨hunspaced, hprintable⟩ := needsEscapes_eq_false h.2
  exact ⟨hprintable, hfeed, hunspaced, h.1⟩

/-- What the choice of a style says about a text. -/
theorem styleOf_cases (cs : List Char) :
    (styleOf cs = .plain ∧ looksOther cs = false ∧ plainAllowed cs = true) ∨
      (styleOf cs = .singleQuoted ∧ IsSingle cs) ∨ styleOf cs = .doubleQuoted ∨
      (styleOf cs = .literal ∧ '\n' ∈ cs ∧ ∀ c ∈ cs, isPrintable c) := by
  rw [styleOf]
  split
  · rename_i hfeed
    split
    · rename_i hliteral
      rw [literalAllowed, Bool.and_eq_true, Bool.not_eq_true'] at hliteral
      exact Or.inr (Or.inr (Or.inr
        ⟨rfl, List.contains_iff_mem.mp hfeed, (needsEscapes_eq_false hliteral.2).2⟩))
    · exact Or.inr (Or.inr (Or.inl rfl))
  · rename_i hfeed
    have hunfed : '\n' ∉ cs := fun hmem ↦ hfeed (List.contains_iff_mem.mpr hmem)
    split
    · rename_i hplain
      rw [Bool.and_eq_true, Bool.not_eq_true'] at hplain
      exact Or.inl ⟨rfl, hplain⟩
    · split
      · rename_i hsingle
        exact Or.inr (Or.inl ⟨rfl, isSingle_of_allowed hsingle hunfed⟩)
      · exact Or.inr (Or.inr (Or.inl rfl))

/-- Whether a text is written plain. -/
def isPlainStyle (cs : List Char) : Bool := styleOf cs == .plain

/-- A text that can stand plain. -/
structure StandsPlain (cs : List Char) : Prop where
  nonempty : cs ≠ []
  allowed : plainAllowed cs = true

theorem standsPlain {cs : List Char} (hother : looksOther cs = false) (h : plainAllowed cs = true) :
    StandsPlain cs := by
  refine ⟨?_, h⟩
  rintro rfl
  exact absurd hother (by decide)

namespace StandsPlain

variable {cs : List Char} (h : StandsPlain cs)

include h

/-- How a text that can stand plain begins. -/
theorem begins : ∃ c rest, cs = c :: rest ∧ leadingIndicators.contains c = false ∧
    (spacedIndicators.contains c && rest.head?.all separates) = false := by
  obtain ⟨hne, h⟩ := h
  obtain ⟨c, rest, rfl⟩ := List.exists_cons_of_ne_nil hne
  simp only [plainAllowed, Bool.and_eq_true, Bool.not_eq_true', hasIndicators,
    Bool.or_eq_false_iff] at h
  exact ⟨c, rest, rfl, h.2.1.1.2, h.2.1.2⟩

theorem isPlain : IsPlain 'a' cs := by
  obtain ⟨c, rest, rfl, hleading, hspaced⟩ := h.begins
  have hallowed := h.allowed
  simp only [plainAllowed, keepsSpace, Bool.and_eq_true, Bool.not_eq_true', hasIndicators,
    Bool.or_eq_false_iff] at hallowed
  obtain ⟨⟨⟨⟨-, hlast⟩, hbreaks⟩, hescapes⟩, -, hinterrupts⟩ := hallowed
  refine ⟨(needsEscapes_eq_false hescapes).2, by simpa using hbreaks, ?_, fun heq ↦ ?_⟩
  · rw [interrupts, hinterrupts, Bool.or_false, Bool.or_eq_false_iff]
    refine ⟨?_, by simp [show separates 'a' = false by decide]⟩
    by_cases hc : c = ':'
    · subst hc
      exact hspaced
    · simp [hc]
  · simp [heq] at hlast

theorem head_ne_space : cs.head? ≠ some ' ' := by
  have hallowed := h.allowed
  simp only [plainAllowed, keepsSpace, Bool.and_eq_true] at hallowed
  intro heq
  simp [heq] at hallowed

theorem head_ne_hash : cs.head? ≠ some '#' := by
  obtain ⟨c, rest, rfl, hleading, -⟩ := h.begins
  intro heq
  rw [Option.some.inj heq] at hleading
  exact absurd hleading (by decide)

/-- The text does not begin a document, whatever comes after it on the line. -/
theorem atDocumentMarker {d : Char} (hd : d = ':' ∨ d = '\n') (r : List Char) (line column : Nat) :
    Cursor.atDocumentMarker ⟨cs ++ d :: r, line, column⟩ = false := by
  have hmarkers : ∀ e : Char, (e = '-' ∨ e = '.') →
      [e, e, e].isPrefixOf (cs ++ d :: r) = false := by
    obtain ⟨hne, h⟩ := h
    obtain ⟨c, rest, rfl⟩ := List.exists_cons_of_ne_nil hne
    simp only [plainAllowed, Bool.and_eq_true, Bool.not_eq_true', hasIndicators,
      Bool.or_eq_false_iff] at h
    obtain ⟨-, ⟨⟨⟨hdashes, hdots⟩, -⟩, -⟩, -⟩ := h
    intro e he
    have hed : (e == d) = false := by
      rcases he with rfl | rfl <;> rcases hd with rfl | rfl <;> decide
    have hprefix : [e, e, e].isPrefixOf (c :: rest) = false := by
      rcases he with rfl | rfl
      · exact hdashes
      · exact hdots
    rcases rest with _ | ⟨c', _ | ⟨c'', rest⟩⟩
    · simp [List.isPrefixOf, hed]
    · simp [List.isPrefixOf, hed]
    · exact hprefix
  simp [Cursor.atDocumentMarker, Cursor.atMarker, hmarkers]

end StandsPlain

theorem ne_of_isDigit {c d : Char} (h : c.isDigit) (hd : d.isDigit = false) : c ≠ d := by
  rintro rfl
  exact absurd h (by simp [hd])

theorem isVisible_of_isDigit {c : Char} (h : c.isDigit) : IsVisible c := by
  simp only [Char.isDigit, Bool.and_eq_true, decide_eq_true_eq] at h
  have hlow : 48 ≤ c.toNat := h.1
  have hhigh : c.toNat ≤ 57 := h.2
  exact ⟨by omega, by omega⟩

theorem interrupts_digits {cs : List Char} (h : ∀ c ∈ cs, c.isDigit) (before : Char) :
    interrupts before cs = false := by
  induction cs generalizing before with
  | nil => rfl
  | cons c cs ih =>
    obtain ⟨hc, hcs⟩ := List.forall_mem_cons.mp h
    have hcolon : c ≠ ':' := ne_of_isDigit hc (by decide)
    have hhash : c ≠ '#' := ne_of_isDigit hc (by decide)
    simp [interrupts, hcolon, hhash, ih hcs]

theorem standsPlain_digits {cs : List Char} (hne : cs ≠ []) (h : ∀ c ∈ cs, c.isDigit) :
    StandsPlain cs := by
  have hvisible : ∀ c ∈ cs, IsVisible c := fun c hc ↦ isVisible_of_isDigit (h c hc)
  have hspace : ∀ c ∈ cs, c ≠ ' ' := fun c hc ↦ ne_of_isDigit (h c hc) (by decide)
  have hbreak : ∀ c ∈ cs, breaksLine c = false := fun c hc ↦ by
    rw [← isBreak_eq_breaksLine (hvisible c hc).isPrintable, (hvisible c hc).isBreak]
  have hkeeps : keepsSpace cs = true := by
    rw [keepsSpace, List.any_eq_false.mpr (by simpa using hbreak)]
    simp only [Bool.and_eq_true, Option.all_eq_true, bne_iff_ne]
    exact ⟨⟨fun c hc ↦ hspace c (List.mem_of_mem_head? hc),
      fun c hc ↦ hspace c (List.mem_of_getLast? hc)⟩, rfl⟩
  have hescapes : needsEscapes cs = false := by
    rw [needsEscapes, Bool.or_eq_false_iff, Bool.not_eq_false', List.all_eq_true]
    refine ⟨?_, fun c hc ↦ (hvisible c hc).isPrintable⟩
    rw [hasPair, List.any_eq_false]
    rintro ⟨a, b⟩ hab
    simp [hspace a (List.of_mem_zip hab).1]
  have hindicators : hasIndicators cs = false := by
    obtain ⟨c, rest, rfl⟩ := List.exists_cons_of_ne_nil hne
    obtain ⟨hc, hrest⟩ := List.forall_mem_cons.mp h
    have hindicators : (leadingIndicators ++ spacedIndicators ++ ['-', '.']).all (!·.isDigit) := by
      decide
    have hnot : c ∉ leadingIndicators ++ spacedIndicators ++ ['-', '.'] :=
      fun hmem ↦ absurd hc (by simpa using List.all_eq_true.mp hindicators c hmem)
    simp only [List.mem_append, List.mem_cons, List.not_mem_nil, or_false, not_or] at hnot
    obtain ⟨⟨hleading, hspaced⟩, hdash, hdot⟩ := hnot
    simp [hasIndicators, List.isPrefixOf, Ne.symm hdash, Ne.symm hdot, hleading, hspaced,
      interrupts_digits hrest]
  refine ⟨hne, ?_⟩
  rw [plainAllowed, hkeeps, hescapes, hindicators]
  rfl

namespace Scanner

/-! ## Texts at the end of a line -/

/-- The text, at the end of a line inside a block at column `indent`, is read as the given tokens.
What follows on the next line is indented no more than the block. -/
structure Leaf (indent : Nat) (text : List Char) (ts : List Token) : Prop where
  begins : ∃ c rest, text = c :: rest ∧ isGap c = false
  leads (line column k : Nat) (tokens : List Token) (indents : List Nat) (allowed : Bool)
    (tail : List Char) : indent < column → k ≤ indent → AtWord isGap tail →
    ∃ line', Leads
      (before (text ++ (spaces k ++ tail)) line column tokens (indent :: indents) allowed)
      (before tail line' k (ts.reverse ++ tokens) (indent :: indents) true)

variable {indent : Nat}

theorem Leaf.atWord {text : List Char} {ts : List Token} (h : Leaf indent text ts) (r : List Char) :
    AtWord isGap (text ++ r) := by
  obtain ⟨c, rest, rfl, hc⟩ := h.begins
  exact atWord_cons hc _

/-- A key that is not at the column of the block lapses on the next line. -/
theorem lapsed_keyHere {line line' column : Nat} (hcolumn : indent < column) (hline : line < line')
    (tokens : List Token) (indents : List Nat) (allowed : Bool) :
    Lapsed (keyHere line column tokens (indent :: indents) allowed) line' := by
  cases allowed with
  | false => exact fun k hk ↦ absurd hk (by simp [keyHere])
  | true =>
    intro k hk
    obtain rfl := Option.some.inj hk
    exact ⟨beq_eq_false_iff_ne.mpr fun heq ↦ Nat.ne_of_lt hcolumn (Option.some.inj heq), hline⟩

/-- After a scalar, the scanner goes on at the next line. -/
theorem leads_afterScalar_newline {r : List Char} (hr : AtWord isGap r) {line line' column : Nat}
    (hcolumn : indent < column) (hline : line ≤ line') (column' k : Nat) (text : List Char)
    (plain : Bool) (tokens : List Token) (indents : List Nat) (allowed start : Bool) :
    Leads (afterScalar ⟨'\n' :: (spaces k ++ r), line', column'⟩ text plain line column tokens
        (indent :: indents) allowed start)
      (before r (line' + 1) k (.scalar text plain :: tokens) (indent :: indents) true) :=
  leads_newline hr (lapsed_keyHere hcolumn (Nat.lt_succ_of_le hline) tokens indents allowed)

theorem isGap_of_isPrintable {c : Char} (hprintable : isPrintable c) (hbreak : breaksLine c = false)
    (hspace : c ≠ ' ') (hhash : c ≠ '#') : isGap c = false := by
  have hmark : c.toNat ≠ 0xFEFF := by
    rw [isPrintable_iff] at hprintable
    omega
  rw [isGap, isSpace, isBlank_eq_space hprintable, isBreak_eq_breaksLine hprintable, hbreak,
    beq_eq_false_iff_ne.mpr hspace, beq_eq_false_iff_ne.mpr hhash, beq_eq_false_iff_ne.mpr hmark]
  rfl

/-- A plain text begins with none of the characters between tokens. -/
theorem isGap_head {cs : List Char} (h : StandsPlain cs) :
    ∃ c rest, cs = c :: rest ∧ isGap c = false := by
  have hplain := h.isPlain
  obtain ⟨d, rest, rfl, -, -⟩ := h.begins
  exact ⟨d, rest, rfl, isGap_of_isPrintable (hplain.printable d (by simp))
    (hplain.unbroken d (by simp)) (fun heq ↦ h.head_ne_space (by simp [heq]))
    (fun heq ↦ h.head_ne_hash (by simp [heq]))⟩

theorem leads_plain {cs : List Char} (h : StandsPlain cs) {line column : Nat} {tokens : List Token}
    {indents : List Nat} (hindents : ∀ i ∈ indents.head?, i ≤ column) {tail : List Char}
    {start : Bool} {c : Cursor} (allowed : Bool)
    (hends : PlainEnds (indents.head?.elim 0 (· + 1)) line (column + cs.length) tail start c) :
    Leads (before (cs ++ tail) line column tokens indents allowed)
      (afterScalar c cs true line column tokens indents allowed start) := by
  have hplain := h.isPlain
  obtain ⟨d', rest', hcs, hgap⟩ := isGap_head h
  obtain ⟨d, rest, rfl, hleading, hspaced⟩ := h.begins
  obtain rfl := (List.cons.inj hcs).1
  have hmarker : Cursor.atDocumentMarker ⟨d :: rest ++ tail, line, column⟩ = false := by
    cases hends with
    | colon => exact h.atDocumentMarker (Or.inl rfl) _ line column
    | newline => exact h.atDocumentMarker (Or.inr rfl) _ line column
  have hcolumn : indents.head?.elim 0 (· + 1) ≤ column + 1 := by
    cases indents with
    | nil => exact Nat.zero_le _
    | cons i indents => exact Nat.succ_le_succ (hindents i rfl)
  have htail : 0 < tail.length := by cases hends <;> simp
  have hscan := scanPlain_text hplain h.nonempty h.head_ne_space h.head_ne_hash hcolumn hmarker
    hends ((rest ++ tail).length + 2) (by simp; omega) .none []
  have hlength : c.rest.length ≤ (rest ++ tail).length := by
    cases hends with
    | colon => simp
    | newline => simp; omega
  refine leads_fetch hgap hindents (fetchAt_plain ?_ hleading (fun hd ↦ ?_) hmarker ?_) hlength
  · have hspace := (isGap_eq_false hgap).1
    have htab := (isGap_eq_false hgap).2.1
    simp [isBlank, hspace, htab]
  · rw [hd, Bool.true_and] at hspaced
    exact atSpace_append hspaced tail
  · exact hscan

theorem head?_le {column : Nat} (h : indent ≤ column) (indents : List Nat) :
    ∀ i ∈ (indent :: indents).head?, i ≤ column := by
  intro i hi
  rw [← Option.some.inj hi]
  exact h

theorem leaf_plain {cs : List Char} (h : StandsPlain cs) :
    Leaf indent (cs ++ ['\n']) [.scalar cs true] := by
  obtain ⟨d, rest, hcs, hgap⟩ := isGap_head h
  refine ⟨⟨d, rest ++ ['\n'], by rw [hcs, List.cons_append], hgap⟩, ?_⟩
  intro line column k tokens indents allowed tail hcolumn hk htail
  have hends : PlainEnds ((indent :: indents).head?.elim 0 (· + 1)) line (column + cs.length)
      ('\n' :: (spaces k ++ tail)) true ⟨tail, line + 1, k⟩ :=
    .newline htail.of_isGap (Or.inl (Nat.lt_succ_of_le hk))
  refine ⟨line + 1, ?_⟩
  rw [List.append_assoc]
  exact (leads_plain h (head?_le (Nat.le_of_lt hcolumn) indents) allowed hends).trans
    (leads_spaces (k := 0) htail
      (lapsed_keyHere hcolumn (Nat.lt_succ_self line) tokens indents allowed))

theorem leads_quoted {quote : Char} (hquote : quote = '\'' ∨ quote = '"') {enc : Char → List Char}
    {cs written : List Char} (h : Quotes quote enc cs written) {tail : List Char}
    (htail : tail.head? ≠ some '\'') {column : Nat} {indents : List Nat}
    (hindents : ∀ i ∈ indents.head?, i ≤ column) (line : Nat) (tokens : List Token)
    (allowed : Bool) :
    ∃ line' column', line ≤ line' ∧
      Leads (before (quote :: (written ++ quote :: tail)) line column tokens indents allowed)
        (afterScalar ⟨tail, line', column'⟩ cs false line column tokens indents allowed false) ∧
      ((∀ c ∈ cs, isBreak c = false) →
        line' = line ∧ column' = column + written.length + 2) := by
  have hgap : isGap quote = false := by rcases hquote with rfl | rfl <;> decide
  have hspace : isSpace quote = false := by rcases hquote with rfl | rfl <;> decide
  obtain ⟨line', column', hline, hscan, hplace⟩ := scanQuoted_written h hspace htail
    ((written ++ quote :: tail).length + 2) (by have hlength := h.length_le; simp; omega) [] line
    (Nat.succ_pos column)
  refine ⟨line', column', hline,
    leads_fetch hgap hindents (fetchAt_quoted hquote hscan) (by simp [afterScalar]; omega),
    fun hbreaks ↦ ?_⟩
  obtain ⟨hline', hcolumn'⟩ := hplace hbreaks
  exact ⟨hline', by omega⟩

theorem leaf_quoted {quote : Char} (hquote : quote = '\'' ∨ quote = '"') {enc : Char → List Char}
    {cs written : List Char} (h : Quotes quote enc cs written) :
    Leaf indent (quote :: (written ++ [quote, '\n'])) [.scalar cs false] := by
  refine ⟨⟨quote, _, rfl, by rcases hquote with rfl | rfl <;> decide⟩, ?_⟩
  intro line column k tokens indents allowed tail hcolumn hk htail
  obtain ⟨line', column', hline, hleads, -⟩ := leads_quoted hquote h
    (by simp : ('\n' :: (spaces k ++ tail)).head? ≠ some '\'')
    (head?_le (Nat.le_of_lt hcolumn) indents) line tokens allowed
  refine ⟨line' + 1, ?_⟩
  rw [List.cons_append, List.append_assoc]
  exact hleads.trans (leads_afterScalar_newline htail hcolumn hline column' k cs false tokens
    indents allowed false)

/-- How a text is written as a literal block. -/
def literalBlock (indent : Nat) (cs : List Char) : List Char :=
  '|' :: (literalHints cs ++ '\n' :: (literalLines (indent + 2) true cs ++ blockEnd cs))

theorem leaf_literal {cs : List Char} (hprintable : ∀ c ∈ cs, isPrintable c) (hne : cs ≠ []) :
    Leaf indent (literalBlock indent cs) [.scalar cs false] := by
  refine ⟨⟨'|', _, rfl, by decide⟩, ?_⟩
  intro line column k tokens indents allowed tail hcolumn hk htail
  obtain ⟨line', -, hscan⟩ := scanBlock_text hprintable hne hk htail.of_isGap line (column + 1)
  refine ⟨line', ?_⟩
  have hassoc : literalBlock indent cs ++ (spaces k ++ tail) =
      '|' :: (literalHints cs ++ '\n' :: (literalLines (indent + 2) true cs ++
        (blockEnd cs ++ (spaces k ++ tail)))) := by
    simp [literalBlock]
  rw [hassoc]
  exact leads_fetch (by decide) (head?_le (Nat.le_of_lt hcolumn) indents)
    (fetchAt_block hscan) (by simp; omega)

/-! ## Empty collections -/

/-- The brackets of an empty collection. -/
inductive Brackets : Char → Char → Token → Token → Prop
  | sequence : Brackets '[' ']' .flowSequenceStart .flowSequenceEnd
  | mapping : Brackets '\x7b' '\x7d' .flowMappingStart .flowMappingEnd

theorem leaf_brackets {left right : Char} {opening closing : Token}
    (h : Brackets left right opening closing) :
    Leaf indent [left, right, '\n'] [opening, closing] := by
  have hgap : isGap left = false ∧ isGap right = false := by cases h <;> decide
  refine ⟨⟨left, _, rfl, hgap.1⟩, ?_⟩
  intro line column k tokens indents allowed tail hcolumn hk htail
  -- the state between the brackets is kept under a name, since each step refers to it often
  obtain ⟨key, hkey⟩ : ∃ key, key = keyHere line column tokens (indent :: indents) allowed :=
    ⟨_, rfl⟩
  obtain ⟨inside, hinside⟩ : ∃ s : Scanner, s =
    ⟨⟨right :: '\n' :: (spaces k ++ tail), line, column + 1⟩, opening :: tokens,
      tokens.length + 1, [none, key], indent :: indents, true⟩ := ⟨_, rfl⟩
  have hopen : (before (left :: right :: '\n' :: (spaces k ++ tail)) line column tokens
      (indent :: indents) allowed).fetchAt left (right :: '\n' :: (spaces k ++ tail)) =
      some inside := by
    rw [hinside, hkey]
    cases allowed <;> cases h <;>
      simp [fetchAt, Cursor.atMarker, before, inFlow, fetchOpening, saveKey, dropKey, setKey, take,
        Cursor.skip, emit, keyHere]
  have hsettle : inside.settle = some inside := by
    have hskip : inside.skipSpace (inside.cursor.rest.length + 1) = inside := by
      rw [hinside]
      exact skipSpace_spaces (k := 0) (atWord_cons hgap.2 _) rfl _
    have hkeys : inside.dropStaleKeys = some inside := by
      rw [hinside, hkey]
      cases allowed <;> simp [dropStaleKeys, keyHere]
    rw [settle, hskip, hkeys, hinside]
    rfl
  have hclose : inside.fetchAt right ('\n' :: (spaces k ++ tail)) =
      some ⟨⟨'\n' :: (spaces k ++ tail), line, column + 2⟩, closing :: opening :: tokens,
        tokens.length + 2, [key], indent :: indents, false⟩ := by
    rw [hinside]
    cases h <;>
      simp [fetchAt, Cursor.atMarker, inFlow, fetchClosing, dropKey, setKey, take, Cursor.skip,
        emit]
  refine ⟨line + 1, (leads_fetch hgap.1 (head?_le (Nat.le_of_lt hcolumn) indents) hopen
    (by rw [hinside])).trans ((Leads.of_fetch hsettle (by rw [hinside]) hclose
      (by rw [hinside]; simp)).trans ?_)⟩
  exact leads_newline htail
    (hkey ▸ lapsed_keyHere hcolumn (Nat.lt_succ_self line) tokens indents allowed)

/-! ## Texts in the style of the writer -/

theorem leaf_writeText (indent : Nat) (cs : List Char) :
    Leaf indent (writeText indent cs) [.scalar cs (isPlainStyle cs)] := by
  rcases styleOf_cases cs with ⟨hstyle, hother, hallowed⟩ | ⟨hstyle, hsingle⟩ | hstyle |
    ⟨hstyle, hfeed, hprintable⟩
  · rw [writeText, isPlainStyle, hstyle]
    exact leaf_plain (standsPlain hother hallowed)
  · obtain ⟨written, hquotes, hgo⟩ :=
      quotes_single (indent + 2) hsingle (Or.inl (Nat.succ_pos (indent + 1)))
    have htext : singleQuoted (indent + 2) cs ++ ['\n'] = '\'' :: (written ++ ['\'', '\n']) := by
      rw [singleQuoted, hgo]
      simp
    rw [writeText, isPlainStyle, hstyle]
    simp only [htext]
    exact leaf_quoted (Or.inl rfl) hquotes
  · have htext : doubleQuoted cs ++ ['\n'] =
        '"' :: (cs.flatMap doubleEscaped ++ ['"', '\n']) := by
      rw [doubleQuoted_eq]
      simp
    rw [writeText, isPlainStyle, hstyle]
    simp only [htext]
    exact leaf_quoted (Or.inr rfl) (quotes_double cs)
  · have hne : cs ≠ [] := List.ne_nil_of_mem hfeed
    rw [writeText, isPlainStyle, hstyle]
    have htext : '|' :: literalHints cs ++ '\n' :: literalLines (indent + 2) true cs ++
        blockEnd cs = literalBlock indent cs := by
      simp [literalBlock]
    rw [blockEnd] at htext
    simp only [htext]
    exact leaf_literal hprintable hne

/-! ## Keys -/

theorem length_flatMap_le {enc : Char → List Char} {m : Nat} (h : ∀ c, (enc c).length ≤ m)
    (cs : List Char) : (cs.flatMap enc).length ≤ m * cs.length := by
  induction cs with
  | nil => exact Nat.zero_le _
  | cons c cs ih =>
    have hc := h c
    rw [List.flatMap_cons, List.length_append, List.length_cons, Nat.mul_add]
    omega

theorem isBreak_of_breaksLine {c : Char} (h : breaksLine c = false) : isBreak c = false := by
  simp only [breaksLine, Bool.or_eq_false_iff] at h
  simp only [isBreak, Bool.or_eq_false_iff]
  exact ⟨⟨h.1.1.1.1, h.1.2⟩, h.2⟩

/-- A quoted text on one line before a colon. -/
theorem leads_quotedKey {quote : Char} (hquote : quote = '\'' ∨ quote = '"')
    {enc : Char → List Char} {cs : List Char} (h : Quotes quote enc cs (cs.flatMap enc))
    (hbreaks : ∀ c ∈ cs, breaksLine c = false) (henc : ∀ c, (enc c).length ≤ 6)
    (hlength : cs.length ≤ 128) (rest : List Char) {line column : Nat} {tokens : List Token}
    {indents : List Nat} (hindents : ∀ i ∈ indents.head?, i ≤ column) :
    ∃ column', column ≤ column' ∧ column' ≤ column + 1024 ∧
      Leads
        (before (quote :: (cs.flatMap enc ++ quote :: ':' :: rest)) line column tokens indents true)
        (afterScalar ⟨':' :: rest, line, column'⟩ cs false line column tokens indents true
          false) := by
  have hwritten := length_flatMap_le henc cs
  obtain ⟨line', column', -, hleads, hplace⟩ := leads_quoted hquote h
    (by simp : (':' :: rest).head? ≠ some '\'') hindents line tokens true
  obtain ⟨rfl, rfl⟩ := hplace fun c hc ↦ isBreak_of_breaksLine (hbreaks c hc)
  exact ⟨_, by omega, by omega, hleads⟩

theorem writeKey_begins {cs : List Char} (h : isSimpleKey cs = true) :
    ∃ c rest, writeKey cs = c :: rest ∧ isGap c = false := by
  rw [isSimpleKey, Bool.and_eq_true, Bool.not_eq_true', List.any_eq_false] at h
  rcases styleOf_cases cs with ⟨hstyle, hother, hallowed⟩ | ⟨hstyle, -⟩ | hstyle | ⟨-, hfeed, -⟩
  · rw [writeKey, hstyle]
    exact isGap_head (standsPlain hother hallowed)
  · rw [writeKey, hstyle]
    exact ⟨'\'', _, rfl, by decide⟩
  · rw [writeKey, hstyle]
    exact ⟨'"', _, rfl, by decide⟩
  · exact absurd (h.1 '\n' hfeed) (by decide)

/-- A key that is not announced is read as a scalar. The colon is then on the same line, and near
enough. -/
theorem leads_writeKey {cs : List Char} (h : isSimpleKey cs = true) {rest : List Char}
    (hrest : atSpace rest = true) {column : Nat} {indents : List Nat}
    (hindents : ∀ i ∈ indents.head?, i ≤ column) (line : Nat) (tokens : List Token) :
    ∃ column', column ≤ column' ∧ column' ≤ column + 1024 ∧
      Leads (before (writeKey cs ++ ':' :: rest) line column tokens indents true)
        (afterScalar ⟨':' :: rest, line, column'⟩ cs (isPlainStyle cs) line column tokens indents
          true false) := by
  rw [isSimpleKey, Bool.and_eq_true, decide_eq_true_eq, Bool.not_eq_true', List.any_eq_false] at h
  have hbreaks : ∀ c ∈ cs, breaksLine c = false := by simpa using h.1
  have hlength : cs.length ≤ 128 := by
    rw [← String.length_ofList]
    exact Nat.le_trans (Text.length_le_utf8ByteSize _) h.2
  rcases styleOf_cases cs with ⟨hstyle, hother, hallowed⟩ | ⟨hstyle, hsingle⟩ | hstyle |
    ⟨hstyle, hfeed, -⟩
  · rw [writeKey, isPlainStyle, hstyle]
    exact ⟨column + cs.length, by omega, by omega,
      leads_plain (standsPlain hother hallowed) hindents true (.colon hrest)⟩
  · obtain ⟨written, hquotes, hgo⟩ := quotes_single 0 hsingle (Or.inr hbreaks)
    -- there are no breaks, so no indentation is written either
    obtain rfl : written = cs.flatMap singleEscaped := by
      have hword := go_word 0 hbreaks []
      rw [List.append_nil, hgo] at hword
      exact List.append_cancel_right hword
    have htext : singleQuoted 0 cs ++ ':' :: rest =
        '\'' :: (cs.flatMap singleEscaped ++ '\'' :: ':' :: rest) := by
      rw [singleQuoted, hgo]
      simp
    have henc : ∀ c, (singleEscaped c).length ≤ 6 := by
      intro c
      rw [singleEscaped]
      split <;> simp
    rw [writeKey, isPlainStyle, hstyle]
    simp only [htext]
    exact leads_quotedKey (Or.inl rfl) hquotes hbreaks henc hlength rest hindents
  · have htext : doubleQuoted cs ++ ':' :: rest =
        '"' :: (cs.flatMap doubleEscaped ++ '"' :: ':' :: rest) := by
      rw [doubleQuoted_eq]
      simp
    rw [writeKey, isPlainStyle, hstyle]
    simp only [htext]
    exact leads_quotedKey (Or.inr rfl) (quotes_double cs) hbreaks length_doubleEscaped_le hlength
      rest hindents
  · exact absurd (hbreaks '\n' hfeed) (by decide)

end Scanner

end Reachability.Yaml
