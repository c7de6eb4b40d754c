import Reachability.Proofs.Yaml.Block
import Reachability.Yaml.Scanner

/-!
# Following the scanner through written text

The scanner takes a token at a time. Before each it skips white space, gives up keys that are out of
reach, and closes the blocks that are indented more (`Scanner.settle`). A stretch of text is
described by the state before it and the state after it (`Scanner.Leads`), with no mention of fuel.
The states of interest are those outside of brackets with no key pending, and such a state is given
by what is left of the stream, the tokens so far and the columns of the open blocks
(`Scanner.before`).
-/

namespace Reachability.Yaml

/-- Whether a scanner would skip `c` between tokens. -/
def isGap (c : Char) : Bool := isSpace c || c == '#' || c.toNat == 0xFEFF

theorem AtWord.of_isGap {r : List Char} (h : AtWord isGap r) : AtWord isSpace r := by
  intro c hc
  have hgap := h c hc
  simp only [isGap, Bool.or_eq_false_iff] at hgap
  exact hgap.1.1

namespace Scanner

/-! ## Steps -/

/-- Gets to the next token: skips white space, gives up stale keys, and closes blocks. -/
def settle (s : Scanner) : Option Scanner := do
  let s ← (s.skipSpace (s.cursor.rest.length + 1)).dropStaleKeys
  return s.closeBlocks (s.cursor.column < ·)

theorem scanAll_succ (fuel : Nat) (s : Scanner) :
    scanAll (fuel + 1) s = s.settle.bind fun s ↦
      match s.cursor.rest with
      | [] => s.fetchEnd
      | c :: rest => (s.fetchAt c rest).bind (scanAll fuel) := by
  rw [scanAll, settle]
  cases (s.skipSpace (s.cursor.rest.length + 1)).dropStaleKeys <;> rfl

/-- Scanning from `s` comes down to scanning from `s'`. No more steps are taken in between than
there are characters. -/
def Leads (s s' : Scanner) : Prop :=
  ∃ n, s'.cursor.rest.length + n ≤ s.cursor.rest.length ∧
    ∀ fuel, scanAll (fuel + n + 1) s = scanAll (fuel + 1) s'

variable {s s' s'' : Scanner}

theorem Leads.trans (h : Leads s s') (h' : Leads s' s'') : Leads s s'' := by
  obtain ⟨n, hn, hscan⟩ := h
  obtain ⟨n', hn', hscan'⟩ := h'
  refine ⟨n' + n, by omega, fun fuel ↦ ?_⟩
  rw [← hscan', ← hscan, Nat.add_assoc fuel n' n]

theorem Leads.of_settle (h : s.settle = s'.settle)
    (hlength : s'.cursor.rest.length ≤ s.cursor.rest.length) : Leads s s' :=
  ⟨0, hlength, fun fuel ↦ by rw [scanAll_succ, scanAll_succ, h]⟩

theorem Leads.of_fetch {t : Scanner} {c : Char} {rest : List Char} (hsettle : s.settle = some t)
    (hrest : t.cursor.rest = c :: rest) (hfetch : t.fetchAt c rest = some s')
    (hlength : s'.cursor.rest.length < s.cursor.rest.length) : Leads s s' := by
  refine ⟨1, hlength, fun fuel ↦ ?_⟩
  rw [scanAll_succ, hsettle, Option.bind_some]
  simp only [hrest, hfetch, Option.bind_some]

/-- With enough fuel, scanning from `s` ends as scanning from `s'` does. -/
theorem Leads.scanAll_eq (h : Leads s s') {fuel : Nat} (hfuel : s.cursor.rest.length < fuel) :
    ∃ fuel', s'.cursor.rest.length < fuel' ∧ scanAll fuel s = scanAll fuel' s' := by
  obtain ⟨n, hn, hscan⟩ := h
  refine ⟨fuel - n, by omega, ?_⟩
  obtain ⟨f, rfl⟩ : ∃ f, fuel = f + n + 1 := ⟨fuel - n - 1, by omega⟩
  rw [hscan]
  congr 1
  omega

/-! ## White space -/

theorem skipWhile_append {w r : List Char} {p : Char → Bool} (hw : ∀ c ∈ w, p c = true)
    (hr : AtWord p r) (line column : Nat) :
    Cursor.skipWhile ⟨w ++ r, line, column⟩ p = ⟨r, line, column + w.length⟩ := by
  rw [Cursor.skipWhile, Cursor.run, hr.span hw]

theorem isGap_eq_false {c : Char} (h : isGap c = false) :
    c ≠ ' ' ∧ c ≠ '\t' ∧ isBreak c = false ∧ c ≠ '#' ∧ c.toNat ≠ 0xFEFF := by
  simp only [isGap, isSpace, isBlank, Bool.or_eq_false_iff, beq_eq_false_iff_ne] at h
  exact ⟨h.1.1.1.1, h.1.1.1.2, h.1.1.2, h.1.2, h.2⟩

theorem any_mark_spaces {r : List Char} (hr : AtWord isGap r) (k : Nat) :
    ((spaces k ++ r).head?.any (·.toNat == 0xFEFF)) = false := by
  cases k with
  | zero =>
    cases r with
    | nil => rfl
    | cons c r => simpa [spaces] using (isGap_eq_false (hr c rfl)).2.2.2.2
  | succ k => rfl

/-- Spaces are skipped. -/
theorem skipSpace_spaces {s : Scanner} {k line column : Nat} {r : List Char} (hr : AtWord isGap r)
    (hs : s.cursor = ⟨spaces k ++ r, line, column⟩) (fuel : Nat) :
    s.skipSpace (fuel + 1) = { s with cursor := ⟨r, line, column + k⟩ } := by
  have hspaces : ∀ c ∈ spaces k, (c == ' ' || (s.inFlow || !s.keyAllowed) && c == '\t') = true :=
    fun c hc ↦ by rw [eq_of_mem_spaces hc]; rfl
  have hword : AtWord (fun c ↦ c == ' ' || (s.inFlow || !s.keyAllowed) && c == '\t') r := by
    intro c hc
    obtain ⟨hspace, htab, -⟩ := isGap_eq_false (hr c hc)
    simp [hspace, htab]
  have hskip := skipWhile_append hspaces hword line column
  rw [length_spaces] at hskip
  simp only [skipSpace, hs, any_mark_spaces hr, Bool.and_false, Bool.false_eq_true, if_false, hskip]
  cases r with
  | nil => rfl
  | cons c r =>
    obtain ⟨-, -, hbreak, hhash, -⟩ := isGap_eq_false (hr c rfl)
    simp [hhash, hbreak]

/-- A line break is skipped. -/
theorem skipSpace_break {s : Scanner} {line column : Nat} {r : List Char}
    (hs : s.cursor = ⟨'\n' :: r, line, column⟩) (hflow : s.inFlow = false) (fuel : Nat) :
    s.skipSpace (fuel + 1) =
      { s with cursor := ⟨r, line + 1, 0⟩, keyAllowed := true }.skipSpace fuel := by
  have hword : AtWord (fun c ↦ c == ' ' || (s.inFlow || !s.keyAllowed) && c == '\t') ('\n' :: r) :=
    atWord_cons (by simp) _
  have hskip := skipWhile_append (w := []) (by simp) hword line column
  rw [List.nil_append, List.length_nil, Nat.add_zero] at hskip
  have hmark : (('\n' :: r).head?.any (·.toNat == 0xFEFF)) = false := rfl
  have hbreak : isBreak '\n' = true := by decide
  rw [skipSpace]
  simp only [hs, hmark, Bool.and_false, Bool.false_eq_true, if_false, hskip]
  simp [hbreak, Cursor.next, hflow]

/-- A line break is skipped, with the indentation of the next line. -/
theorem skipSpace_newline {s : Scanner} {k line column : Nat} {r : List Char} (hr : AtWord isGap r)
    (hs : s.cursor = ⟨'\n' :: (spaces k ++ r), line, column⟩) (hflow : s.inFlow = false)
    (fuel : Nat) :
    s.skipSpace (fuel + 2) = { s with cursor := ⟨r, line + 1, k⟩, keyAllowed := true } := by
  have hrest := skipSpace_spaces (s := { s with
    cursor := ⟨spaces k ++ r, line + 1, 0⟩, keyAllowed := true }) hr rfl fuel
  rw [Nat.zero_add] at hrest
  rw [skipSpace_break hs hflow, hrest]

/-! ## Keys and blocks out of reach -/

/-- The key is no longer possible on a later line. -/
def Lapsed (key : Option PossibleKey) (line : Nat) : Prop :=
  ∀ k ∈ key, k.required = false ∧ k.line < line

theorem dropStaleKeys_lapsed {s : Scanner} {key : Option PossibleKey} (hs : s.keys = [key])
    (hkey : Lapsed key s.cursor.line) : s.dropStaleKeys = some { s with keys := [none] } := by
  cases key with
  | none => simp [dropStaleKeys, hs]
  | some k =>
    obtain ⟨hrequired, hline⟩ := hkey k rfl
    simp [dropStaleKeys, hs, hline, hrequired]

theorem dropStaleKeys_reachable {s : Scanner} {k : PossibleKey} (hs : s.keys = [some k])
    (hline : k.line = s.cursor.line) (hcolumn : s.cursor.column ≤ k.column + 1024) :
    s.dropStaleKeys = some s := by
  obtain ⟨cursor, tokens, count, keys, indents, allowed⟩ := s
  obtain rfl : keys = [some k] := hs
  have hkey : ¬(k.line < cursor.line ∨ k.column + 1024 < cursor.column) := by
    change k.line = cursor.line at hline
    change cursor.column ≤ _ at hcolumn
    omega
  simp [dropStaleKeys, hkey]

theorem closeBlocks_stop {s : Scanner} {column : Nat} (h : ∀ i ∈ s.indents.head?, i ≤ column) :
    s.closeBlocks (column < ·) = s := by
  have hspan : s.indents.span (fun i ↦ decide (column < i)) = ([], s.indents) :=
    AtWord.span (w := []) (by simp) fun i hi ↦ by simpa using h i hi
  rw [closeBlocks]
  split
  · rfl
  · simp only [hspan]
    rfl

/-! ## Between tokens -/

/-- The scanner outside of brackets, where no key is pending. -/
def before (rest : List Char) (line column : Nat) (tokens : List Token) (indents : List Nat)
    (allowed : Bool) : Scanner :=
  ⟨⟨rest, line, column⟩, tokens, tokens.length, [none], indents, allowed⟩

@[simp] theorem before_cursor (rest : List Char) (line column : Nat) (tokens : List Token)
    (indents : List Nat) (allowed : Bool) :
    (before rest line column tokens indents allowed).cursor = ⟨rest, line, column⟩ := rfl

section Before

variable {r : List Char} {line column k : Nat} {tokens : List Token} {indents : List Nat}
  {key : Option PossibleKey} {allowed : Bool}

theorem settle_before (hr : AtWord isGap r) :
    (before r line column tokens indents allowed).settle =
      some ((before r line column tokens indents allowed).closeBlocks (column < ·)) := by
  have hskip : (before r line column tokens indents allowed).skipSpace (r.length + 1) =
      before r line column tokens indents allowed := skipSpace_spaces (k := 0) hr rfl r.length
  have hlapsed : Lapsed none line := fun _ h ↦ absurd h (by simp)
  rw [settle]
  change ((before r line column tokens indents allowed).skipSpace (r.length + 1)).dropStaleKeys.bind
    _ = _
  rw [hskip, dropStaleKeys_lapsed rfl hlapsed]
  rfl

theorem settle_of_skipSpace {s : Scanner} {c : Cursor} (hr : AtWord isGap c.rest)
    (hkey : Lapsed key c.line) (hskip : s.skipSpace (s.cursor.rest.length + 1) =
      ⟨c, tokens, tokens.length, [key], indents, allowed⟩) :
    s.settle = (before c.rest c.line c.column tokens indents allowed).settle := by
  rw [settle_before hr, settle, hskip, dropStaleKeys_lapsed rfl hkey]
  rfl

/-- The scanner goes on at the next line. -/
theorem leads_newline (hr : AtWord isGap r) (hkey : Lapsed key (line + 1)) :
    Leads ⟨⟨'\n' :: (spaces k ++ r), line, column⟩, tokens, tokens.length, [key], indents, allowed⟩
      (before r (line + 1) k tokens indents true) := by
  refine Leads.of_settle (settle_of_skipSpace (c := ⟨r, line + 1, k⟩) hr hkey ?_) ?_
  · exact skipSpace_newline (s := ⟨_, tokens, tokens.length, [key], indents, allowed⟩) hr rfl rfl _
  · simp [before]
    omega

/-- The scanner goes on after spaces. -/
theorem leads_spaces (hr : AtWord isGap r) (hkey : Lapsed key line) :
    Leads ⟨⟨spaces k ++ r, line, column⟩, tokens, tokens.length, [key], indents, allowed⟩
      (before r line (column + k) tokens indents allowed) := by
  refine Leads.of_settle (settle_of_skipSpace (c := ⟨r, line, column + k⟩) hr hkey ?_) ?_
  · exact skipSpace_spaces (s := ⟨_, tokens, tokens.length, [key], indents, allowed⟩) hr rfl _
  · simp [before]

theorem leads_nextLine (hr : AtWord isGap r) :
    Leads (before ('\n' :: (spaces k ++ r)) line column tokens indents allowed)
      (before r (line + 1) k tokens indents true) := leads_newline hr (by simp [Lapsed])

theorem leads_space (hr : AtWord isGap r) :
    Leads (before (' ' :: r) line column tokens indents allowed)
      (before r line (column + 1) tokens indents allowed) :=
  leads_spaces (k := 1) hr (by simp [Lapsed])

/-- A line break is skipped, whatever comes after it. -/
theorem leads_break (r : List Char) :
    Leads (before ('\n' :: r) line column tokens indents allowed)
      (before r (line + 1) 0 tokens indents true) := by
  refine Leads.of_settle ?_ (Nat.le_succ r.length)
  rw [settle, settle, before_cursor, before_cursor, List.length_cons, skipSpace_break rfl rfl]
  rfl

/-- A block ends where something is indented less. -/
theorem leads_close (hr : AtWord isGap r) {c : Nat} (hc : column < c) :
    Leads (before r line column tokens (c :: indents) allowed)
      (before r line column (.blockEnd :: tokens) indents allowed) := by
  refine Leads.of_settle ?_ (Nat.le_refl _)
  have hspan : ∀ l : List Nat, l.span (fun i ↦ decide (column < i)) =
      (l.takeWhile fun i ↦ decide (column < i), l.dropWhile fun i ↦ decide (column < i)) :=
    fun l ↦ List.span_eq_takeWhile_dropWhile _ l
  have hspanCons : (c :: indents).span (fun i ↦ decide (column < i)) =
      (c :: indents.takeWhile fun i ↦ decide (column < i),
        indents.dropWhile fun i ↦ decide (column < i)) := by
    rw [hspan, List.takeWhile_cons_of_pos (by simpa using hc),
      List.dropWhile_cons_of_pos (by simpa using hc)]
  rw [settle_before hr, settle_before hr]
  simp only [closeBlocks, before, inFlow, hspan indents, hspanCons, List.foldl_cons]
  rfl

/-- The scanner reads a token. -/
theorem leads_fetch {c : Char} {rest : List Char} (hc : isGap c = false)
    (hindents : ∀ i ∈ indents.head?, i ≤ column) {s : Scanner}
    (hfetch : (before (c :: rest) line column tokens indents allowed).fetchAt c rest = some s)
    (hlength : s.cursor.rest.length ≤ rest.length) :
    Leads (before (c :: rest) line column tokens indents allowed) s := by
  refine Leads.of_fetch (t := before (c :: rest) line column tokens indents allowed) ?_ rfl hfetch
    (Nat.lt_succ_of_le hlength)
  rw [settle_before (atWord_cons hc rest), closeBlocks_stop hindents]

end Before

/-! ## Scalars -/

section Scalars

variable {line column : Nat} {tokens : List Token} {indents : List Nat} {allowed : Bool}

/-- The key that may begin at a place, if one may. -/
def keyHere (line column : Nat) (tokens : List Token) (indents : List Nat) (allowed : Bool) :
    Option PossibleKey :=
  if allowed then some ⟨indents.head? == some column, tokens.length, line, column⟩ else none

/-- The scanner after a scalar that began at a place. -/
def afterScalar (c : Cursor) (text : List Char) (plain : Bool) (line column : Nat)
    (tokens : List Token) (indents : List Nat) (allowed start : Bool) : Scanner :=
  ⟨c, .scalar text plain :: tokens, tokens.length + 1, [keyHere line column tokens indents allowed],
    indents, start⟩

theorem saveKey_before (rest : List Char) :
    (before rest line column tokens indents allowed).saveKey =
      some ⟨⟨rest, line, column⟩, tokens, tokens.length,
        [keyHere line column tokens indents allowed], indents, allowed⟩ := by
  cases allowed <;> rfl

theorem fetchAt_quoted {quote : Char} (hquote : quote = '\'' ∨ quote = '"') {rest text : List Char}
    {c : Cursor}
    (h : scanQuoted quote (rest.length + 2) [] ⟨rest, line, column + 1⟩ = some (text, c)) :
    (before (quote :: rest) line column tokens indents allowed).fetchAt quote rest =
      some (afterScalar c text false line column tokens indents allowed false) := by
  have hfetch : (before (quote :: rest) line column tokens indents allowed).fetchAt quote rest =
      (before (quote :: rest) line column tokens indents allowed).fetchQuoted quote := by
    rcases hquote with rfl | rfl <;> simp [fetchAt, Cursor.atMarker, before, inFlow]
  rw [hfetch, fetchQuoted, saveKey_before]
  change (scanQuoted quote (rest.length + 2) [] ⟨rest, line, column + 1⟩).bind _ = _
  rw [h]
  rfl

theorem fetchAt_block {rest text : List Char} {c : Cursor}
    (h : scanBlock true indents.head? ⟨rest, line, column + 1⟩ = some (text, c)) :
    (before ('|' :: rest) line column tokens indents allowed).fetchAt '|' rest =
      some ⟨c, .scalar text false :: tokens, tokens.length + 1, [none], indents, true⟩ := by
  have hfetch : (before ('|' :: rest) line column tokens indents allowed).fetchAt '|' rest =
      (before ('|' :: rest) line column tokens indents allowed).fetchBlockScalar true := by
    simp [fetchAt, Cursor.atMarker, before, inFlow]
  rw [hfetch, fetchBlockScalar]
  change (scanBlock true indents.head? ⟨rest, line, column + 1⟩).bind _ = _
  rw [h]
  rfl

theorem fetchAt_plain {d : Char} {rest text : List Char} {start : Bool} {c : Cursor}
    (hspace : isBlank d = false) (hleading : leadingIndicators.contains d = false)
    (hspaced : spacedIndicators.contains d = true → atSpace rest = false)
    (hmarker : Cursor.atDocumentMarker ⟨d :: rest, line, column⟩ = false)
    (h : scanPlain false (indents.head?.elim 0 (· + 1)) (rest.length + 2) [] .none
      ⟨d :: rest, line, column⟩ = some (text, start, c)) :
    (before (d :: rest) line column tokens indents allowed).fetchAt d rest =
      some (afterScalar c text true line column tokens indents allowed start) := by
  simp only [leadingIndicators, List.contains_cons, List.contains_nil, Bool.or_false,
    Bool.or_eq_false_iff, beq_eq_false_iff_ne] at hleading
  simp only [Cursor.atDocumentMarker, Bool.or_eq_false_iff] at hmarker
  have hspaced' : ∀ e ∈ spacedIndicators, ¬(d = e ∧ atSpace rest = true) := by
    rintro e he ⟨rfl, hrest⟩
    rw [hspaced (by simpa using he)] at hrest
    exact absurd hrest (by decide)
  have hquestion := hspaced' '?' (by decide)
  have hcolon := hspaced' ':' (by decide)
  have hdash := hspaced' '-' (by decide)
  have hstarts : startsPlain false d rest = true := by
    by_cases hd : spacedIndicators.contains d = true
    · have hrest := hspaced hd
      have hblank : rest.head?.any isBlank = false := by
        cases rest with
        | nil => rfl
        | cons e rest => exact (Bool.or_eq_false_iff.mp hrest).1
      simp only [spacedIndicators, List.contains_cons, List.contains_nil, Bool.or_false,
        Bool.or_eq_true, beq_iff_eq] at hd
      rcases hd with rfl | rfl | rfl <;> simp [startsPlain, hrest, hblank]
    · simp only [spacedIndicators, List.contains_cons, List.contains_nil, Bool.or_false,
        Bool.or_eq_true, beq_iff_eq, not_or] at hd
      simp [startsPlain, hspace, hleading, hd]
  have hfetch : (before (d :: rest) line column tokens indents allowed).fetchAt d rest =
      (before (d :: rest) line column tokens indents allowed).fetchPlain := by
    simp [fetchAt, before, inFlow, hmarker, hleading, hquestion, hcolon, hdash, hstarts]
  rw [hfetch, fetchPlain, saveKey_before]
  change (scanPlain false (indents.head?.elim 0 (· + 1)) (rest.length + 2) [] .none
    ⟨d :: rest, line, column⟩).bind _ = _
  rw [h]
  rfl

end Scalars

end Scanner

end Reachability.Yaml
