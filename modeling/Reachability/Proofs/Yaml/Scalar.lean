import Mathlib.Data.List.TakeDrop
import Mathlib.Data.List.TakeWhile
import Reachability.Proofs.Yaml.Characters

/-!
# Reading back scalars of one run

Plain and quoted scalars are read in the same way: a word, the white space after it, the next word,
and so on. A text is cut up accordingly (`Words`), and the induction for each style is on the
pieces.
-/

namespace Reachability.Yaml

/-! ## Words -/

section AtWord

variable {α : Type}

/-- The list begins with no separator. -/
def AtWord (separates : α → Bool) (cs : List α) : Prop := ∀ c ∈ cs.head?, separates c = false

theorem AtWord.append {p : α → Bool} {cs r : List α} (h : AtWord p cs) (hr : AtWord p r) :
    AtWord p (cs ++ r) := by
  cases cs with
  | nil => exact hr
  | cons c cs => exact h

theorem atWord_cons {p : α → Bool} {c : α} (h : p c = false) (cs : List α) :
    AtWord p (c :: cs) := by
  intro d hd
  rw [← Option.some.inj hd]
  exact h

theorem AtWord.span {p : α → Bool} {w r : List α} (hw : ∀ c ∈ w, p c = true)
    (hr : AtWord p r) : (w ++ r).span p = (w, r) := by
  rw [List.span_eq_takeWhile_dropWhile, List.takeWhile_append_of_pos hw,
    List.dropWhile_append_of_pos hw]
  cases r with
  | nil => simp
  | cons c r => simp [hr c rfl]

end AtWord

/-- The text consists of words and separators in turns, with a word at either end. Only the words at
the ends may be empty. -/
inductive Words (separates : Char → Bool) : List Char → Prop
  | last {w : List Char} (hw : ∀ c ∈ w, separates c = false) : Words separates w
  | more {w gap cs : List Char} (hw : ∀ c ∈ w, separates c = false) (hne : gap ≠ [])
      (hgap : ∀ c ∈ gap, separates c = true) (hcs : AtWord separates cs)
      (rest : Words separates cs) : Words separates (w ++ (gap ++ cs))

theorem atWord_dropWhile (p : Char → Bool) (cs : List Char) : AtWord p (cs.dropWhile p) := by
  intro c hc
  have hnot := List.head?_dropWhile_not p cs
  rw [Option.mem_def.mp hc] at hnot
  simpa using hnot

theorem words (separates : Char → Bool) (cs : List Char) : Words separates cs := by
  -- a word and a gap are taken off at a time, so the induction is on the length
  generalize hn : cs.length = n
  induction n using Nat.strongRecOn generalizing cs with
  | ind n ih =>
    have hword : ∀ c ∈ cs.takeWhile (!separates ·), separates c = false :=
      fun c hc ↦ by simpa using List.mem_takeWhile_imp hc
    have hsplit : cs.takeWhile (!separates ·) ++ cs.dropWhile (!separates ·) = cs :=
      List.takeWhile_append_dropWhile
    generalize cs.takeWhile (!separates ·) = w at hword hsplit
    generalize hr : cs.dropWhile (!separates ·) = r at hsplit
    cases r with
    | nil =>
      rw [List.append_nil] at hsplit
      exact hsplit ▸ Words.last hword
    | cons s r =>
      have hs : separates s = true := by
        have hnot := List.head?_dropWhile_not (!separates ·) cs
        rw [hr] at hnot
        simpa using hnot
      have hrest : (s :: r).takeWhile separates ++ (s :: r).dropWhile separates = s :: r :=
        List.takeWhile_append_dropWhile
      have hlength : ((s :: r).dropWhile separates).length < n := by
        have hle : (r.dropWhile separates).length ≤ r.length := List.length_dropWhile_le _ _
        rw [← hn, ← hsplit, List.dropWhile_cons_of_pos hs, List.length_append, List.length_cons]
        omega
      rw [← hsplit, ← hrest]
      exact Words.more hword (by simp [List.takeWhile_cons_of_pos hs])
        (fun c hc ↦ List.mem_takeWhile_imp hc) (atWord_dropWhile _ _) (ih _ hlength _ rfl)

/-! ## Gaps -/

/-- Whether `c` is white space, within a line or between lines. -/
def isSpace (c : Char) : Bool := isBlank c || isBreak c

theorem isBlank_of_isBreak {c : Char} (h : isBreak c = true) : isBlank c = false := by
  simp only [isBlank, Bool.or_eq_false_iff, beq_eq_false_iff_ne]
  constructor <;> rintro rfl <;> exact absurd h (by decide)

namespace Gap

variable (limit : Nat) {fuel : Nat} {r : List Char}

theorem scan_stop (g : Gap) (hr : AtWord isSpace r) (line column : Nat) :
    scan limit (fuel + 1) g ⟨r, line, column⟩ = some (g, ⟨r, line, column⟩) := by
  cases r with
  | nil => rfl
  | cons c r =>
    have hc : isBlank c = false ∧ isBreak c = false := Bool.or_eq_false_iff.mp (hr c rfl)
    simp [scan, hc]

/-- Spaces before a break are kept. -/
theorem scan_spaces (hr : AtWord isSpace r) (k fuel : Nat) (h : k < fuel) (blanks : List Char)
    (line column : Nat) :
    scan limit fuel ⟨blanks, false, [], []⟩ ⟨spaces k ++ r, line, column⟩ =
      some (⟨blanks ++ spaces k, false, [], []⟩, ⟨r, line, column + k⟩) := by
  induction k generalizing fuel blanks column with
  | zero =>
    obtain ⟨fuel, rfl⟩ : ∃ f, fuel = f + 1 := ⟨fuel - 1, by omega⟩
    rw [spaces, List.replicate_zero, List.nil_append, List.append_nil, scan_stop _ _ hr,
      Nat.add_zero]
  | succ k ih =>
    obtain ⟨fuel, rfl⟩ : ∃ f, fuel = f + 1 := ⟨fuel - 1, by omega⟩
    rw [spaces_succ, List.cons_append]
    have hnext := ih fuel (by omega) (blanks ++ [' ']) (column + 1)
    rw [List.append_assoc, List.singleton_append, Nat.add_right_comm] at hnext
    exact hnext

/-- Spaces after a break are dropped. -/
theorem scan_indentation {g : Gap} (hg : g.broken = true) (hr : AtWord isSpace r) (k : Nat)
    (h : k < fuel) (line column : Nat) :
    scan limit fuel g ⟨spaces k ++ r, line, column⟩ = some (g, ⟨r, line, column + k⟩) := by
  induction k generalizing fuel column with
  | zero =>
    obtain ⟨fuel, rfl⟩ : ∃ f, fuel = f + 1 := ⟨fuel - 1, by omega⟩
    exact scan_stop limit g hr line column
  | succ k ih =>
    obtain ⟨fuel, rfl⟩ : ∃ f, fuel = f + 1 := ⟨fuel - 1, by omega⟩
    have hnext := ih (by omega : k < fuel) (column + 1)
    rw [Nat.add_right_comm] at hnext
    rw [spaces_succ, List.cons_append, scan, ← Nat.add_assoc, ← hnext]
    simp [hg, Cursor.next, isBlank, isBreak]

/-- Breaks after the first one are kept. -/
theorem scan_further {g : Gap} (hg : g.broken = true) (hr : AtWord isSpace r) {breaks : List Char}
    (hbreaks : ∀ c ∈ breaks, isBreak c = true) (k fuel : Nat) (h : breaks.length + k < fuel)
    (line : Nat) :
    scan limit fuel g ⟨breaks ++ (spaces k ++ r), line, 0⟩ =
      some ({ g with further := g.further ++ breaks }, ⟨r, line + breaks.length, k⟩) := by
  induction breaks generalizing fuel g line with
  | nil =>
    rw [List.nil_append, scan_indentation limit hg hr k (by simpa using h)]
    simp
  | cons b breaks ih =>
    obtain ⟨fuel, rfl⟩ : ∃ f, fuel = f + 1 := ⟨fuel - 1, by omega⟩
    have hb : isBreak b = true := hbreaks b List.mem_cons_self
    have hnext := ih (g := { g with further := g.further ++ [b] }) hg
      (fun c hc ↦ hbreaks c (List.mem_cons_of_mem _ hc)) fuel
      (by rw [List.length_cons] at h; omega) (line + 1)
    rw [List.append_assoc, List.singleton_append, Nat.add_right_comm, Nat.add_assoc] at hnext
    rw [List.cons_append, scan, List.length_cons, ← hnext]
    simp [hg, hb, isBlank_of_isBreak hb, Cursor.next]

/-- A break, more breaks after it, and the indentation of the next line. -/
theorem scan_breaks (hr : AtWord isSpace r) {b : Char} (hb : isBreak b = true) {breaks : List Char}
    (hbreaks : ∀ c ∈ breaks, isBreak c = true) (k fuel : Nat) (h : breaks.length + k + 1 < fuel)
    (line column : Nat) :
    scan limit fuel .none ⟨b :: (breaks ++ (spaces k ++ r)), line, column⟩ =
      some (⟨[], true, [b], breaks⟩, ⟨r, line + 1 + breaks.length, k⟩) := by
  obtain ⟨fuel, rfl⟩ : ∃ f, fuel = f + 1 := ⟨fuel - 1, by omega⟩
  have hnext := scan_further limit (g := ⟨[], true, [b], []⟩) rfl hr hbreaks k fuel (by omega)
    (line + 1)
  rw [scan]
  simp [Gap.none, hb, isBlank_of_isBreak hb, Cursor.next, hnext]

end Gap

/-! ## Quoted scalars -/

/-- The character is read back from its form in quotes. -/
structure Encodes (quote : Char) (enc : Char → List Char) (c : Char) : Prop where
  begins : ∃ d ds, enc c = d :: ds ∧ isSpace d = false
  reads : ∀ fuel acc r line column,
    scanQuotedRun quote (fuel + 1) acc ⟨enc c ++ r, line, column⟩ =
      scanQuotedRun quote fuel (c :: acc) ⟨r, line, column + (enc c).length⟩

/-- A text, and how it is written before the closing quote: words, with spaces between them or with
breaks and the indentation of the next line. -/
inductive Quotes (quote : Char) (enc : Char → List Char) : List Char → List Char → Prop
  | last {w : List Char} (hw : ∀ c ∈ w, Encodes quote enc c) : Quotes quote enc w (w.flatMap enc)
  | spaces {w cs written : List Char} {k : Nat} (hw : ∀ c ∈ w, Encodes quote enc c) (hk : 0 < k)
      (hcs : AtWord isSpace written) (rest : Quotes quote enc cs written) :
      Quotes quote enc (w ++ (spaces k ++ cs)) (w.flatMap enc ++ (spaces k ++ written))
  | breaks {w cs written breaks : List Char} {b : Char} {k : Nat}
      (hw : ∀ c ∈ w, Encodes quote enc c) (hb : isBreak b = true) (hfeed : b ≠ '\n')
      (hbreaks : ∀ c ∈ breaks, isBreak c = true) (hk : 0 < k) (hcs : AtWord isSpace written)
      (rest : Quotes quote enc cs written) :
      Quotes quote enc (w ++ (b :: (breaks ++ cs)))
        (w.flatMap enc ++ (b :: (breaks ++ (spaces k ++ written))))

section Quoted

variable {quote : Char} {enc : Char → List Char} {w r tail : List Char} {fuel : Nat}

theorem scanQuotedRun_word (hw : ∀ c ∈ w, Encodes quote enc c) (acc : List Char)
    (line column : Nat) :
    scanQuotedRun quote (w.length + fuel) acc ⟨w.flatMap enc ++ r, line, column⟩ =
      scanQuotedRun quote fuel (w.reverse ++ acc) ⟨r, line, column + (w.flatMap enc).length⟩ := by
  induction w generalizing acc column with
  | nil => rw [List.length_nil, Nat.zero_add]; rfl
  | cons c w ih =>
    have hc : Encodes quote enc c := hw c List.mem_cons_self
    rw [List.length_cons, Nat.add_right_comm, List.flatMap_cons, List.append_assoc, hc.reads,
      ih fun d hd ↦ hw d (List.mem_cons_of_mem _ hd)]
    simp [Nat.add_assoc]

theorem scanQuotedRun_space (hr : ∃ c cs, r = c :: cs ∧ isSpace c = true) (acc : List Char)
    (line column : Nat) :
    scanQuotedRun quote (fuel + 1) acc ⟨r, line, column⟩ =
      some (acc, false, ⟨r, line, column⟩) := by
  obtain ⟨c, cs, rfl, hc⟩ := hr
  rw [scanQuotedRun]
  exact if_pos hc

theorem scanQuotedRun_quote (hquote : isSpace quote = false) (htail : tail.head? ≠ some '\'')
    (acc : List Char) (line column : Nat) :
    scanQuotedRun quote (fuel + 1) acc ⟨quote :: tail, line, column⟩ =
      some (acc, false, ⟨quote :: tail, line, column⟩) := by
  have hspace : isBlank quote = false ∧ isBreak quote = false := Bool.or_eq_false_iff.mp hquote
  simp [scanQuotedRun, hspace, htail]

theorem length_le_flatMap (hw : ∀ c ∈ w, Encodes quote enc c) :
    w.length ≤ (w.flatMap enc).length := by
  induction w with
  | nil => rfl
  | cons c w ih =>
    obtain ⟨d, ds, hc, -⟩ := (hw c List.mem_cons_self).begins
    have hrest := ih fun d hd ↦ hw d (List.mem_cons_of_mem _ hd)
    rw [List.flatMap_cons, hc, List.length_append, List.length_cons, List.length_cons]
    omega

theorem Quotes.length_le {cs written : List Char} (h : Quotes quote enc cs written) :
    cs.length ≤ written.length := by
  induction h with
  | last hw => exact length_le_flatMap hw
  | spaces hw hk hcs rest ih =>
    have hword := length_le_flatMap hw
    simp only [List.length_append]
    omega
  | breaks hw hb hfeed hbreaks hk hcs rest ih =>
    have hword := length_le_flatMap hw
    simp only [List.length_append, List.length_cons]
    omega

/-- Within a line there is no marker of a document. -/
theorem atDocumentMarker_of_pos {column : Nat} (h : 0 < column) (cs : List Char) (line : Nat) :
    Cursor.atDocumentMarker ⟨cs, line, column⟩ = false := by
  have hcolumn : (column == 0) = false := by simpa using Nat.ne_of_gt h
  rw [Cursor.atDocumentMarker, Cursor.atMarker, Cursor.atMarker, hcolumn]
  rfl

theorem scanQuoted_close (hw : ∀ c ∈ w, Encodes quote enc c) (hquote : isSpace quote = false)
    (htail : tail.head? ≠ some '\'') (acc : List Char) (line : Nat) {column : Nat}
    (h : 0 < column) :
    scanQuoted quote (fuel + 1) acc ⟨w.flatMap enc ++ quote :: tail, line, column⟩ =
      some (acc.reverse ++ w, ⟨tail, line, column + (w.flatMap enc).length + 1⟩) := by
  have hlength := length_le_flatMap hw
  obtain ⟨rest, hrest⟩ : ∃ f, (w.flatMap enc ++ quote :: tail).length + 1 = w.length + (f + 1) := by
    refine ⟨(w.flatMap enc).length - w.length + tail.length + 1, ?_⟩
    rw [List.length_append, List.length_cons]
    omega
  rw [scanQuoted, atDocumentMarker_of_pos h, hrest, scanQuotedRun_word hw,
    scanQuotedRun_quote hquote htail]
  simp [Cursor.skip]

theorem scanQuoted_gap (hw : ∀ c ∈ w, Encodes quote enc c) (hquote : isSpace quote = false)
    (hr : ∃ c cs, r = c :: cs ∧ isSpace c = true) (acc : List Char) {line column : Nat}
    (h : 0 < column) {gap : Gap} {c' : Cursor}
    (hgap : Gap.scan 0 (r.length + 1) .none ⟨r, line, column + (w.flatMap enc).length⟩ =
      some (gap, c')) :
    scanQuoted quote (fuel + 1) acc ⟨w.flatMap enc ++ r, line, column⟩ =
      scanQuoted quote fuel (gap.text.reverse ++ (w.reverse ++ acc)) c' := by
  have hlength := length_le_flatMap hw
  obtain ⟨rest, hrest⟩ : ∃ f, (w.flatMap enc ++ r).length + 1 = w.length + (f + 1) := by
    refine ⟨(w.flatMap enc).length - w.length + r.length, ?_⟩
    rw [List.length_append]
    omega
  have hhead : r.head? ≠ some quote := by
    obtain ⟨c, cs, rfl, hc⟩ := hr
    intro heq
    rw [← Option.some.inj heq, hc] at hquote
    exact absurd hquote (by decide)
  have hne : (w.flatMap enc ++ r).isEmpty = false := by
    obtain ⟨c, cs, rfl, -⟩ := hr
    simp
  rw [scanQuoted, atDocumentMarker_of_pos h, hrest, scanQuotedRun_word hw, scanQuotedRun_space hr]
  simp [hne, hhead, hgap, -List.length_flatMap]

/-- What was written in quotes is read back. The reader ends after the closing quote, on the same
line unless the text has breaks. -/
theorem scanQuoted_written {cs written : List Char} (h : Quotes quote enc cs written)
    (hquote : isSpace quote = false) (htail : tail.head? ≠ some '\'') (fuel : Nat)
    (hfuel : cs.length < fuel) (acc : List Char) (line : Nat) {column : Nat}
    (hcolumn : 0 < column) :
    ∃ line' column', line ≤ line' ∧
      scanQuoted quote fuel acc ⟨written ++ quote :: tail, line, column⟩ =
        some (acc.reverse ++ cs, ⟨tail, line', column'⟩) ∧
      ((∀ c ∈ cs, isBreak c = false) →
        line' = line ∧ column' = column + written.length + 1) := by
  induction h generalizing fuel acc line column with
  | @last w hw =>
    obtain ⟨fuel, rfl⟩ : ∃ f, fuel = f + 1 := ⟨fuel - 1, by omega⟩
    exact ⟨line, _, Nat.le_refl _, scanQuoted_close hw hquote htail acc line hcolumn,
      fun _ ↦ ⟨rfl, rfl⟩⟩
  | @spaces w cs written k hw hk hcs rest ih =>
    simp only [List.length_append, length_spaces] at hfuel
    obtain ⟨fuel, rfl⟩ : ∃ f, fuel = f + 1 := ⟨fuel - 1, by omega⟩
    have hword : AtWord isSpace (written ++ quote :: tail) := hcs.append (atWord_cons hquote tail)
    have hhead : ∃ c cs', Yaml.spaces k ++ (written ++ quote :: tail) = c :: cs' ∧
        isSpace c = true := by
      obtain ⟨k, rfl⟩ : ∃ j, k = j + 1 := ⟨k - 1, by omega⟩
      exact ⟨' ', _, rfl, by decide⟩
    have hgap := Gap.scan_spaces 0 hword k
      ((Yaml.spaces k ++ (written ++ quote :: tail)).length + 1)
      (by rw [List.length_append, length_spaces]; omega) [] line (column + (w.flatMap enc).length)
    obtain ⟨line', column', hline, hscan, hplace⟩ := ih fuel (by omega)
      ((Yaml.spaces k).reverse ++ (w.reverse ++ acc)) line
      (by omega : 0 < column + (w.flatMap enc).length + k)
    refine ⟨line', column', hline, ?_, fun hbreaks ↦ ?_⟩
    · rw [List.append_assoc, List.append_assoc, scanQuoted_gap hw hquote hhead acc hcolumn hgap]
      simpa [Gap.text] using hscan
    · obtain ⟨rfl, rfl⟩ := hplace fun c hc ↦ hbreaks c (by simp [hc])
      refine ⟨rfl, ?_⟩
      rw [List.length_append, List.length_append, length_spaces]
      omega
  | @breaks w cs written breaks b k hw hb hfeed hbreaks hk hcs rest ih =>
    simp only [List.length_append, List.length_cons] at hfuel
    obtain ⟨fuel, rfl⟩ : ∃ f, fuel = f + 1 := ⟨fuel - 1, by omega⟩
    have hword : AtWord isSpace (written ++ quote :: tail) := hcs.append (atWord_cons hquote tail)
    have hhead : ∃ c cs', b :: (breaks ++ (Yaml.spaces k ++ (written ++ quote :: tail))) =
        c :: cs' ∧ isSpace c = true := ⟨b, _, rfl, by rw [isSpace, hb, Bool.or_true]⟩
    have hgap := Gap.scan_breaks 0 hword hb hbreaks k
      ((b :: (breaks ++ (Yaml.spaces k ++ (written ++ quote :: tail)))).length + 1)
      (by simp only [List.length_cons, List.length_append, length_spaces]; omega) line
      (column + (w.flatMap enc).length)
    obtain ⟨line', column', hline, hscan, -⟩ := ih fuel (by omega)
      ((b :: breaks).reverse ++ (w.reverse ++ acc)) (line + 1 + breaks.length) hk
    refine ⟨line', column', by omega, ?_, fun hnone ↦ ?_⟩
    · have hassoc :
          w.flatMap enc ++ (b :: (breaks ++ (Yaml.spaces k ++ written))) ++ quote :: tail =
          w.flatMap enc ++ (b :: (breaks ++ (Yaml.spaces k ++ (written ++ quote :: tail)))) := by
        simp
      rw [hassoc, scanQuoted_gap hw hquote hhead acc hcolumn hgap]
      simpa [Gap.text, hfeed] using hscan
    · exact absurd hb (by simp [hnone b])

end Quoted

/-! ## Texts in double quotes -/

/-- A character with an escape is read back. -/
theorem scanQuotedRun_escape (c : Char) (fuel : Nat) (acc r : List Char) (line column : Nat) :
    scanQuotedRun '"' (fuel + 1) acc ⟨'\\' :: (escapeOf c ++ r), line, column⟩ =
      scanQuotedRun '"' fuel (c :: acc) ⟨r, line, column + 1 + (escapeOf c).length⟩ := by
  obtain ⟨e, es, he, hvisible⟩ := escapeOf_head c
  have hscan := scanEscape_escapeOf c r line (column + 1)
  have hspace : (isBlank '\\' || isBreak '\\') = false := by decide
  rw [he, List.cons_append] at hscan ⊢
  simp [scanQuotedRun, hspace, hvisible.isBreak, Cursor.skip, hscan]

/-- A character that is neither white space nor special in quotes is read as itself. -/
theorem scanQuotedRun_self {quote c : Char} (hspace : isSpace c = false) (hquote : c ≠ quote)
    (hescape : quote = '"' → c ≠ '\\') (fuel : Nat) (acc r : List Char) (line column : Nat) :
    scanQuotedRun quote (fuel + 1) acc ⟨c :: r, line, column⟩ =
      scanQuotedRun quote fuel (c :: acc) ⟨r, line, column + 1⟩ := by
  obtain ⟨hblank, hbreak⟩ := Bool.or_eq_false_iff.mp hspace
  have hdoubled : ¬(quote = '\'' ∧ c = '\'') := fun ⟨hsingle, heq⟩ ↦ hquote (heq.trans hsingle.symm)
  have hescaped : ¬(quote = '"' ∧ c = '\\') := fun ⟨hdouble, heq⟩ ↦ hescape hdouble heq
  simp [scanQuotedRun, hblank, hbreak, hquote, hdoubled, hescaped, Cursor.next]

theorem encodes_doubleEscaped {c : Char} (h : c ≠ ' ') : Encodes '"' doubleEscaped c := by
  by_cases hescape : !isPrintable c || breaksLine c || c == '"' || c == '\\'
  · have henc : doubleEscaped c = '\\' :: escapeOf c := if_pos hescape
    refine ⟨⟨'\\', _, henc, by decide⟩, fun fuel acc r line column ↦ ?_⟩
    rw [henc, List.cons_append, scanQuotedRun_escape, List.length_cons, Nat.add_assoc,
      Nat.add_comm 1]
  · have henc : doubleEscaped c = [c] := if_neg hescape
    simp only [Bool.or_eq_true, not_or, Bool.not_eq_true, Bool.not_eq_false', beq_iff_eq] at hescape
    obtain ⟨⟨⟨hprintable, hbreak⟩, hquote⟩, hbackslash⟩ := hescape
    have hspace : isSpace c = false := by
      rw [isSpace, isBlank_eq_space hprintable, isBreak_eq_breaksLine hprintable, hbreak]
      simpa using h
    refine ⟨⟨c, [], henc, hspace⟩, fun fuel acc r line column ↦ ?_⟩
    rw [henc]
    exact scanQuotedRun_self hspace hquote (fun _ ↦ hbackslash) fuel acc r line column

theorem atWord_flatMap {quote : Char} {enc : Char → List Char} {cs : List Char}
    (h : ∀ c ∈ cs.head?, Encodes quote enc c) : AtWord isSpace (cs.flatMap enc) := by
  cases cs with
  | nil => simp [AtWord]
  | cons c cs =>
    obtain ⟨d, ds, hc, hd⟩ := (h c rfl).begins
    rw [List.flatMap_cons, hc]
    exact atWord_cons hd _

theorem eq_spaces {gap : List Char} (h : ∀ c ∈ gap, c = ' ') : gap = spaces gap.length :=
  List.eq_replicate_of_mem h

theorem flatMap_spaces {enc : Char → List Char} (h : enc ' ' = [' ']) (k : Nat) :
    (spaces k).flatMap enc = spaces k := by
  induction k with
  | zero => rfl
  | succ k ih =>
    rw [spaces_succ, List.flatMap_cons, ih, h]
    rfl

theorem quotes_double (cs : List Char) :
    Quotes '"' doubleEscaped cs (cs.flatMap doubleEscaped) := by
  have hencodes : ∀ c, (c == ' ') = false → Encodes '"' doubleEscaped c :=
    fun c hc ↦ encodes_doubleEscaped (by simpa using hc)
  induction words (· == ' ') cs with
  | last hw => exact Quotes.last fun c hc ↦ hencodes c (hw c hc)
  | @more w gap cs hw hne hgap hcs rest ih =>
    have hspaces : gap = spaces gap.length := eq_spaces fun c hc ↦ by simpa using hgap c hc
    rw [hspaces, List.flatMap_append, List.flatMap_append, flatMap_spaces (by decide)]
    exact Quotes.spaces (fun c hc ↦ hencodes c (hw c hc)) (List.length_pos_iff.mpr hne)
      (atWord_flatMap fun c hc ↦ hencodes c (hcs c hc)) ih

/-! ## Texts in single quotes -/

/-- How a character that does not break a line is written in single quotes. -/
def singleEscaped (c : Char) : List Char := if c == '\'' then ['\'', '\''] else [c]

theorem encodes_singleEscaped {c : Char} (h : isSpace c = false) :
    Encodes '\'' singleEscaped c := by
  by_cases hquote : c = '\''
  · subst hquote
    have hspace : (isBlank '\'' || isBreak '\'') = false := by decide
    refine ⟨⟨'\'', ['\''], rfl, by decide⟩, fun fuel acc r line column ↦ ?_⟩
    simp [scanQuotedRun, singleEscaped, hspace, Cursor.skip]
  · have henc : singleEscaped c = [c] := if_neg (by simpa using hquote)
    refine ⟨⟨c, [], henc, h⟩, fun fuel acc r line column ↦ ?_⟩
    rw [henc]
    exact scanQuotedRun_self h hquote (fun heq ↦ absurd heq (by decide)) fuel acc r line column

/-- Whether two neighbouring characters satisfy `p` and `q` is a matter of the first two and of the
rest. -/
theorem hasPair_cons_cons (p q : Char → Bool) (a b : Char) (cs : List Char) :
    hasPair p q (a :: b :: cs) = (p a && q b || hasPair p q (b :: cs)) := by
  cases cs <;> rfl

theorem hasPair_append {p q : Char → Bool} {xs ys : List Char}
    (h : hasPair p q (xs ++ ys) = false) :
    hasPair p q xs = false ∧ hasPair p q ys = false := by
  induction xs with
  | nil => exact ⟨rfl, h⟩
  | cons a xs ih =>
    cases xs with
    | nil =>
      refine ⟨rfl, ?_⟩
      cases ys with
      | nil => rfl
      | cons b ys =>
        rw [List.singleton_append, hasPair_cons_cons, Bool.or_eq_false_iff] at h
        exact h.2
    | cons b xs =>
      rw [List.cons_append, List.cons_append, hasPair_cons_cons, Bool.or_eq_false_iff] at h
      obtain ⟨hxs, hys⟩ := ih h.2
      exact ⟨by rw [hasPair_cons_cons, h.1, hxs]; rfl, hys⟩

/-- Without a change from the one kind of character to the other, all are of the kind of the
first. -/
theorem forall_of_hasPair {p q : Char → Bool} {cs : List Char} (h : hasPair p q cs = false)
    (hpq : ∀ c ∈ cs, p c = true ∨ q c = true) (hhead : ∀ c ∈ cs.head?, p c = true) :
    ∀ c ∈ cs, p c = true := by
  induction cs with
  | nil => simp
  | cons a cs ih =>
    have ha : p a = true := hhead a rfl
    refine List.forall_mem_cons.mpr ⟨ha, ?_⟩
    cases cs with
    | nil => simp
    | cons b cs =>
      rw [hasPair_cons_cons, ha, Bool.true_and, Bool.or_eq_false_iff] at h
      refine ih h.2 (fun c hc ↦ hpq c (List.mem_cons_of_mem _ hc)) fun c hc ↦ ?_
      rw [← Option.some.inj hc]
      exact (hpq b (by simp)).resolve_right (by simp [h.1])

/-- What a text in single quotes is like: all characters are printable, line feeds do not occur, and
there is no space next to a break. -/
structure IsSingle (cs : List Char) : Prop where
  printable : ∀ c ∈ cs, isPrintable c
  unfed : '\n' ∉ cs
  unspaced : hasPair (· == ' ') breaksLine cs = false
  unindented : hasPair breaksLine (· == ' ') cs = false

theorem IsSingle.of_append {xs ys : List Char} (h : IsSingle (xs ++ ys)) :
    IsSingle xs ∧ IsSingle ys where
  left := ⟨fun c hc ↦ h.printable c (List.mem_append_left _ hc),
    fun hc ↦ h.unfed (List.mem_append_left _ hc), (hasPair_append h.unspaced).1,
    (hasPair_append h.unindented).1⟩
  right := ⟨fun c hc ↦ h.printable c (List.mem_append_right _ hc),
    fun hc ↦ h.unfed (List.mem_append_right _ hc), (hasPair_append h.unspaced).2,
    (hasPair_append h.unindented).2⟩

theorem go_word (indent : Nat) {w : List Char} (hw : ∀ c ∈ w, breaksLine c = false)
    (cs : List Char) :
    singleQuoted.go indent false (w ++ cs) =
      w.flatMap singleEscaped ++ singleQuoted.go indent false cs := by
  induction w with
  | nil => rfl
  | cons c w ih =>
    have hc : breaksLine c = false := hw c List.mem_cons_self
    rw [List.cons_append, singleQuoted.go, if_neg (by simp [hc]),
      ih fun d hd ↦ hw d (List.mem_cons_of_mem _ hd), List.flatMap_cons, singleEscaped]
    simp

theorem go_breaks (indent : Nat) {b : Char} {breaks : List Char}
    (hbreaks : ∀ c ∈ b :: breaks, breaksLine c = true) (broken : Bool) (cs : List Char) :
    singleQuoted.go indent broken (b :: (breaks ++ cs)) =
      b :: (breaks ++ singleQuoted.go indent true cs) := by
  rw [singleQuoted.go, if_pos (hbreaks b List.mem_cons_self)]
  induction breaks generalizing b with
  | nil => rfl
  | cons c breaks ih =>
    have hc : breaksLine c = true := hbreaks c (by simp)
    rw [List.cons_append, singleQuoted.go, if_pos hc, List.cons_append]
    exact congrArg (b :: ·) (ih fun d hd ↦ hbreaks d (List.mem_cons_of_mem _ hd))

theorem go_broken (indent : Nat) {cs : List Char} (h : AtWord breaksLine cs) :
    singleQuoted.go indent true cs = spaces indent ++ singleQuoted.go indent false cs := by
  cases cs with
  | nil => rfl
  | cons c cs =>
    have hc : ¬breaksLine c = true := by simp [h c rfl]
    simp [singleQuoted.go, if_neg hc]

theorem atWord_flatMap_append {quote : Char} {enc : Char → List Char} {w : List Char}
    (hw : ∀ c ∈ w, Encodes quote enc c) {cs rest : List Char} (hcs : AtWord isSpace (w ++ cs))
    (hrest : AtWord isSpace cs → AtWord isSpace rest) : AtWord isSpace (w.flatMap enc ++ rest) := by
  cases w with
  | nil => exact hrest hcs
  | cons c w =>
    obtain ⟨d, ds, hc, hd⟩ := (hw c List.mem_cons_self).begins
    rw [List.flatMap_cons, hc]
    exact atWord_cons hd _

/-- What is written begins with white space only where the text does. -/
theorem Quotes.atWord {quote : Char} {enc : Char → List Char} {cs written : List Char}
    (h : Quotes quote enc cs written) (hcs : AtWord isSpace cs) : AtWord isSpace written := by
  cases h with
  | last hw => exact atWord_flatMap fun c hc ↦ hw c (List.mem_of_mem_head? hc)
  | @spaces w cs written k hw hk =>
    refine atWord_flatMap_append hw hcs fun hspaces ↦ ?_
    obtain ⟨k, rfl⟩ : ∃ j, k = j + 1 := ⟨k - 1, by omega⟩
    exact absurd (hspaces ' ' rfl) (by decide)
  | breaks hw hb =>
    refine atWord_flatMap_append hw hcs fun hbreaks ↦ ?_
    exact absurd (hbreaks _ rfl) (by simp [isSpace, hb])

/-- A text in single quotes is cut up at its spaces and its breaks. -/
theorem quotes_single (indent : Nat) {cs : List Char} (h : IsSingle cs)
    (hindent : 0 < indent ∨ ∀ c ∈ cs, breaksLine c = false) :
    ∃ written, Quotes '\'' singleEscaped cs written ∧
      singleQuoted.go indent false cs = written ++ ['\''] := by
  have hspace : ∀ {c : Char}, isPrintable c → isSpace c = (c == ' ' || breaksLine c) :=
    fun hc ↦ by rw [isSpace, isBlank_eq_space hc, isBreak_eq_breaksLine hc]
  induction words (fun c ↦ c == ' ' || breaksLine c) cs with
  | @last w hw =>
    have hbreaks : ∀ c ∈ w, breaksLine c = false := fun c hc ↦ (Bool.or_eq_false_iff.mp (hw c hc)).2
    have hgo := go_word indent hbreaks []
    rw [List.append_nil] at hgo
    exact ⟨_, Quotes.last fun c hc ↦ encodes_singleEscaped
      (by rw [hspace (h.printable c hc), hw c hc]), hgo⟩
  | @more w gap cs hw hne hgap hcs rest ih =>
    obtain ⟨hword, hrest⟩ := h.of_append
    obtain ⟨hgapSingle, htail⟩ := hrest.of_append
    obtain ⟨written, hquotes, hgo⟩ := ih htail
      (hindent.imp_right fun hnone c hc ↦ hnone c (by simp [hc]))
    have hencodes : ∀ c ∈ w, Encodes '\'' singleEscaped c := fun c hc ↦ encodes_singleEscaped
      (by rw [hspace (hword.printable c hc), hw c hc])
    have hbreaks : ∀ c ∈ w, breaksLine c = false := fun c hc ↦ (Bool.or_eq_false_iff.mp (hw c hc)).2
    have hwritten : AtWord isSpace written := hquotes.atWord fun c hc ↦ by
      rw [hspace (htail.printable c (List.mem_of_mem_head? hc))]
      exact hcs c hc
    have hkinds : ∀ c ∈ gap, (c == ' ') = true ∨ breaksLine c = true :=
      fun c hc ↦ by simpa using hgap c hc
    obtain ⟨b, breaks, rfl⟩ := List.exists_cons_of_ne_nil hne
    rcases hkinds b List.mem_cons_self with hb | hb
    · -- a gap that begins with a space has no breaks
      have hall := forall_of_hasPair hgapSingle.unspaced hkinds
        fun c hc ↦ Option.some.inj hc ▸ hb
      have hspaces := eq_spaces fun c hc ↦ beq_iff_eq.mp (hall c hc)
      rw [hspaces, go_word indent hbreaks]
      refine ⟨_, Quotes.spaces hencodes (by simp) hwritten hquotes, ?_⟩
      have hplain : ∀ c ∈ spaces (b :: breaks).length, breaksLine c = false := by
        intro c hc
        rw [eq_of_mem_spaces hc]
        decide
      rw [go_word indent hplain, flatMap_spaces (by decide), hgo]
      simp
    · -- a gap that begins with a break has no spaces
      have hall := forall_of_hasPair hgapSingle.unindented (fun c hc ↦ (hkinds c hc).symm)
        fun c hc ↦ Option.some.inj hc ▸ hb
      have hpositive : 0 < indent := hindent.resolve_right fun hnone ↦ by simp [hnone b] at hb
      have hfeed : b ≠ '\n' := fun heq ↦ hgapSingle.unfed (by simp [heq])
      have hreader : ∀ c ∈ b :: breaks, isBreak c = true := fun c hc ↦ by
        rw [isBreak_eq_breaksLine (hgapSingle.printable c hc), hall c hc]
      have hnext : AtWord breaksLine cs := fun c hc ↦ (Bool.or_eq_false_iff.mp (hcs c hc)).2
      refine ⟨_, Quotes.breaks hencodes (hreader b List.mem_cons_self) hfeed
        (fun c hc ↦ hreader c (List.mem_cons_of_mem _ hc)) hpositive hwritten hquotes, ?_⟩
      rw [go_word indent hbreaks, List.cons_append, go_breaks indent hall, go_broken indent hnext,
        hgo]
      simp

/-! ## Plain scalars -/

theorem separates_of_isSpace {c : Char} (h : isSpace c = true) : separates c = true := by
  simp only [isSpace, isBlank, isBreak, Bool.or_eq_true] at h
  simp only [separates, breaksLine, Bool.or_eq_true]
  rcases h with (h | h) | (h | h) | h <;> simp [h]

theorem interrupts_append {xs ys : List Char} {before : Char}
    (h : interrupts before (xs ++ ys) = false) :
    interrupts (xs.getLastD before) ys = false := by
  induction xs generalizing before with
  | nil => exact h
  | cons c xs ih =>
    rw [List.cons_append, interrupts, Bool.or_eq_false_iff] at h
    rw [List.getLastD_cons]
    exact ih h.2

/-- A text that can stand plain, after some character: it is printable and on one line, nothing in
it ends it early, and there is no space at its end. -/
structure IsPlain (before : Char) (cs : List Char) : Prop where
  printable : ∀ c ∈ cs, isPrintable c
  unbroken : ∀ c ∈ cs, breaksLine c = false
  uninterrupted : interrupts before cs = false
  closed : cs.getLast? ≠ some ' '

/-- What can stand after a plain scalar: a colon that makes it a key, or the end of the line with
the indentation of a next line that is indented less or ends the document. `start` tells whether the
reader then stands at the start of a line, and `c` is where it stands. -/
inductive PlainEnds (indent : Nat) (line column : Nat) : List Char → Bool → Cursor → Prop
  | colon {rest : List Char} (h : atSpace rest = true) :
      PlainEnds indent line column (':' :: rest) false ⟨':' :: rest, line, column⟩
  | newline {k : Nat} {rest : List Char} (hrest : AtWord isSpace rest)
      (hk : k < indent ∨ rest = [] ∨ Cursor.atDocumentMarker ⟨rest, line + 1, k⟩ = true) :
      PlainEnds indent line column ('\n' :: (spaces k ++ rest)) true ⟨rest, line + 1, k⟩

theorem scanPlainRun_word {w r : List Char} (hw : ∀ c ∈ w, isSpace c = false)
    (hcolon : ∀ xs ys, w = xs ++ ':' :: ys → atSpace (ys ++ r) = false)
    (hr : ∃ c cs, r = c :: cs ∧ (isSpace c = true ∨ c = ':' ∧ atSpace cs = true)) (fuel : Nat)
    (acc : List Char) (line column : Nat) :
    scanPlainRun false (w.length + fuel + 1) acc ⟨w ++ r, line, column⟩ =
      some (w.reverse ++ acc, ⟨r, line, column + w.length⟩) := by
  induction w generalizing acc column with
  | nil =>
    obtain ⟨c, cs, rfl, hc | ⟨rfl, hcs⟩⟩ := hr
    · rw [List.nil_append, scanPlainRun]
      exact if_pos hc
    · have hspace : (isBlank ':' || isBreak ':') = false := by decide
      simp [scanPlainRun, hspace, hcs]
  | cons c w ih =>
    have hc : isSpace c = false := hw c List.mem_cons_self
    have hnext : ¬(c = ':' ∧ atSpace (w ++ r) = true) := by
      rintro ⟨rfl, hspace⟩
      rw [hcolon [] w rfl] at hspace
      exact absurd hspace (by decide)
    obtain ⟨hblank, hbreak⟩ := Bool.or_eq_false_iff.mp hc
    have hrest := ih (fun d hd ↦ hw d (List.mem_cons_of_mem _ hd))
      (fun xs ys heq ↦ hcolon (c :: xs) ys (by rw [heq]; rfl)) (c :: acc) (column + 1)
    rw [List.reverse_cons, List.append_assoc, List.singleton_append, List.length_cons,
      Nat.add_right_comm w.length 1 fuel, Nat.add_comm w.length 1, ← Nat.add_assoc column, ← hrest,
      List.cons_append, scanPlainRun]
    simp [hblank, hbreak, hnext, Cursor.next]

theorem IsPlain.isSpace {before c : Char} {cs : List Char} (h : IsPlain before cs) (hc : c ∈ cs) :
    isSpace c = (c == ' ') := by
  rw [Yaml.isSpace, isBlank_eq_space (h.printable c hc), isBreak_eq_breaksLine (h.printable c hc),
    h.unbroken c hc, Bool.or_false]

theorem atSpace_append {cs : List Char} (h : cs.head?.all separates = false) (r : List Char) :
    atSpace (cs ++ r) = false := by
  cases cs with
  | nil => exact absurd h (by decide)
  | cons c cs =>
    have hc : separates c = false := by simpa using h
    change isSpace c = false
    cases hspace : isSpace c with
    | false => rfl
    | true => rw [separates_of_isSpace hspace] at hc; exact absurd hc (by decide)

/-- A colon in a plain text has something after it. -/
theorem IsPlain.atSpace {before : Char} {xs ys : List Char} (h : IsPlain before (xs ++ ':' :: ys))
    (r : List Char) : atSpace (ys ++ r) = false := by
  have hcolon := interrupts_append h.uninterrupted
  rw [interrupts, Bool.or_eq_false_iff, Bool.or_eq_false_iff] at hcolon
  exact atSpace_append (by simpa using hcolon.1.1) r

theorem IsPlain.of_spaces {before : Char} {w cs : List Char} {k : Nat} (hk : 0 < k)
    (h : IsPlain before (w ++ (spaces k ++ cs))) : IsPlain ' ' cs where
  printable c hc := h.printable c (by simp [hc])
  unbroken c hc := h.unbroken c (by simp [hc])
  uninterrupted := by
    obtain ⟨k, rfl⟩ : ∃ j, k = j + 1 := ⟨k - 1, by omega⟩
    have hrest := interrupts_append (interrupts_append h.uninterrupted)
    rwa [spaces, List.replicate_succ', List.getLastD_concat] at hrest
  closed := by
    intro hlast
    refine h.closed ?_
    rw [List.getLast?_append, List.getLast?_append, hlast]
    rfl

theorem IsPlain.ne_nil {before : Char} {w cs : List Char} {k : Nat} (hk : 0 < k)
    (h : IsPlain before (w ++ (spaces k ++ cs))) : cs ≠ [] := by
  rintro rfl
  obtain ⟨k, rfl⟩ : ∃ j, k = j + 1 := ⟨k - 1, by omega⟩
  refine h.closed ?_
  rw [List.append_nil, List.getLast?_append, spaces, List.replicate_succ', List.getLast?_concat]
  rfl

theorem IsPlain.head_ne_hash {cs : List Char} (h : IsPlain ' ' cs) : cs.head? ≠ some '#' := by
  cases cs with
  | nil => simp
  | cons c cs =>
    intro heq
    have hhash := h.uninterrupted
    rw [Option.some.inj heq, interrupts, Bool.or_eq_false_iff, Bool.or_eq_false_iff] at hhash
    exact absurd hhash.1.2 (by decide)

section Plain

variable {indent line column fuel : Nat} {gap : Gap}

/-- A plain scalar does not go on after the end of the document. -/
theorem scanPlain_stop (indent : Nat) {rest : List Char}
    (h : rest = [] ∨ Cursor.atDocumentMarker ⟨rest, line, column⟩ = true) (fuel : Nat)
    (acc : List Char) (gap : Gap) :
    scanPlain false indent (fuel + 1) acc gap ⟨rest, line, column⟩ =
      some (acc.reverse, gap.broken, ⟨rest, line, column⟩) := by
  rcases h with rfl | h
  · simp [scanPlain, Cursor.atDocumentMarker, Cursor.atMarker, scanPlainRun]
  · simp [scanPlain, h]

/-- The word at the end of a plain scalar. -/
theorem scanPlain_last {w : List Char} (hne : w ≠ []) (hw : ∀ c ∈ w, isSpace c = false)
    {tail : List Char} {start : Bool} {c : Cursor}
    (hends : PlainEnds indent line (column + w.length) tail start c)
    (hcolon : ∀ xs ys, w = xs ++ ':' :: ys → atSpace (ys ++ tail) = false)
    (hmarker : Cursor.atDocumentMarker ⟨w ++ tail, line, column⟩ = false)
    (hhash : w.head? ≠ some '#') (acc : List Char) :
    scanPlain false indent (fuel + 2) acc gap ⟨w ++ tail, line, column⟩ =
      some (acc.reverse ++ gap.text ++ w, start, c) := by
  have hrun := scanPlainRun_word hw hcolon (r := tail) (by
    cases hends with
    | colon h => exact ⟨':', _, rfl, Or.inr ⟨rfl, h⟩⟩
    | newline => exact ⟨'\n', _, rfl, Or.inl (by decide)⟩) tail.length [] line column
  rw [← List.length_append, List.append_nil] at hrun
  have hstart : (Cursor.atDocumentMarker ⟨w ++ tail, line, column⟩ ||
      (w ++ tail).head? == some '#') = false := by
    rw [hmarker, Bool.false_or, beq_eq_false_iff_ne]
    cases w with
    | nil => exact absurd rfl hne
    | cons d w => exact hhash
  have hword : w.reverse.isEmpty = false := by simpa using hne
  rw [scanPlain, if_neg (by simp only [hstart]; decide)]
  simp only [hrun, Option.bind_eq_bind, Option.bind_some, hword]
  cases hends with
  | colon h =>
    have hspace : isBlank ':' = false ∧ isBreak ':' = false := by decide
    simp [hspace]
  | @newline k rest hrest hk =>
    have hspace : isBreak '\n' = true := by decide
    have hgap := Gap.scan_breaks indent hrest (b := '\n') (by decide)
      (List.forall_mem_nil (isBreak · = true)) k (('\n' :: (spaces k ++ rest)).length + 1)
      (by simp only [List.length_cons, List.length_nil, List.length_append, length_spaces]; omega)
      line (column + w.length)
    simp only [List.nil_append, List.length_nil, Nat.add_zero] at hgap
    by_cases hless : k < indent
    · simp [hspace, hgap, hless, -List.length_cons, -List.length_append]
    · have hstop := scanPlain_stop indent (hk.resolve_left hless) fuel
        (w.reverse ++ (gap.text.reverse ++ acc)) ⟨[], true, ['\n'], []⟩
      simp [hspace, hgap, hless, hstop, -List.length_cons, -List.length_append]

/-- A word of a plain scalar before other words of the same line. -/
theorem scanPlain_word {w r : List Char} (hne : w ≠ []) (hw : ∀ c ∈ w, isSpace c = false) {k : Nat}
    (hk : 0 < k) (hr : AtWord isSpace r) (hindent : indent ≤ column + w.length + k)
    (hcolon : ∀ xs ys, w = xs ++ ':' :: ys → atSpace (ys ++ (spaces k ++ r)) = false)
    (hmarker : Cursor.atDocumentMarker ⟨w ++ (spaces k ++ r), line, column⟩ = false)
    (hhash : w.head? ≠ some '#') (acc : List Char) :
    scanPlain false indent (fuel + 1) acc gap ⟨w ++ (spaces k ++ r), line, column⟩ =
      scanPlain false indent fuel (w.reverse ++ gap.text.reverse ++ acc)
        ⟨spaces k, false, [], []⟩ ⟨r, line, column + w.length + k⟩ := by
  have hgap := Gap.scan_spaces indent hr k ((spaces k ++ r).length + 1)
    (by rw [List.length_append, length_spaces]; omega) [] line (column + w.length)
  obtain ⟨k, rfl⟩ : ∃ j, k = j + 1 := ⟨k - 1, by omega⟩
  have hrun := scanPlainRun_word hw hcolon ⟨' ', _, rfl, Or.inl (by decide)⟩
    (spaces (k + 1) ++ r).length [] line column
  rw [← List.length_append, List.append_nil] at hrun
  have hstart : (Cursor.atDocumentMarker ⟨w ++ (spaces (k + 1) ++ r), line, column⟩ ||
      (w ++ (spaces (k + 1) ++ r)).head? == some '#') = false := by
    rw [hmarker, Bool.false_or, beq_eq_false_iff_ne]
    cases w with
    | nil => exact absurd rfl hne
    | cons d w => exact hhash
  have hword : w.reverse.isEmpty = false := by simpa using hne
  have hspace : isBlank ' ' = true := by decide
  have hhead : (spaces (k + 1) ++ r).head? = some ' ' := rfl
  rw [scanPlain, if_neg (by simp only [hstart]; decide)]
  simp only [hrun, Option.bind_eq_bind, Option.bind_some, hword]
  rw [show Gap.none = ⟨[], false, [], []⟩ from rfl, hgap]
  simp [hspace, hhead, Nat.not_lt.mpr hindent]

/-- A plain text is read back. -/
theorem scanPlain_text {before : Char} {cs tail : List Char} (h : IsPlain before cs) (hne : cs ≠ [])
    (hhead : cs.head? ≠ some ' ') (hhash : cs.head? ≠ some '#') (hindent : indent ≤ column + 1)
    (hmarker : Cursor.atDocumentMarker ⟨cs ++ tail, line, column⟩ = false) {start : Bool}
    {c : Cursor} (hends : PlainEnds indent line (column + cs.length) tail start c)
    (fuel : Nat) (hfuel : cs.length + 1 < fuel) (gap : Gap) (acc : List Char) :
    scanPlain false indent fuel acc gap ⟨cs ++ tail, line, column⟩ =
      some (acc.reverse ++ gap.text ++ cs, start, c) := by
  -- a plain text is on one line, so its words have only spaces between them
  induction words (· == ' ') cs generalizing before fuel gap acc column with
  | @last w hw =>
    obtain ⟨fuel, rfl⟩ : ∃ f, fuel = f + 2 := ⟨fuel - 2, by omega⟩
    exact scanPlain_last hne (fun c hc ↦ by rw [h.isSpace hc, hw c hc]) hends
      (fun xs ys heq ↦ (heq ▸ h).atSpace tail) hmarker hhash acc
  | @more w gap' cs hw hgap hspaces hcs rest ih =>
    obtain ⟨k, hk, rfl⟩ : ∃ k, 0 < k ∧ gap' = spaces k :=
      ⟨gap'.length, List.length_pos_iff.mpr hgap, eq_spaces fun c hc ↦ by simpa using hspaces c hc⟩
    obtain ⟨fuel, rfl⟩ : ∃ f, fuel = f + 1 := ⟨fuel - 1, by omega⟩
    have hw' : ∀ c ∈ w, isSpace c = false := fun c hc ↦ by
      rw [h.isSpace (List.mem_append_left _ hc), hw c hc]
    have hwne : w ≠ [] := by
      rintro rfl
      obtain ⟨k, rfl⟩ : ∃ j, k = j + 1 := ⟨k - 1, by omega⟩
      exact hhead rfl
    obtain ⟨d, w, rfl⟩ := List.exists_cons_of_ne_nil hwne
    have hnext : IsPlain ' ' cs := h.of_spaces hk
    have hcsne : cs ≠ [] := h.ne_nil hk
    have htail : AtWord isSpace (cs ++ tail) := by
      obtain ⟨e, cs, rfl⟩ := List.exists_cons_of_ne_nil hcsne
      exact atWord_cons ((hnext.isSpace List.mem_cons_self).trans (hcs e rfl)) _
    have hlength : (d :: w ++ (spaces k ++ cs)).length = (d :: w).length + k + cs.length := by
      rw [List.length_append, List.length_append, length_spaces, Nat.add_assoc]
    rw [hlength] at hends hfuel
    have hcolon : ∀ xs ys, d :: w = xs ++ ':' :: ys →
        atSpace (ys ++ (spaces k ++ (cs ++ tail))) = false := by
      intro xs ys heq
      have hplain := h
      rw [heq, List.append_assoc, List.cons_append] at hplain
      have hspace := hplain.atSpace tail
      rwa [List.append_assoc, List.append_assoc] at hspace
    have hcshead : cs.head? ≠ some ' ' := fun heq ↦ absurd (hcs ' ' heq) (by decide)
    rw [List.append_assoc, List.append_assoc] at hmarker ⊢
    rw [scanPlain_word hwne hw' hk htail (by simp; omega) hcolon hmarker hhash,
      ih hnext hcsne hcshead hnext.head_ne_hash (by omega)
        (atDocumentMarker_of_pos (by omega) _ _)
        (by rwa [Nat.add_assoc, Nat.add_assoc, ← Nat.add_assoc _ k]) fuel (by omega)]
    simp [Gap.text]

end Plain

end Reachability.Yaml
