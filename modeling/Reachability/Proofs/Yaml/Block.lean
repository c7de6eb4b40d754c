import Mathlib.Data.List.Basic
import Mathlib.Data.List.TakeDrop
import Reachability.Proofs.Yaml.Scalar

/-!
# Reading back literal blocks

A literal block is read line by line, so the text is cut up at its breaks. A line that has text is
indented, and a line without text is not, so the breaks of the text stand in a row in the block.
What becomes of the breaks at the end depends on an indicator, which the writer picks by how many
there are (`chompingOf`).
-/

namespace Reachability.Yaml

/-! ## The header -/

/-- How a writer has the breaks at the end of a text treated. -/
def chompingOf (cs : List Char) : Chomping :=
  match cs.reverse with
  | [] => .strip
  | [c] => if breaksLine c then .keep else .strip
  | c :: d :: _ => if !breaksLine c then .strip else if breaksLine d then .keep else .clip

/-- The indicator that asks for a treatment of breaks. -/
def indicator : Chomping → List Char
  | .strip => ['-']
  | .clip => []
  | .keep => ['+']

/-- Whether a block must say how far it is indented, because it begins with white space. -/
def needsColumns (cs : List Char) : Bool := cs.head?.any fun c ↦ c == ' ' || breaksLine c

theorem literalHints_eq (cs : List Char) :
    literalHints cs = (if needsColumns cs then ['2'] else []) ++ indicator (chompingOf cs) := by
  rw [literalHints, chompingOf]
  generalize cs.reverse = ds
  congr 1
  rcases ds with _ | ⟨c, _ | ⟨d, ds⟩⟩
  · rfl
  · cases hc : breaksLine c <;> simp [hc, indicator]
  · cases hc : breaksLine c <;> cases hd : breaksLine d <;> simp [hc, hd, indicator]

theorem scanBlockHeader_hints (columns : Bool) (chomping : Chomping) (r : List Char)
    (line column : Nat) :
    scanBlockHeader
        ⟨(if columns then ['2'] else []) ++ indicator chomping ++ '\n' :: r, line, column⟩ =
      some (chomping, if columns then some 2 else none, ⟨r, line + 1, 0⟩) := by
  cases columns <;> cases chomping <;> rfl

/-! ## Indentation -/

/-- How many of the spaces in front of a line are skipped. -/
theorem takeWhile_spaces (k : Nat) {r : List Char} (hr : AtWord (· == ' ') r) :
    ((spaces k ++ r).takeWhile (· == ' ')).length = k := by
  rw [List.takeWhile_append_of_pos fun c hc ↦ beq_iff_eq.mpr (eq_of_mem_spaces hc)]
  cases r with
  | nil => simp [spaces]
  | cons c r =>
    rw [List.takeWhile_cons_of_neg (by simp [hr c rfl])]
    simp [spaces]

theorem le_takeWhile_spaces (k : Nat) (r : List Char) :
    k ≤ ((spaces k ++ r).takeWhile (· == ' ')).length := by
  rw [List.takeWhile_append_of_pos fun c hc ↦ beq_iff_eq.mpr (eq_of_mem_spaces hc),
    List.length_append]
  simp [spaces]

theorem drop_spaces (k : Nat) (r : List Char) : (spaces k ++ r).drop k = r := by
  rw [List.drop_append_of_le_length (by simp [spaces]), List.drop_of_length_le (by simp [spaces])]
  rfl

theorem atWord_space {r : List Char} (h : AtWord isSpace r) : AtWord (· == ' ') r := by
  intro c hc
  have hspace := h c hc
  simp only [isSpace, isBlank, Bool.or_eq_false_iff] at hspace
  exact hspace.1.1

/-- Where the reader is after breaks and indentation: at the text of a line, or at something that is
indented less. -/
def AtLine (n k : Nat) (r : List Char) : Prop :=
  k = n ∧ AtWord isBreak r ∨ k < n ∧ AtWord isSpace r

theorem scanIndentation_breaks {n k : Nat} {breaks r : List Char}
    (hbreaks : ∀ c ∈ breaks, isBreak c = true) (hr : AtLine n k r) (fuel : Nat)
    (hfuel : breaks.length < fuel) (seen : List Char) (deepest line : Nat) :
    ∃ deepest', scanIndentation (some n) fuel seen deepest ⟨breaks ++ (spaces k ++ r), line, 0⟩ =
      some (seen ++ breaks, deepest', ⟨r, line + breaks.length, k⟩) := by
  induction breaks generalizing fuel seen deepest line with
  | nil =>
    obtain ⟨fuel, rfl⟩ : ∃ f, fuel = f + 1 := ⟨fuel - 1, by omega⟩
    have hmin : min ((spaces k ++ r).takeWhile (· == ' ')).length n = k := by
      rcases hr with ⟨rfl, -⟩ | ⟨hk, hword⟩
      · exact Nat.min_eq_right (le_takeWhile_spaces k r)
      · rw [takeWhile_spaces k (atWord_space hword)]
        exact Nat.min_eq_left (Nat.le_of_lt hk)
    have hbreak : AtWord isBreak r := by
      rcases hr with ⟨-, hword⟩ | ⟨-, hword⟩
      · exact hword
      · exact fun c hc ↦ (Bool.or_eq_false_iff.mp (hword c hc)).2
    have htab : ∀ c ∈ r.head?, ¬(c = '\t' ∧ k < n) := by
      rintro c hc ⟨rfl, hlt⟩
      rcases hr with ⟨rfl, -⟩ | ⟨-, hword⟩
      · exact Nat.lt_irrefl _ hlt
      · exact absurd (hword '\t' hc) (by decide)
    refine ⟨max deepest k, ?_⟩
    simp only [scanIndentation, List.nil_append, Option.elim_some, Nat.sub_zero, Cursor.skip, hmin,
      drop_spaces, Nat.zero_add]
    cases r with
    | nil => simp
    | cons c r => simp [htab c rfl, hbreak c rfl]
  | cons b breaks ih =>
    obtain ⟨fuel, rfl⟩ : ∃ f, fuel = f + 1 := ⟨fuel - 1, by omega⟩
    have hb : isBreak b = true := hbreaks b List.mem_cons_self
    have hblank : isBlank b = false := isBlank_of_isBreak hb
    simp only [isBlank, Bool.or_eq_false_iff] at hblank
    obtain ⟨deepest', hrest⟩ := ih (fun c hc ↦ hbreaks c (List.mem_cons_of_mem _ hc)) fuel
      (by rw [List.length_cons] at hfuel; omega) (seen ++ [b]) (max deepest 0) (line + 1)
    rw [List.append_assoc, List.singleton_append, Nat.add_right_comm, Nat.add_assoc] at hrest
    refine ⟨deepest', ?_⟩
    rw [List.length_cons, ← hrest]
    simp [scanIndentation, hb, hblank, Cursor.skip, Cursor.next]

/-! ## Breaks at the end -/

/-- What is kept of the breaks at the end of a block. -/
def kept (chomping : Chomping) (last breaks : List Char) : List Char :=
  match chomping with
  | .strip => []
  | .clip => last
  | .keep => last ++ breaks

/-- A block ends with a break. One is added if the text has none at its end. -/
def blockEnd (cs : List Char) : List Char := if cs.getLast?.any breaksLine then [] else ['\n']

theorem chompingOf_concat (cs : List Char) (c : Char) :
    chompingOf (cs ++ [c]) =
      if breaksLine c then if cs.getLast?.all breaksLine then .keep else .clip else .strip := by
  rw [chompingOf, List.reverse_concat, List.getLast?_eq_head?_reverse]
  rcases cs.reverse with _ | ⟨d, ds⟩
  · rfl
  · cases hc : breaksLine c <;> cases hd : breaksLine d <;> simp [hc, hd]

theorem chompingOf_append (xs : List Char) {cs : List Char} (hne : cs ≠ [])
    (hword : AtWord breaksLine cs) : chompingOf (xs ++ cs) = chompingOf cs := by
  obtain ⟨ys, c, rfl⟩ := List.eq_nil_or_concat' cs |>.resolve_left hne
  rw [← List.append_assoc, chompingOf_concat, chompingOf_concat]
  cases hc : breaksLine c with
  | false => rfl
  | true =>
    have hys : ys ≠ [] := by
      rintro rfl
      rw [hword c rfl] at hc
      exact absurd hc (by decide)
    rw [List.getLast?_append_of_ne_nil _ hys]

theorem blockEnd_append (xs : List Char) {cs : List Char} (hne : cs ≠ []) :
    blockEnd (xs ++ cs) = blockEnd cs := by
  rw [blockEnd, blockEnd, List.getLast?_append_of_ne_nil _ hne]

theorem chompingOf_word {w : List Char} (hw : ∀ c ∈ w, breaksLine c = false) :
    chompingOf w = .strip := by
  rcases List.eq_nil_or_concat' w with rfl | ⟨xs, c, rfl⟩
  · rfl
  · rw [chompingOf_concat, hw c (by simp)]
    rfl

theorem blockEnd_word {w : List Char} (hw : ∀ c ∈ w, breaksLine c = false) :
    blockEnd w = ['\n'] := by
  rcases List.eq_nil_or_concat' w with rfl | ⟨xs, c, rfl⟩
  · rfl
  · rw [blockEnd, List.getLast?_concat, Option.any_some, hw c (by simp)]
    rfl

theorem blockEnd_breaks (xs : List Char) {breaks : List Char} (hne : breaks ≠ [])
    (hbreaks : ∀ c ∈ breaks, breaksLine c = true) : blockEnd (xs ++ breaks) = [] := by
  obtain ⟨ys, c, rfl⟩ := List.eq_nil_or_concat' breaks |>.resolve_left hne
  rw [blockEnd_append xs hne, blockEnd, List.getLast?_concat, Option.any_some, hbreaks c (by simp)]
  rfl

/-- All breaks after a last line are kept. -/
theorem kept_breaks {w : List Char} (hne : w ≠ []) (hw : ∀ c ∈ w, breaksLine c = false) {b : Char}
    {breaks : List Char} (hbreaks : ∀ c ∈ b :: breaks, breaksLine c = true) :
    kept (chompingOf (w ++ b :: breaks)) [b] breaks = b :: breaks := by
  rcases List.eq_nil_or_concat' breaks with rfl | ⟨ys, c, rfl⟩
  · obtain ⟨xs, d, rfl⟩ := List.eq_nil_or_concat' w |>.resolve_left hne
    rw [chompingOf_concat, List.getLast?_concat, Option.all_some, hbreaks b (by simp),
      hw d (by simp)]
    rfl
  · have hkeep : chompingOf (w ++ b :: (ys ++ [c])) = .keep := by
      obtain ⟨zs, e, he⟩ := List.eq_nil_or_concat' (b :: ys) |>.resolve_left (by simp)
      have hmem : e ∈ b :: ys := by simp [he]
      rw [← List.cons_append, ← List.append_assoc, chompingOf_concat,
        List.getLast?_append_of_ne_nil _ (by simp), he, List.getLast?_concat, Option.all_some,
        hbreaks c (by simp), hbreaks e (by
          rw [← List.cons_append]
          exact List.mem_append_left _ hmem)]
      rfl
    rw [hkeep]
    rfl

/-! ## Lines -/

theorem literalLines_word (n : Nat) {w : List Char} (hw : ∀ c ∈ w, breaksLine c = false)
    (cs : List Char) : literalLines n false (w ++ cs) = w ++ literalLines n false cs := by
  induction w with
  | nil => rfl
  | cons c w ih =>
    have hc : ¬breaksLine c = true := by simp [hw c List.mem_cons_self]
    rw [List.cons_append, literalLines, if_neg hc, ih fun d hd ↦ hw d (List.mem_cons_of_mem _ hd)]
    rfl

theorem literalLines_breaks (n : Nat) {b : Char} {breaks : List Char}
    (hbreaks : ∀ c ∈ b :: breaks, breaksLine c = true) (start : Bool) (cs : List Char) :
    literalLines n start (b :: (breaks ++ cs)) = b :: (breaks ++ literalLines n true cs) := by
  rw [literalLines, if_pos (hbreaks b List.mem_cons_self)]
  induction breaks generalizing b with
  | nil => rfl
  | cons c breaks ih =>
    have hc : breaksLine c = true := hbreaks c (by simp)
    rw [List.cons_append, literalLines, if_pos hc, List.cons_append]
    exact congrArg (b :: ·) (ih fun d hd ↦ hbreaks d (List.mem_cons_of_mem _ hd))

theorem literalLines_start (n : Nat) {cs : List Char} (hne : cs ≠ []) (h : AtWord breaksLine cs) :
    literalLines n true cs = spaces n ++ literalLines n false cs := by
  obtain ⟨c, cs, rfl⟩ := List.exists_cons_of_ne_nil hne
  have hc : ¬breaksLine c = true := by simp [h c rfl]
  rw [literalLines, literalLines, if_neg hc, if_neg hc]
  rfl

theorem length_le_literalLines (n : Nat) (start : Bool) (cs : List Char) :
    cs.length ≤ (literalLines n start cs).length := by
  induction cs generalizing start with
  | nil => exact Nat.zero_le _
  | cons c cs ih =>
    rw [literalLines]
    split
    · exact Nat.succ_le_succ (ih true)
    · have hrest := ih false
      rw [List.length_append, List.length_cons, List.length_cons]
      omega

section Lines

variable {n k : Nat} {tail : List Char}

theorem scanBlockLines_stop {fuel : Nat} (hk : k ≠ n) (acc last breaks : List Char) (blank : Bool)
    (line : Nat) :
    scanBlockLines true n (fuel + 1) acc last breaks blank ⟨tail, line, k⟩ =
      some (acc, last, breaks, ⟨tail, line, k⟩) := by
  cases tail with
  | nil => rfl
  | cons c tail => simp [scanBlockLines, hk]

theorem scanBlockLines_line (fuel : Nat) {c : Char} {w : List Char}
    (hw : ∀ d ∈ c :: w, isBreak d = false) {b : Char} (hb : isBreak b = true)
    {gap r : List Char} (hgap : ∀ d ∈ gap, isBreak d = true)
    (hr : AtLine n k r) (acc last breaks : List Char) (blank : Bool) (line : Nat) :
    scanBlockLines true n (fuel + 1) acc last breaks blank
        ⟨c :: w ++ b :: (gap ++ (spaces k ++ r)), line, n⟩ =
      scanBlockLines true n fuel ((c :: w).reverse ++ breaks.reverse ++ last.reverse ++ acc) [b] gap
        (isBlank c) ⟨r, line + 1 + gap.length, k⟩ := by
  obtain ⟨deepest, hindentation⟩ := scanIndentation_breaks hgap hr
    ((b :: (gap ++ (spaces k ++ r))).length + 1) (by simp; omega) [] 0 (line + 1)
  have hword : ∀ d ∈ c :: w, (!isBreak d) = true := by simpa using hw
  have htake : (c :: (w ++ b :: (gap ++ (spaces k ++ r)))).takeWhile (!isBreak ·) = c :: w := by
    rw [← List.cons_append, List.takeWhile_append_of_pos hword]
    simp [hb]
  have hdrop : (c :: (w ++ b :: (gap ++ (spaces k ++ r)))).dropWhile (!isBreak ·) =
      b :: (gap ++ (spaces k ++ r)) := by
    rw [← List.cons_append, List.dropWhile_append_of_pos hword]
    simp [hb]
  rw [List.nil_append] at hindentation
  rw [scanBlockLines]
  simp [Cursor.run, htake, hdrop, Cursor.next, hb, hindentation, -List.length_cons,
    -List.length_append]

/-- The lines of the text are read, from the first character of one of them. The reader then has the
text after what it had before, and stands at what follows the indentation of a later line. -/
def ReadsLines (n k : Nat) (tail : List Char) (fuel : Nat) (cs : List Char) : Prop :=
  ∀ (acc last breaks : List Char) (blank : Bool) (line : Nat), ∃ acc' last' breaks' line',
    line < line' ∧
      scanBlockLines true n fuel acc last breaks blank
          ⟨literalLines n false cs ++ (blockEnd cs ++ (spaces k ++ tail)), line, n⟩ =
        some (acc', last', breaks', ⟨tail, line', k⟩) ∧
      acc'.reverse ++ kept (chompingOf cs) last' breaks' = acc.reverse ++ last ++ breaks ++ cs

section Pieces

variable {c b : Char} {w gap cs : List Char} (hwordPrintable : ∀ d ∈ c :: w, isPrintable d)
  (hgapPrintable : ∀ d ∈ b :: gap, isPrintable d) (hw : ∀ d ∈ c :: w, breaksLine d = false)
  (hgap : ∀ d ∈ b :: gap, breaksLine d = true)

include hwordPrintable hw

/-- The last line of a text that does not end with a break. -/
theorem readsLines_word (hk : k < n) (htail : AtWord isSpace tail) (fuel : Nat) :
    ReadsLines n k tail (fuel + 2) (c :: w) := by
  intro acc last breaks blank line
  have hlines := literalLines_word n hw []
  rw [List.append_nil, literalLines, List.append_nil] at hlines
  have hline := scanBlockLines_line (fuel + 1) (forall_isBreak hwordPrintable hw) (b := '\n')
    (by decide) (List.forall_mem_nil (isBreak · = true)) (Or.inr ⟨hk, htail⟩) acc last breaks blank
    line
  rw [scanBlockLines_stop (Nat.ne_of_lt hk)] at hline
  refine ⟨_, _, _, _, ?_, by rw [hlines, blockEnd_word hw]; exact hline, ?_⟩
  · simp
  · rw [chompingOf_word hw, kept]
    simp

include hgapPrintable hgap

/-- The last line of a text that ends with breaks. -/
theorem readsLines_breaks (hk : k < n) (htail : AtWord isSpace tail) (fuel : Nat) :
    ReadsLines n k tail (fuel + 2) (c :: w ++ b :: gap) := by
  intro acc last breaks blank line
  have hbreaks := List.forall_mem_cons.mp (forall_isBreak hgapPrintable hgap)
  have hlines : literalLines n false (c :: w ++ b :: gap) = c :: w ++ b :: gap := by
    have hrest := literalLines_breaks n hgap false []
    rw [List.append_nil, literalLines, List.append_nil] at hrest
    rw [literalLines_word n hw, hrest]
  have hline := scanBlockLines_line (fuel + 1) (forall_isBreak hwordPrintable hw) hbreaks.1
    hbreaks.2 (Or.inr ⟨hk, htail⟩) acc last breaks blank line
  rw [scanBlockLines_stop (Nat.ne_of_lt hk)] at hline
  have htext : literalLines n false (c :: w ++ b :: gap) ++ (blockEnd (c :: w ++ b :: gap) ++
      (spaces k ++ tail)) = c :: w ++ b :: (gap ++ (spaces k ++ tail)) := by
    rw [hlines, blockEnd_breaks _ (List.cons_ne_nil b gap) hgap]
    simp
  refine ⟨_, _, _, _, ?_, by rw [htext]; exact hline, ?_⟩
  · omega
  · rw [kept_breaks (List.cons_ne_nil c w) hw hgap]
    simp

/-- A line before other lines. -/
theorem ReadsLines.line {fuel : Nat} (h : ReadsLines n k tail fuel cs)
    (hprintable : ∀ d ∈ cs, isPrintable d) (hne : cs ≠ []) (hcs : AtWord breaksLine cs) :
    ReadsLines n k tail (fuel + 1) (c :: w ++ (b :: gap ++ cs)) := by
  intro acc last breaks blank line
  have hbreaks := List.forall_mem_cons.mp (forall_isBreak hgapPrintable hgap)
  have hlines : literalLines n false (c :: w ++ (b :: gap ++ cs)) =
      c :: w ++ b :: (gap ++ (spaces n ++ literalLines n false cs)) := by
    rw [literalLines_word n hw, ← literalLines_start n hne hcs]
    exact congrArg (c :: w ++ ·) (literalLines_breaks n hgap false cs)
  have hnext : AtLine n n (literalLines n false cs ++ (blockEnd cs ++ (spaces k ++ tail))) := by
    obtain ⟨d, ds, rfl⟩ := List.exists_cons_of_ne_nil hne
    have hd : breaksLine d = false := hcs d rfl
    rw [literalLines, if_neg (by simp [hd])]
    exact Or.inl ⟨rfl, atWord_cons
      ((isBreak_eq_breaksLine (hprintable d List.mem_cons_self)).trans hd) _⟩
  have hline := scanBlockLines_line fuel (forall_isBreak hwordPrintable hw) hbreaks.1 hbreaks.2
    hnext acc last breaks blank line
  obtain ⟨acc', last', breaks', line', hlt, hscan, htext⟩ := h
    ((c :: w).reverse ++ breaks.reverse ++ last.reverse ++ acc) [b] gap (isBlank c)
    (line + 1 + gap.length)
  refine ⟨acc', last', breaks', line', by omega, ?_, ?_⟩
  · rw [← hscan, ← hline, hlines, blockEnd_append _ (by simp), blockEnd_append _ hne]
    simp
  · rw [← List.append_assoc, chompingOf_append _ hne hcs, htext]
    simp

end Pieces

/-- The lines of a text are read back, from the first character of one of them. -/
theorem readsLines_text {cs : List Char} (hprintable : ∀ c ∈ cs, isPrintable c) (hne : cs ≠ [])
    (hhead : AtWord breaksLine cs) (hk : k < n) (htail : AtWord isSpace tail) {fuel : Nat}
    (hfuel : cs.length < fuel) : ReadsLines n k tail fuel cs := by
  induction words breaksLine cs generalizing fuel with
  | @last w hw =>
    obtain ⟨c, w, rfl⟩ := List.exists_cons_of_ne_nil hne
    rw [List.length_cons] at hfuel
    obtain ⟨fuel, rfl⟩ : ∃ f, fuel = f + 2 := ⟨fuel - 2, by omega⟩
    exact readsLines_word hprintable hw hk htail fuel
  | @more w gap cs hw hgap hbreaks hcs rest ih =>
    obtain ⟨b, gap, rfl⟩ := List.exists_cons_of_ne_nil hgap
    have hwne : w ≠ [] := by
      rintro rfl
      have hb := hbreaks b List.mem_cons_self
      rw [hhead b rfl] at hb
      exact absurd hb (by decide)
    obtain ⟨c, w, rfl⟩ := List.exists_cons_of_ne_nil hwne
    obtain ⟨hprintWord, hprintRest⟩ := List.forall_mem_append.mp hprintable
    obtain ⟨hprintGap, hprintNext⟩ := List.forall_mem_append.mp hprintRest
    simp only [List.length_append, List.length_cons] at hfuel
    by_cases hnext : cs = []
    · subst hnext
      obtain ⟨fuel, rfl⟩ : ∃ f, fuel = f + 2 := ⟨fuel - 2, by omega⟩
      rw [List.append_nil]
      exact readsLines_breaks hprintWord hprintGap hw hbreaks hk htail fuel
    · obtain ⟨fuel, rfl⟩ : ∃ f, fuel = f + 1 := ⟨fuel - 1, by omega⟩
      exact (ih hprintNext hnext hcs (by omega)).line hprintWord hprintGap hw hbreaks hprintNext
        hnext hcs

end Lines

/-! ## Blocks -/

theorem literalLines_leading (n : Nat) {breaks : List Char}
    (hbreaks : ∀ c ∈ breaks, breaksLine c = true) (cs : List Char) :
    literalLines n true (breaks ++ cs) = breaks ++ literalLines n true cs := by
  cases breaks with
  | nil => rfl
  | cons b breaks => exact literalLines_breaks n hbreaks true cs

theorem chompingOf_breaks {breaks : List Char} (hne : breaks ≠ [])
    (hbreaks : ∀ c ∈ breaks, breaksLine c = true) : chompingOf breaks = .keep := by
  obtain ⟨ys, c, rfl⟩ := List.eq_nil_or_concat' breaks |>.resolve_left hne
  rw [chompingOf_concat, hbreaks c (by simp)]
  rcases List.eq_nil_or_concat' ys with rfl | ⟨zs, d, rfl⟩
  · rfl
  · rw [List.getLast?_concat, Option.all_some, hbreaks d (by simp)]
    rfl

/-- The indentation of a block that does not say how far it is indented is that of its first
line. -/
theorem scanIndentation_none {c : Char} (hspace : isSpace c = false) (n fuel line : Nat)
    (r : List Char) :
    scanIndentation none (fuel + 1) [] 0 ⟨spaces n ++ c :: r, line, 0⟩ =
      some ([], n, ⟨c :: r, line, n⟩) := by
  obtain ⟨hblank, hbreak⟩ := Bool.or_eq_false_iff.mp hspace
  simp only [isBlank, Bool.or_eq_false_iff, beq_eq_false_iff_ne] at hblank
  have hcount := takeWhile_spaces n (atWord_space (atWord_cons hspace r))
  simp only [scanIndentation, Option.elim_none, Cursor.skip, hcount, drop_spaces]
  simp [hblank, hbreak]

theorem scanBlock_of_lines (columns : Bool) (chomping : Chomping) (column : Nat) {p k : Nat}
    {r tail : List Char} {line line' : Nat} {breaks acc last lastBreaks : List Char}
    {deepest : Nat} {c : Cursor}
    (hindentation : scanIndentation (if columns then some (p + 2) else none) (r.length + 1) [] 0
      ⟨r, line + 1, 0⟩ = some (breaks, deepest, c))
    (hdeepest : columns = false → deepest = p + 2)
    (hlines : scanBlockLines true (p + 2) (c.rest.length + 1) [] [] breaks false c =
      some (acc, last, lastBreaks, ⟨tail, line', k⟩)) :
    scanBlock true (some p)
        ⟨(if columns then ['2'] else []) ++ indicator chomping ++ '\n' :: r, line, column⟩ =
      some (acc.reverse ++ kept chomping last lastBreaks, ⟨tail, line', k⟩) := by
  cases columns with
  | true =>
    rw [scanBlock, scanBlockHeader_hints]
    simp only [if_true, Option.bind_eq_bind, Option.bind_some, Option.map_some, Option.elim_some,
      Option.getD_some] at hindentation ⊢
    rw [hindentation]
    simp only [Option.bind_some, hlines]
    rfl
  | false =>
    have hindent : max (max deepest (p + 1)) 1 = p + 2 := by
      rw [hdeepest rfl]
      omega
    rw [scanBlock, scanBlockHeader_hints]
    simp only [Bool.false_eq_true, if_false, Option.bind_eq_bind, Option.bind_some, Option.map_none,
      Option.elim_some, Option.getD_none] at hindentation ⊢
    rw [hindentation]
    simp only [Option.bind_some, hindent, hlines]
    rfl

section Text

variable {p k : Nat} {breaks lines tail : List Char}

/-- A text that consists of breaks has no lines to be read. -/
theorem scanBlock_breaks (hreader : ∀ c ∈ breaks, isBreak c = true) (hk : k ≤ p)
    (htail : AtWord isSpace tail) (line column : Nat) :
    scanBlock true (some p)
        ⟨['2'] ++ indicator .keep ++ '\n' :: (breaks ++ (spaces k ++ tail)), line, column⟩ =
      some (breaks, ⟨tail, line + 1 + breaks.length, k⟩) := by
  obtain ⟨deepest, hindentation⟩ := scanIndentation_breaks hreader
    (Or.inr ⟨(by omega : k < p + 2), htail⟩) ((breaks ++ (spaces k ++ tail)).length + 1)
    (by rw [List.length_append]; omega) [] 0 (line + 1)
  exact scanBlock_of_lines true .keep column hindentation (fun h ↦ absurd h (by decide))
    (scanBlockLines_stop (by omega) [] [] _ false _)

/-- A text is read back from its first line on, after the breaks before that line. A block that does
not say how far it is indented has no such breaks, and no space before the line. -/
theorem scanBlock_lines (hreader : ∀ c ∈ breaks, isBreak c = true)
    (hprintable : ∀ c ∈ lines, isPrintable c) (hne : lines ≠ []) (hword : AtWord breaksLine lines)
    {columns : Bool} (hcolumns : columns = false → breaks = [] ∧ AtWord isSpace lines) (hk : k ≤ p)
    (htail : AtWord isSpace tail) (line column : Nat) :
    ∃ line', line < line' ∧
      scanBlock true (some p)
          ⟨(if columns then ['2'] else []) ++ indicator (chompingOf lines) ++ '\n' ::
            (breaks ++ (spaces (p + 2) ++ (literalLines (p + 2) false lines ++
              (blockEnd lines ++ (spaces k ++ tail))))), line, column⟩ =
        some (breaks ++ lines, ⟨tail, line', k⟩) := by
  have hlength := length_le_literalLines (p + 2) false lines
  have hreads : ReadsLines (p + 2) k tail ((literalLines (p + 2) false lines ++
      (blockEnd lines ++ (spaces k ++ tail))).length + 1) lines :=
    readsLines_text hprintable hne hword (by omega) htail (by rw [List.length_append]; omega)
  obtain ⟨acc, last, lastBreaks, line', hlt, hscan, htext⟩ :=
    hreads [] [] breaks false (line + 1 + breaks.length)
  refine ⟨line', by omega, ?_⟩
  have hresult : acc.reverse ++ kept (chompingOf lines) last lastBreaks = breaks ++ lines := by
    simpa using htext
  rw [← hresult]
  obtain ⟨d, ds, rfl⟩ := List.exists_cons_of_ne_nil hne
  have hstart : literalLines (p + 2) false (d :: ds) = d :: literalLines (p + 2) false ds := by
    rw [literalLines, if_neg (by simp [hword d rfl])]
    rfl
  cases columns with
  | true =>
    have hbreak : isBreak d = false := by
      rw [isBreak_eq_breaksLine (hprintable d List.mem_cons_self), hword d rfl]
    have hline : AtLine (p + 2) (p + 2) (literalLines (p + 2) false (d :: ds) ++
        (blockEnd (d :: ds) ++ (spaces k ++ tail))) := by
      rw [hstart]
      exact Or.inl ⟨rfl, atWord_cons hbreak _⟩
    obtain ⟨deepest, hindentation⟩ := scanIndentation_breaks hreader hline
      ((breaks ++ (spaces (p + 2) ++ (literalLines (p + 2) false (d :: ds) ++
        (blockEnd (d :: ds) ++ (spaces k ++ tail))))).length + 1)
      (by rw [List.length_append]; omega) [] 0 (line + 1)
    exact scanBlock_of_lines true _ column hindentation (fun h ↦ absurd h (by decide)) hscan
  | false =>
    obtain ⟨rfl, hspace⟩ := hcolumns rfl
    rw [hstart] at hscan ⊢
    exact scanBlock_of_lines false _ column
      (scanIndentation_none (hspace d rfl) (p + 2) _ (line + 1) _) (fun _ ↦ rfl) hscan

/-- A text for whose block nothing need be said begins with a word. -/
theorem atWord_of_needsColumns {cs : List Char} (hprintable : ∀ c ∈ cs, isPrintable c)
    (h : needsColumns cs = false) : AtWord isSpace cs := by
  intro c hc
  have hprint : isPrintable c := hprintable c (List.mem_of_mem_head? hc)
  rw [needsColumns, Option.mem_def.mp hc] at h
  rw [isSpace, isBlank_eq_space hprint, isBreak_eq_breaksLine hprint]
  exact h

/-- A literal block is read back. The reader then stands at what follows the indentation of the next
line. -/
theorem scanBlock_text {cs : List Char} (hprintable : ∀ c ∈ cs, isPrintable c) (hne : cs ≠ [])
    (hk : k ≤ p) (htail : AtWord isSpace tail) (line column : Nat) :
    ∃ line', line < line' ∧
      scanBlock true (some p) ⟨literalHints cs ++ '\n' :: (literalLines (p + 2) true cs ++
          (blockEnd cs ++ (spaces k ++ tail))), line, column⟩ =
        some (cs, ⟨tail, line', k⟩) := by
  have hbreaks : ∀ c ∈ cs.takeWhile breaksLine, breaksLine c = true :=
    fun c hc ↦ List.mem_takeWhile_imp hc
  have hword : AtWord breaksLine (cs.dropWhile breaksLine) := atWord_dropWhile _ _
  have hsplit : cs.takeWhile breaksLine ++ cs.dropWhile breaksLine = cs :=
    List.takeWhile_append_dropWhile
  -- the breaks in front belong to no line: the reader takes them while it looks for the indentation
  generalize cs.takeWhile breaksLine = breaks at hsplit hbreaks
  generalize cs.dropWhile breaksLine = lines at hsplit hword
  subst hsplit
  obtain ⟨hprintBreaks, hprintLines⟩ := List.forall_mem_append.mp hprintable
  have hreader : ∀ c ∈ breaks, isBreak c = true := forall_isBreak hprintBreaks hbreaks
  have hnone : needsColumns (breaks ++ lines) = false → breaks = [] := by
    intro h
    cases breaks with
    | nil => rfl
    | cons b breaks => simp [needsColumns, hbreaks b List.mem_cons_self] at h
  rw [literalHints_eq, literalLines_leading _ hbreaks]
  by_cases hlines : lines = []
  · subst hlines
    simp only [List.append_nil] at hne hnone ⊢
    have hcolumns : needsColumns breaks = true := by
      cases h : needsColumns breaks with
      | true => rfl
      | false => exact absurd (hnone h) hne
    have hend : blockEnd breaks = [] := blockEnd_breaks [] hne hbreaks
    refine ⟨line + 1 + breaks.length, by omega, ?_⟩
    rw [hcolumns, chompingOf_breaks hne hbreaks, literalLines, hend, List.append_nil]
    exact scanBlock_breaks hreader hk htail line column
  · rw [blockEnd_append breaks hlines, chompingOf_append breaks hlines hword,
      literalLines_start _ hlines hword, List.append_assoc breaks, List.append_assoc (spaces _)]
    refine scanBlock_lines hreader hprintLines hlines hword (fun h ↦ ⟨hnone h, ?_⟩) hk htail line
      column
    have hspace := atWord_of_needsColumns hprintable h
    rwa [hnone h, List.nil_append] at hspace

end Text

end Reachability.Yaml
