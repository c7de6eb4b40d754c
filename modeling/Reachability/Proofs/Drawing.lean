import Mathlib.Order.Monotone.Basic
import Reachability.Proofs.Grid

/-!
# Drawings of tables

The lines of a drawing are divided at the same positions (`Table.bar`), where they have their
separators. Two things make this so. The width of a column is a bound on the bytes of its entries,
in every row (`Table.fits_widths`), and a text has no more characters than bytes; so no entry is
longer than its column, and padding fills all of them up to the width. And a line of cells between
separators (`Table.framed`) has them where the lengths of the cells say, whatever the cells contain.

A column may be at most `Table.widthLimit` wide. This is the only condition on there being a
drawing.
-/

namespace Reachability.Table

/-- The entries of the header and of all rows. -/
def entries (t : Table) : List String := (t.header :: t.rows).flatten

theorem mem_entries {t : Table} {s : String} :
    s ∈ t.entries ↔ ∃ row ∈ t.header :: t.rows, s ∈ row :=
  List.mem_flatten

/-! ## Widths -/

/-- The widths of columns are bounds on the entries of a row. -/
def Fits : List Nat → List String → Prop := List.Forall₂ fun w s ↦ s.utf8ByteSize ≤ w

theorem fits_widen_self {ws : List Nat} {row : List String} (h : row.length = ws.length) :
    Fits (widen ws row) row := by
  induction ws generalizing row with
  | nil =>
    obtain rfl := List.length_eq_zero_iff.mp h
    exact .nil
  | cons w ws ih =>
    match row, h with
    | s :: row, h => exact .cons (Nat.le_max_right ..) (ih (Nat.succ.inj h))

theorem Fits.widen {ws : List Nat} {row row' : List String} (h : Fits ws row)
    (hlength : row'.length = row.length) : Fits (widen ws row') row := by
  induction h generalizing row' with
  | nil =>
    obtain rfl := List.length_eq_zero_iff.mp hlength
    exact .nil
  | cons hs _ ih =>
    match row', hlength with
    | s' :: row', hlength =>
      exact .cons (Nat.le_trans hs (Nat.le_max_left ..)) (ih (Nat.succ.inj hlength))

theorem Fits.length_eq {ws : List Nat} {row : List String} (h : Fits ws row) :
    ws.length = row.length :=
  List.Forall₂.length_eq h

/-- Widening by further rows keeps the rows that fit, and makes the further ones fit. -/
theorem Fits.foldl_widen {ws : List Nat} {row : List String} (h : Fits ws row)
    {rows : List (List String)} (hlength : ∀ row' ∈ rows, row'.length = row.length) :
    ∀ row' ∈ row :: rows, Fits (rows.foldl Table.widen ws) row' := by
  induction rows generalizing ws row with
  | nil => simpa using h
  | cons row₁ rows ih =>
    -- both `row` and `row₁` fit after this step, and the hypothesis is used for each of them
    obtain ⟨hlength₁, hlength⟩ := List.forall_mem_cons.mp hlength
    have hkept := ih (h.widen hlength₁) hlength
    have hself : Fits (Table.widen ws row₁) row₁ :=
      fits_widen_self (hlength₁.trans h.length_eq.symm)
    have hnew := ih hself fun row' hrow' ↦ (hlength row' hrow').trans hlength₁.symm
    intro row' hrow'
    rcases List.mem_cons.mp hrow' with rfl | hrow'
    · exact hkept _ List.mem_cons_self
    · exact hnew row' hrow'

theorem fits_widths {t : Table} (h : t.IsRectangular) :
    ∀ row ∈ t.header :: t.rows, Fits t.widths row := by
  have hheader : Fits (t.header.map (·.utf8ByteSize)) t.header := by
    rw [Fits, List.forall₂_map_left_iff, List.forall₂_same]
    exact fun s _ ↦ Nat.le_refl _
  exact hheader.foldl_widen h.length_row

theorem forall_mem_widen {n : Nat} {ws : List Nat} {row : List String} :
    (∀ w ∈ widen ws row, w ≤ n) ↔ (∀ w ∈ ws, w ≤ n) ∧ ∀ s ∈ row, s.utf8ByteSize ≤ n := by
  induction ws, row using widen.induct with
  | case1 ws => simp [widen]
  | case2 row hrow => cases row <;> simp [widen]
  | case3 w ws s row ih =>
    simp only [widen, List.forall_mem_cons, ih, Nat.max_le]
    tauto

theorem forall_mem_widths {n : Nat} {t : Table} :
    (∀ w ∈ t.widths, w ≤ n) ↔ ∀ s ∈ t.entries, s.utf8ByteSize ≤ n := by
  have hfold : ∀ (rows : List (List String)) (ws : List Nat),
      (∀ w ∈ rows.foldl widen ws, w ≤ n) ↔
        (∀ w ∈ ws, w ≤ n) ∧ ∀ row ∈ rows, ∀ s ∈ row, s.utf8ByteSize ≤ n := by
    intro rows
    induction rows with
    | nil => simp
    | cons row rows ih =>
      intro ws
      rw [List.foldl_cons, ih, forall_mem_widen, List.forall_mem_cons, and_assoc]
  rw [widths, hfold, List.forall_mem_map, entries, List.forall_mem_flatten, List.forall_mem_cons]

/-- A table is drawn unless it has an entry that is too long. -/
theorem isSome_render_iff {t : Table} :
    t.render.isSome ↔ ∀ s ∈ t.entries, s.utf8ByteSize ≤ widthLimit := by
  rw [← forall_mem_widths, render, Option.isSome_ite, List.all_eq_true]
  simp only [decide_eq_true_eq]

/-! ## Divided lines -/

/-- A line that has the cells in order, with the separator at each bar. -/
structure IsDivided (bar : Nat → Nat) (separator : Char) (cells : List (List Char))
    (l : List Char) : Prop where
  length_eq : l.length = bar cells.length + 1
  separator_at : ∀ i ≤ cells.length, l[bar i]? = some separator
  cell_at : ∀ (i : Nat) (h : i < cells.length), (l.take (bar (i + 1))).drop (bar i + 1) = cells[i]

/-- Cells between separators. -/
def framed (separator : Char) (cells : List (List Char)) : List Char :=
  separator :: cells.flatMap (· ++ [separator])

theorem framed_cons (separator : Char) (cell : List Char) (cells : List (List Char)) :
    framed separator (cell :: cells) = separator :: (cell ++ framed separator cells) := by
  simp [framed]

theorem not_mem_framed {separator c : Char} {cells : List (List Char)} (hc : c ≠ separator)
    (h : ∀ cell ∈ cells, c ∉ cell) : c ∉ framed separator cells := by
  simp only [framed, List.mem_cons, List.mem_flatMap, List.mem_append, List.not_mem_nil, or_false]
  rintro (rfl | ⟨cell, hcell, hmem | rfl⟩)
  · exact hc rfl
  · exact h cell hcell hmem
  · exact hc rfl

/-- Where the bars stand that divide columns of some widths, when each has a blank on both sides. -/
def bar (ws : List Nat) (i : Nat) : Nat := (ws.take i).sum + 3 * i

@[simp] theorem bar_zero (ws : List Nat) : bar ws 0 = 0 := rfl

theorem bar_cons (w : Nat) (ws : List Nat) (i : Nat) :
    bar (w :: ws) (i + 1) = w + 2 + bar ws i + 1 := by
  rw [bar, bar, List.take_succ_cons, List.sum_cons]
  omega

theorem strictMono_bar (ws : List Nat) : StrictMono (bar ws) := by
  refine strictMono_nat_of_lt_succ fun i ↦ ?_
  rw [bar, bar, List.take_add_one, List.sum_append]
  omega

theorem isDivided_framed {separator : Char} {ws : List Nat} {cells : List (List Char)}
    (h : List.Forall₂ (fun w cell ↦ cell.length = w + 2) ws cells) :
    IsDivided (bar ws) separator cells (framed separator cells) := by
  induction h with
  | nil =>
    exact ⟨rfl, fun i hi ↦ by obtain rfl := Nat.le_zero.mp hi; rfl, fun i hi ↦ absurd hi (by simp)⟩
  | @cons w cell ws cells hcell _ ih =>
    -- the rest is divided as it would be alone, but further to the right by the length of this cell
    rw [framed_cons]
    refine ⟨?_, fun i hi ↦ ?_, fun i hi ↦ ?_⟩
    · rw [List.length_cons, List.length_append, ih.length_eq, List.length_cons, bar_cons, hcell]
      omega
    · cases i with
      | zero => rfl
      | succ i =>
        rw [bar_cons, List.getElem?_cons_succ, ← hcell, List.getElem?_append_right (by omega),
          Nat.add_sub_cancel_left]
        exact ih.separator_at i (Nat.le_of_succ_le_succ hi)
    · cases i with
      | zero =>
        rw [bar_cons, bar_zero, bar_zero, ← hcell, List.take_succ_cons, List.drop_succ_cons]
        simp
      | succ i =>
        rw [bar_cons, bar_cons, ← hcell, List.take_succ_cons, List.drop_succ_cons, Nat.add_assoc,
          List.take_length_add_append, List.drop_length_add_append]
        exact ih.cell_at i (Nat.lt_of_succ_lt_succ hi)

/-! ## Lines -/

/-- Separators that have blanks, or nothing, around them divide cells that have these blanks. -/
theorem framed_intercalate (separator : Char) (left right : List Char) {parts : List (List Char)}
    (h : parts ≠ []) :
    separator :: left ++ (right ++ separator :: left).intercalate parts ++ right ++ [separator] =
      framed separator (parts.map fun part ↦ left ++ part ++ right) := by
  induction parts with
  | nil => exact absurd rfl h
  | cons part parts ih =>
    cases parts with
    | nil => simp [framed]
    | cons part' parts =>
      rw [List.map_cons, framed_cons, ← ih (List.cons_ne_nil _ _), List.intercalate_cons_cons]
      simp

/-- An entry as it stands between two bars. -/
def cell (w : Nat) (s : String) : List Char :=
  ' ' :: s.toList ++ List.replicate (w - s.length + 1) ' '

theorem toList_pushn (s : String) (c : Char) (n : Nat) :
    (s.pushn c n).toList = s.toList ++ List.replicate n c := by
  induction n with
  | zero => simp [String.pushn, Nat.repeat]
  | succ n ih =>
    have hstep : s.pushn c (n + 1) = (s.pushn c n).push c := rfl
    rw [hstep, String.toList_push, ih, List.append_assoc, ← List.replicate_succ']

theorem cell_eq_padded (w : Nat) (s : String) : cell w s = ' ' :: (padded w s).toList ++ [' '] := by
  rw [cell, padded, toList_pushn, List.replicate_succ']
  simp

/-- An entry has room in its column, because it has no more characters than bytes. -/
theorem length_cell {w : Nat} {s : String} (h : s.utf8ByteSize ≤ w) :
    (cell w s).length = w + 2 := by
  have hsize := Text.length_le_utf8ByteSize s
  rw [cell, List.length_append, List.length_cons, List.length_replicate, String.length_toList]
  omega

/-- The characters of the line of a row. -/
def lineChars (ws : List Nat) (row : List String) : List Char :=
  framed '|' (List.zipWith cell ws row)

/-- The characters of a rule. -/
def ruleChars (ws : List Nat) : List Char :=
  framed '+' (ws.map fun w ↦ List.replicate (w + 2) '-')

theorem toList_line {ws : List Nat} {row : List String} (h : List.zipWith padded ws row ≠ []) :
    (line ws row).toList = lineChars ws row ++ ['\n'] := by
  have hcells : List.zipWith cell ws row =
      ((List.zipWith padded ws row).map String.toList).map fun part ↦ [' '] ++ part ++ [' '] := by
    rw [List.map_map, List.map_zipWith]
    exact congrArg (List.zipWith · ws row) (funext₂ cell_eq_padded)
  rw [lineChars, hcells, ← framed_intercalate '|' [' '] [' '] (by simpa using h)]
  simp [line, String.toList_intercalate]

theorem toList_ruleLine {ws : List Nat} (h : ws ≠ []) :
    (ruleLine ws).toList = ruleChars ws ++ ['\n'] := by
  have hcells : (ws.map fun w ↦ List.replicate (w + 2) '-') =
      ((ws.map fun w ↦ "".pushn '-' (w + 2)).map String.toList).map fun part ↦
        [] ++ part ++ [] := by
    simp [toList_pushn]
  rw [ruleChars, hcells, ← framed_intercalate '+' [] [] (by simpa using h)]
  simp [ruleLine, String.toList_intercalate]

/-! ## The drawing -/

/-- A line of hyphens between bars. -/
def IsRule (bar : Nat → Nat) (columns : Nat) (l : List Char) : Prop :=
  ∃ cells, cells.length = columns ∧ IsDivided bar '+' cells l ∧ ∀ cell ∈ cells, ∀ c ∈ cell, c = '-'

/-- A line of the entries of a row, each of which starts one blank after a bar and has only blanks
after it, at least one. -/
def ShowsRow (bar : Nat → Nat) (row : List String) (l : List Char) : Prop :=
  ∃ cells, IsDivided bar '|' cells l ∧
    List.Forall₂ (fun s cell ↦ ∃ n, cell = ' ' :: s.toList ++ List.replicate (n + 1) ' ') row cells

/-- Lines that show a table, all of the same length and divided at the same positions. -/
structure IsAligned (t : Table) (bar : Nat → Nat) (lines : List (List Char)) : Prop where
  bar_zero : bar 0 = 0
  strictMono_bar : StrictMono bar
  lines_eq : ∃ rule header rows, lines = [rule, header, rule] ++ rows ++ [rule] ∧
    IsRule bar t.header.length rule ∧ ShowsRow bar t.header header ∧
      List.Forall₂ (ShowsRow bar) t.rows rows
  length_lines : lines.length = t.rows.length + 4
  length_line : ∀ l ∈ lines, l.length = bar t.header.length + 1
  not_mem_line : ∀ l ∈ lines, '\n' ∉ l

theorem IsRule.length_eq {bar : Nat → Nat} {columns : Nat} {l : List Char}
    (h : IsRule bar columns l) : l.length = bar columns + 1 := by
  obtain ⟨cells, rfl, hdivided, -⟩ := h
  exact hdivided.length_eq

theorem ShowsRow.length_eq {bar : Nat → Nat} {row : List String} {l : List Char}
    (h : ShowsRow bar row l) : l.length = bar row.length + 1 := by
  obtain ⟨cells, hdivided, hentries⟩ := h
  rw [hdivided.length_eq, hentries.length_eq]

theorem isRule_ruleChars (ws : List Nat) : IsRule (bar ws) ws.length (ruleChars ws) := by
  refine ⟨_, List.length_map _, isDivided_framed ?_, fun cell hcell c hc ↦ ?_⟩
  · rw [List.forall₂_map_right_iff, List.forall₂_same]
    exact fun w _ ↦ List.length_replicate
  · obtain ⟨w, -, rfl⟩ := List.mem_map.mp hcell
    exact List.eq_of_mem_replicate hc

theorem showsRow_lineChars {ws : List Nat} {row : List String} (h : Fits ws row) :
    ShowsRow (bar ws) row (lineChars ws row) := by
  have hlengths :
      List.Forall₂ (fun w cell ↦ cell.length = w + 2) ws (List.zipWith cell ws row) := by
    induction h with
    | nil => exact .nil
    | cons hs _ ih => exact .cons (length_cell hs) ih
  refine ⟨_, isDivided_framed hlengths, ?_⟩
  clear hlengths
  induction h with
  | nil => exact .nil
  | @cons w s ws row _ _ ih => exact .cons ⟨w - s.length, rfl⟩ ih

theorem not_mem_ruleChars (ws : List Nat) : '\n' ∉ ruleChars ws := by
  refine not_mem_framed (by decide) fun cell hcell ↦ ?_
  obtain ⟨w, -, rfl⟩ := List.mem_map.mp hcell
  exact fun hmem ↦ absurd (List.eq_of_mem_replicate hmem) (by decide)

theorem not_mem_lineChars {row : List String} (h : ∀ s ∈ row, '\n' ∉ s.toList) (ws : List Nat) :
    '\n' ∉ lineChars ws row := by
  refine not_mem_framed (by decide) fun part hpart ↦ ?_
  rw [← List.map_uncurry_zip_eq_zipWith] at hpart
  obtain ⟨⟨w, s⟩, hzip, rfl⟩ := List.mem_map.mp hpart
  have hs := h s (List.of_mem_zip hzip).2
  simp [cell, hs]

/-- The lines of a drawing. -/
def lines (t : Table) : List (List Char) :=
  let rule := ruleChars t.widths
  [rule, lineChars t.widths t.header, rule] ++ t.rows.map (lineChars t.widths) ++ [rule]

theorem forall_mem_lines {t : Table} {P : List Char → Prop} (hrule : P (ruleChars t.widths))
    (hrows : ∀ row ∈ t.header :: t.rows, P (lineChars t.widths row)) : ∀ l ∈ t.lines, P l := by
  intro l hl
  simp only [lines, List.mem_append, List.mem_cons, List.mem_map, List.not_mem_nil, or_false] at hl
  obtain ((rfl | rfl | rfl) | ⟨row, hrow, rfl⟩) | rfl := hl
  · exact hrule
  · exact hrows _ List.mem_cons_self
  · exact hrule
  · exact hrows row (List.mem_cons_of_mem _ hrow)
  · exact hrule

theorem isAligned_lines {t : Table} (hrect : t.IsRectangular)
    (hbreaks : ∀ s ∈ t.entries, '\n' ∉ s.toList) : t.IsAligned (bar t.widths) t.lines := by
  have hfits := fits_widths hrect
  have hrule := isRule_ruleChars t.widths
  rw [(hfits _ List.mem_cons_self).length_eq] at hrule
  have hshows : ∀ row ∈ t.header :: t.rows, ShowsRow (bar t.widths) row (lineChars t.widths row) :=
    fun row hrow ↦ showsRow_lineChars (hfits row hrow)
  have hcolumns : ∀ row ∈ t.header :: t.rows, row.length = t.header.length :=
    List.forall_mem_cons.mpr ⟨rfl, hrect.length_row⟩
  refine ⟨rfl, strictMono_bar _, ⟨_, _, _, rfl, hrule, hshows _ List.mem_cons_self, ?_⟩, ?_, ?_, ?_⟩
  · rw [List.forall₂_map_right_iff, List.forall₂_same]
    exact fun row hrow ↦ hshows row (List.mem_cons_of_mem _ hrow)
  · simp [lines]
  · refine forall_mem_lines hrule.length_eq fun row hrow ↦ ?_
    rw [(hshows row hrow).length_eq, hcolumns row hrow]
  · refine forall_mem_lines (not_mem_ruleChars _) fun row hrow ↦ not_mem_lineChars (fun s hs ↦ ?_) _
    exact hbreaks s (mem_entries.mpr ⟨row, hrow, hs⟩)

/-- A drawing is made of these lines. -/
theorem toList_of_render_eq_some {t : Table} (hrect : t.IsRectangular) {text : String}
    (h : t.render = some text) : text.toList = t.lines.flatMap (· ++ ['\n']) := by
  have hfits := fits_widths hrect
  have hwidths : t.widths.length ≠ 0 := by
    rw [(hfits _ List.mem_cons_self).length_eq]
    exact fun h ↦ hrect.header_ne_nil (List.length_eq_zero_iff.mp h)
  have hline : ∀ row ∈ t.header :: t.rows,
      (line t.widths row).toList = lineChars t.widths row ++ ['\n'] := by
    intro row hrow
    refine toList_line (List.ne_nil_of_length_pos ?_)
    rw [List.length_zipWith, ← (hfits row hrow).length_eq]
    omega
  have hrule := toList_ruleLine (List.ne_nil_of_length_pos (Nat.pos_of_ne_zero hwidths))
  have hrows : (t.rows.map (line t.widths)).flatMap String.toList =
      (t.rows.map (lineChars t.widths)).flatMap (· ++ ['\n']) := by
    rw [List.flatMap_map, List.flatMap_map]
    exact List.flatMap_congr fun row hrow ↦ hline row (List.mem_cons_of_mem _ hrow)
  rw [render] at h
  split at h
  · obtain rfl := Option.some.inj h
    simp only [String.toList_append, String.toList_join, hrows, hrule, hline _ List.mem_cons_self,
      lines]
    simp
  · exact absurd h (by simp)

/-- **A drawing is aligned.** For a table whose rows are all as long as its header, and whose
entries have no line breaks and at most 65535 bytes, the drawing has four lines more than the table
has rows, all of the same length and divided at the same positions, and shows every entry in full.
The rows of a grid are all as long as its header. -/
theorem render_isAligned :
    (∀ cells : List (Flow × Char), (grid cells).IsRectangular) ∧
    ∀ t : Table, t.IsRectangular → (∀ s ∈ t.entries, '\n' ∉ s.toList) →
      (∀ s ∈ t.entries, s.utf8ByteSize ≤ 65535) →
      ∃ text bar lines, t.render = some text ∧ text.toList = lines.flatMap (· ++ ['\n']) ∧
        t.IsAligned bar lines := by
  refine ⟨isRectangular_grid, fun t hrect hbreaks hshort ↦ ?_⟩
  obtain ⟨text, htext⟩ := Option.isSome_iff_exists.mp (isSome_render_iff.mpr hshort)
  exact ⟨text, bar t.widths, t.lines, htext, toList_of_render_eq_some hrect htext,
    isAligned_lines hrect hbreaks⟩

/-- Padding counts characters and a width counts bytes, so there is more room than needed here. -/
theorem render_isAligned_multibyte :
    let t : Table := ⟨["é", "|+"], [["日本", "x"], ["", "q r "]]⟩
    t.IsRectangular ∧ (∀ s ∈ t.entries, '\n' ∉ s.toList) ∧
      (∀ s ∈ t.entries, s.utf8ByteSize ≤ 65535) ∧
      ∃ text bar lines, t.render = some text ∧ text.toList = lines.flatMap (· ++ ['\n']) ∧
        t.IsAligned bar lines :=
  have hrect : IsRectangular ⟨["é", "|+"], [["日本", "x"], ["", "q r "]]⟩ := ⟨by simp, by simp⟩
  ⟨hrect, by decide, by decide, render_isAligned.2 _ hrect (by decide) (by decide)⟩

/-- A table with an entry of 65536 bytes is not drawn. -/
theorem render_longEntry :
    let t : Table := ⟨["".pushn 'a' 65536], []⟩
    t.IsRectangular ∧ (∀ s ∈ t.entries, '\n' ∉ s.toList) ∧ t.render = none := by
  intro t
  have hentries : ∀ s ∈ t.entries, s = "".pushn 'a' 65536 := by simp [t, entries]
  refine ⟨⟨List.cons_ne_nil _ _, by simp [t]⟩, fun s hs ↦ ?_, ?_⟩
  · rw [hentries s hs, toList_pushn]
    exact fun hmem ↦ absurd (List.eq_of_mem_replicate hmem) (by decide)
  · rw [← Option.not_isSome_iff_eq_none, isSome_render_iff]
    intro hshort
    have hlimit := hshort ("".pushn 'a' 65536) (by simp [t, entries])
    have hsize := Text.length_le_utf8ByteSize ("".pushn 'a' 65536)
    rw [String.length_pushn] at hsize
    exact absurd (Nat.le_trans hsize hlimit) (by decide)

end Reachability.Table
