import Mathlib.Algebra.Group.Nat.Defs
import Reachability.Proofs.Numeral
import Reachability.Yaml.Scalar
import Reachability.Yaml.Writer

/-!
# Characters of written YAML

A writer puts down only printable characters; all others it escapes. This module says what is gained
by that. Printable characters are admitted and none of them is a line break that a reader would
replace, so the reader sees the text as it was written. Among them, the characters that break a line
for the writer are those that break a line for the reader, and the space is the only blank.

An escape denotes the character that it was written for, whether it is a letter or a number to the
base 16.
-/

namespace Reachability.Yaml

/-! ## Printable characters -/

theorem eq_iff_toNat_eq {c d : Char} : c = d ↔ c.toNat = d.toNat := Char.toNat_inj.symm

section Printable

variable {c : Char}

theorem breaksLine_iff : breaksLine c ↔ c.toNat = 0x0A ∨ c.toNat = 0x0D ∨ c.toNat = 0x85 ∨
    c.toNat = 0x2028 ∨ c.toNat = 0x2029 := by
  simp only [breaksLine, Bool.or_eq_true, beq_iff_eq, eq_iff_toNat_eq, or_assoc]
  rfl

theorem isPrintable_iff : isPrintable c ↔ c.toNat = 0x0A ∨ (0x20 ≤ c.toNat ∧ c.toNat ≤ 0x7E) ∨
    (0xA0 ≤ c.toNat ∧ c.toNat ≤ 0xFFFD ∧ c.toNat ≠ 0xFEFF) ∨ 0x10000 ≤ c.toNat := by
  simp only [isPrintable, Bool.or_eq_true, Bool.and_eq_true, decide_eq_true_eq, beq_iff_eq,
    bne_iff_ne]
  omega

theorem admitted_of_isPrintable (h : isPrintable c) : admitted c := by
  rw [isPrintable_iff] at h
  simp only [admitted, Bool.or_eq_true, Bool.and_eq_true, decide_eq_true_eq, beq_iff_eq]
  omega

theorem ne_return_of_isPrintable (h : isPrintable c) : c ≠ '\r' := by
  rw [isPrintable_iff] at h
  rw [ne_eq, eq_iff_toNat_eq]
  change c.toNat ≠ 0x0D
  omega

theorem toNat_ne_nextLine_of_isPrintable (h : isPrintable c) : c.toNat ≠ 0x85 := by
  rw [isPrintable_iff] at h
  omega

/-- Writer and reader agree about what breaks a line. -/
theorem isBreak_eq_breaksLine (h : isPrintable c) : isBreak c = breaksLine c := by
  have hreturn : (c == '\r') = false := beq_eq_false_iff_ne.mpr (ne_return_of_isPrintable h)
  have hnext : (c.toNat == 0x85) = false :=
    beq_eq_false_iff_ne.mpr (toNat_ne_nextLine_of_isPrintable h)
  rw [isBreak, breaksLine, hreturn, hnext, Bool.or_false, Bool.or_false]

theorem forall_isBreak {cs : List Char} (h : ∀ c ∈ cs, isPrintable c) {v : Bool}
    (hv : ∀ c ∈ cs, breaksLine c = v) : ∀ c ∈ cs, isBreak c = v :=
  fun c hc ↦ (isBreak_eq_breaksLine (h c hc)).trans (hv c hc)

/-- The only blank is the space. -/
theorem isBlank_eq_space (h : isPrintable c) : isBlank c = (c == ' ') := by
  have htab : (c == '\t') = false := by
    rw [isPrintable_iff] at h
    rw [beq_eq_false_iff_ne, ne_eq, eq_iff_toNat_eq]
    change c.toNat ≠ 0x09
    omega
  rw [isBlank, htab, Bool.or_false]

end Printable

/-- A stream of printable characters is read as it is. -/
theorem unifyBreaks_of_printable {cs : List Char} (h : ∀ c ∈ cs, isPrintable c) :
    unifyBreaks cs = cs := by
  induction cs with
  | nil => rfl
  | cons c cs ih =>
    have hc : isPrintable c := h c List.mem_cons_self
    have hreturn : c ≠ '\r' := ne_return_of_isPrintable hc
    rw [unifyBreaks, if_neg (toNat_ne_nextLine_of_isPrintable hc),
      ih fun d hd ↦ h d (List.mem_cons_of_mem _ hd)]
    · exact fun _ heq ↦ absurd heq hreturn
    · exact fun heq ↦ absurd heq hreturn

theorem all_admitted_of_printable {cs : List Char} (h : ∀ c ∈ cs, isPrintable c) :
    cs.all admitted = true :=
  List.all_eq_true.mpr fun c hc ↦ admitted_of_isPrintable (h c hc)

theorem length_spaces (n : Nat) : (spaces n).length = n := List.length_replicate

theorem spaces_succ (n : Nat) : spaces (n + 1) = ' ' :: spaces n := List.replicate_succ

theorem eq_of_mem_spaces {n : Nat} {c : Char} (h : c ∈ spaces n) : c = ' ' :=
  List.eq_of_mem_replicate h

theorem isPrintable_spaces (n : Nat) : ∀ c ∈ spaces n, isPrintable c := by
  intro c hc
  rw [eq_of_mem_spaces hc]
  decide

/-! ## Numbers to the base 16 -/

/-- A digit after the digits of a number, as `Text.numeral?` reads it. -/
def hexStep (n : Nat) (c : Char) : Option Nat := do
  let d ← Text.hexDigit? c
  if d < 16 then some (16 * n + d) else none

theorem numeral?_sixteen {cs : List Char} (h : cs ≠ []) :
    Text.numeral? 16 cs = cs.foldlM hexStep 0 := by
  rw [Text.numeral?, if_neg (by simpa using h)]
  rfl

theorem hexDigit?_toUpper : ∀ d < 16,
    Text.hexDigit? d.digitChar.toUpper = Text.hexDigit? d.digitChar := by decide

theorem foldlM_hexStep_toUpper {cs : List Char} (h : ∀ c ∈ cs, ∃ d < 16, c = d.digitChar)
    (n : Nat) : (cs.map Char.toUpper).foldlM hexStep n = cs.foldlM hexStep n := by
  induction cs generalizing n with
  | nil => rfl
  | cons c cs ih =>
    obtain ⟨d, hd, rfl⟩ := h c List.mem_cons_self
    rw [List.map_cons, List.foldlM_cons, List.foldlM_cons, hexStep, hexDigit?_toUpper d hd]
    exact congrArg _ (funext (ih fun c hc ↦ h c (List.mem_cons_of_mem _ hc)))

theorem foldlM_hexStep_zeros (k : Nat) (cs : List Char) :
    (List.replicate k '0' ++ cs).foldlM hexStep 0 = cs.foldlM hexStep 0 := by
  induction k with
  | zero => rfl
  | succ k ih =>
    rw [List.replicate_succ, List.cons_append, List.foldlM_cons]
    exact ih

/-- A number is read back from its digits, leading zeros and upper case notwithstanding. -/
theorem numeral?_upperHex (width n : Nat) : Text.numeral? 16 (upperHex width n) = some n := by
  have hdigits : ∀ c ∈ Nat.toDigits 16 n, ∃ d < 16, c = d.digitChar :=
    fun c hc ↦ Text.mem_toDigits (by decide) hc
  have hne : Nat.toDigits 16 n ≠ [] := Nat.toDigits_ne_nil
  have hread : (Nat.toDigits 16 n).foldlM hexStep 0 = some n := by
    rw [← numeral?_sixteen hne, Text.numeral?_toDigits (by decide) (by decide)]
  rw [numeral?_sixteen (by simp [upperHex, hne]), upperHex, foldlM_hexStep_zeros,
    foldlM_hexStep_toUpper hdigits, hread]

theorem length_upperHex {width n : Nat} (hwidth : 0 < width) (h : n < 16 ^ width) :
    (upperHex width n).length = width := by
  have hdigits : (Nat.toDigits 16 n).length ≤ width :=
    (Nat.length_toDigits_le_iff (by decide) hwidth).mpr h
  simp only [upperHex, List.length_append, List.length_replicate, List.length_map]
  omega

/-! ## Escapes -/

theorem charOf?_toNat (c : Char) : charOf? c.toNat = some c := by
  rw [charOf?, if_pos (show c.toNat.isValidChar from c.valid), Char.ofNat_toNat]

/-- A character given by its number is read as that character. -/
theorem scanEscape_hex {e : Char} {width : Nat} (he : simpleEscape? e = none)
    (hcount : escapeDigits? e = some width) {c : Char} (hwidth : 0 < width)
    (hc : c.toNat < 16 ^ width) (rest : List Char) (line column : Nat) :
    scanEscape ⟨e :: upperHex width c.toNat ++ rest, line, column⟩ =
      some (c, ⟨rest, line, column + (width + 1)⟩) := by
  have hlength := length_upperHex hwidth hc
  have htake : (upperHex width c.toNat ++ rest).take width = upperHex width c.toNat := by
    rw [List.take_append_of_le_length (by omega), List.take_of_length_le (by omega)]
  have hdrop : (upperHex width c.toNat ++ rest).drop width = rest := by
    rw [List.drop_append, List.drop_of_length_le (by omega), hlength]
    simp
  simp only [scanEscape, List.cons_append, he, hcount, Option.bind_eq_bind, Option.bind_some, htake,
    hlength, numeral?_upperHex, charOf?_toNat, Cursor.skip]
  rw [if_neg (Nat.lt_irrefl _), List.drop_succ_cons, hdrop]
  rfl

theorem scanEscape_letter {e c : Char} (he : simpleEscape? e = some c) (rest : List Char)
    (line column : Nat) :
    scanEscape ⟨e :: rest, line, column⟩ = some (c, ⟨rest, line, column + 1⟩) := by
  simp only [scanEscape, he, Cursor.skip]
  rfl

/-- Whether `c` is one of the visible characters of ASCII. -/
def IsVisible (c : Char) : Prop := 0x20 < c.toNat ∧ c.toNat < 0x7F

theorem IsVisible.isPrintable {c : Char} (h : IsVisible c) : isPrintable c := by
  obtain ⟨hlow, hhigh⟩ := h
  rw [isPrintable_iff]
  omega

theorem IsVisible.isBreak {c : Char} (h : IsVisible c) : isBreak c = false := by
  obtain ⟨hlow, hhigh⟩ := h
  simp only [Yaml.isBreak, Bool.or_eq_false_iff, beq_eq_false_iff_ne, ne_eq, eq_iff_toNat_eq]
  change (c.toNat ≠ 0x0A ∧ c.toNat ≠ 0x2028) ∧ c.toNat ≠ 0x2029
  omega

theorem isVisible_upperHex (width n : Nat) : ∀ c ∈ upperHex width n, IsVisible c := by
  have hdigits : ∀ d < 16, IsVisible d.digitChar.toUpper := by
    unfold IsVisible
    decide
  intro c hc
  rcases List.mem_append.mp hc with hzero | hdigit
  · rw [List.eq_of_mem_replicate hzero]
    exact ⟨by decide, by decide⟩
  · obtain ⟨d, hd, rfl⟩ := List.mem_map.mp hdigit
    obtain ⟨k, hk, rfl⟩ := Text.mem_toDigits (by decide) hd
    exact hdigits k hk

/-- An escape is a letter, or it is the number of the character after a letter that tells how many
digits there are. -/
theorem escapeOf_cases (c : Char) :
    (∃ e, escapeOf c = [e] ∧ IsVisible e ∧ simpleEscape? e = some c) ∨
      ∃ e width, escapeOf c = e :: upperHex width c.toNat ∧ IsVisible e ∧
        simpleEscape? e = none ∧ escapeDigits? e = some width ∧ 0 < width ∧
        c.toNat < 16 ^ width ∧ (width ≤ 4 ∨ 0x10000 ≤ c.toNat) := by
  unfold escapeOf
  split
  case h_15 =>
    have hvalid : c.toNat < 0xD800 ∨ 0xDFFF < c.toNat ∧ c.toNat < 0x110000 := c.valid
    refine Or.inr ?_
    split
    · exact ⟨'x', 2, rfl, ⟨by decide, by decide⟩, rfl, rfl, by decide, by omega, by omega⟩
    · split
      · exact ⟨'u', 4, rfl, ⟨by decide, by decide⟩, rfl, rfl, by decide, by omega, by omega⟩
      · exact ⟨'U', 8, rfl, ⟨by decide, by decide⟩, rfl, rfl, by decide, by omega, by omega⟩
  all_goals
    rename_i heq
    refine Or.inl ⟨_, rfl, ⟨by decide, by decide⟩, ?_⟩
    rw [simpleEscape?]
    exact congrArg some (eq_iff_toNat_eq.mpr heq.symm)

/-- An escape denotes the character that it is written for. -/
theorem scanEscape_escapeOf (c : Char) (rest : List Char) (line column : Nat) :
    scanEscape ⟨escapeOf c ++ rest, line, column⟩ =
      some (c, ⟨rest, line, column + (escapeOf c).length⟩) := by
  rcases escapeOf_cases c with ⟨e, he, -, hletter⟩ |
    ⟨e, width, he, -, hletter, hcount, hwidth, hlt, -⟩
  · rw [he]
    exact scanEscape_letter hletter rest line column
  · rw [he, scanEscape_hex hletter hcount hwidth hlt, List.length_cons, length_upperHex hwidth hlt]

/-- How a character is written in double quotes. -/
def doubleEscaped (c : Char) : List Char :=
  if !isPrintable c || breaksLine c || c == '"' || c == '\\' then '\\' :: escapeOf c else [c]

theorem doubleQuoted_eq (cs : List Char) :
    doubleQuoted cs = '"' :: cs.flatMap doubleEscaped ++ ['"'] := rfl

theorem escapeOf_head (c : Char) : ∃ e es, escapeOf c = e :: es ∧ IsVisible e := by
  rcases escapeOf_cases c with ⟨e, he, hvisible, -⟩ | ⟨e, width, he, hvisible, -⟩
  · exact ⟨e, [], he, hvisible⟩
  · exact ⟨e, _, he, hvisible⟩

theorem isPrintable_doubleEscaped (c : Char) : ∀ d ∈ doubleEscaped c, isPrintable d := by
  intro d hd
  rw [doubleEscaped] at hd
  split at hd
  · rcases List.mem_cons.mp hd with rfl | hd
    · decide
    · rcases escapeOf_cases c with ⟨e, he, hvisible, -⟩ | ⟨e, width, he, hvisible, -⟩
      · rw [he, List.mem_singleton] at hd
        exact hd ▸ hvisible.isPrintable
      · rw [he] at hd
        rcases List.mem_cons.mp hd with rfl | hd
        · exact hvisible.isPrintable
        · exact (isVisible_upperHex _ _ d hd).isPrintable
  · rename_i hplain
    simp only [Bool.or_eq_true, not_or] at hplain
    rw [List.mem_singleton.mp hd]
    simpa using hplain.1.1.1

/-- No character takes more than six in double quotes, because those that would take more need no
escape. -/
theorem length_doubleEscaped_le (c : Char) : (doubleEscaped c).length ≤ 6 := by
  rw [doubleEscaped]
  split
  · rename_i hescaped
    have hsmall : c.toNat < 0x10000 := by
      refine Nat.lt_of_not_le fun hlarge ↦ ?_
      have hprintable : isPrintable c := isPrintable_iff.mpr (by omega)
      simp only [Bool.or_eq_true, Bool.not_eq_true', hprintable, Bool.true_eq_false, false_or,
        breaksLine_iff, beq_iff_eq, eq_iff_toNat_eq] at hescaped
      have hquote : '"'.toNat = 0x22 := rfl
      have hbackslash : '\\'.toNat = 0x5C := rfl
      omega
    rcases escapeOf_cases c with ⟨e, he, -⟩ | ⟨e, width, he, -, -, -, hwidth, hlt, hcount⟩
    · simp [he]
    · rw [he, List.length_cons, List.length_cons, length_upperHex hwidth hlt]
      omega
  · simp

end Reachability.Yaml
