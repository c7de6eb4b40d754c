import Mathlib.Data.List.TakeDrop
import Reachability.Proofs.Conversion
import Reachability.Proofs.Numeral
import Reachability.Proofs.PlainTree

/-!
# Reading back JSON

Every tree of plain data is read back from its compact text. The reader is followed through the text
of a node with something after it (`ReadsBack`), and what comes after may be anything that does not
go on with a numeral. Each call of the reader consumes a character, so a fuel that exceeds the
length of the text is enough; the induction is on the depth of the tree, with one on the items of a
collection inside.

A text is read as code points first, and pairs of surrogates are joined afterwards. No character is
a surrogate, so the joining leaves what was written alone.
-/

namespace Reachability.Json

/-! ## Texts -/

theorem hex4_eq : ∀ n < 32, hex4 n = ['0', '0', (n / 16).digitChar, (n % 16).digitChar] := by
  decide

theorem hex4?_digits : ∀ n < 32, hex4? '0' '0' (n / 16).digitChar (n % 16).digitChar = some n := by
  decide

theorem readCodes_letter {e c : Char} (hu : e ≠ 'u') (h : unescape? e = some c) (cs : List Char) :
    readCodes ('\\' :: e :: cs) = (readCodes cs).map fun read ↦ (c.toNat :: read.1, read.2) := by
  rw [readCodes]
  · rw [h]
    cases readCodes cs <;> rfl
  · exact fun _ _ _ _ _ heq ↦ absurd heq hu

/-- A character is read back, however it is written. -/
theorem readCodes_escaped (c : Char) (cs : List Char) :
    readCodes (escaped c ++ cs) = (readCodes cs).map fun read ↦ (c.toNat :: read.1, read.2) := by
  unfold escaped
  split
  case h_1 => exact readCodes_letter (by decide) rfl cs
  case h_2 => exact readCodes_letter (by decide) rfl cs
  case h_3 => exact readCodes_letter (by decide) rfl cs
  case h_4 => exact readCodes_letter (by decide) rfl cs
  case h_5 => exact readCodes_letter (by decide) rfl cs
  case h_6 => exact readCodes_letter (by decide) rfl cs
  case h_7 => exact readCodes_letter (by decide) rfl cs
  case h_8 hquote hbackslash _ _ _ _ _ =>
    split
    · rename_i hcontrol
      rw [hex4_eq c.toNat hcontrol]
      simp only [List.cons_append, List.nil_append]
      rw [readCodes, hex4?_digits c.toNat hcontrol]
      cases readCodes cs <;> rfl
    · rename_i hplain
      simp only [List.cons_append, List.nil_append]
      rw [readCodes, if_neg (by simpa using ⟨hbackslash, Nat.le_of_not_lt hplain⟩)]
      · cases readCodes cs <;> rfl
      · exact hquote
      · exact fun _ _ _ _ _ heq ↦ absurd heq hbackslash
      · exact fun _ _ heq ↦ absurd heq hbackslash

theorem readCodes_flatMap_escaped (cs rest : List Char) :
    readCodes (cs.flatMap escaped ++ '"' :: rest) = some (cs.map Char.toNat, rest) := by
  induction cs with
  | nil => rfl
  | cons c cs ih =>
    rw [List.flatMap_cons, List.append_assoc, readCodes_escaped, ih]
    rfl

/-- A character is no half of a pair. -/
theorem not_half (c : Char) : isHigh c.toNat = false ∧ isLow c.toNat = false := by
  have hvalid : c.toNat < 0xD800 ∨ 0xDFFF < c.toNat ∧ c.toNat < 0x110000 := c.valid
  simp only [isHigh, isLow, Bool.and_eq_false_iff, decide_eq_false_iff_not]
  omega

theorem joinPairs_map_toNat (cs : List Char) : joinPairs (cs.map Char.toNat) = some cs := by
  induction cs with
  | nil => rfl
  | cons c cs ih =>
    obtain ⟨hhigh, hlow⟩ := not_half c
    cases cs with
    | nil =>
      rw [List.map_cons, List.map_nil, joinPairs, hhigh, hlow, Char.ofNat_toNat]
      rfl
    | cons d cs =>
      rw [List.map_cons] at ih
      rw [List.map_cons, List.map_cons, joinPairs, hhigh, hlow, ih, Char.ofNat_toNat]
      rfl

/-- A text is read back after its opening quote. -/
theorem readText_writeText (s : String) (rest : List Char) :
    readText (s.toList.flatMap escaped ++ '"' :: rest) = some (some s, rest) := by
  rw [readText, readCodes_flatMap_escaped, Option.bind_eq_bind, Option.bind_some]
  simp only [joinPairs_map_toNat, Option.map_some, String.ofList_toList]
  rfl

theorem writeText_append (s : String) (rest : List Char) :
    writeText s ++ rest = '"' :: (s.toList.flatMap escaped ++ '"' :: rest) := by
  simp [writeText]

/-! ## Numbers -/

/-- What follows is no part of a numeral. -/
def EndsNumeral (rest : List Char) : Prop :=
  ∀ c ∈ rest.head?, c.isDigit = false ∧ c ≠ '.' ∧ c ≠ 'e' ∧ c ≠ 'E'

theorem endsNumeral_nil : EndsNumeral [] := by simp [EndsNumeral]

theorem endsNumeral_cons {c : Char} (h : c ∈ [',', ']', '\x7d']) (rest : List Char) :
    EndsNumeral (c :: rest) := by
  intro d hd
  obtain rfl := Option.some.inj hd
  simp only [List.mem_cons, List.not_mem_nil, or_false] at h
  rcases h with rfl | rfl | rfl <;> decide

theorem span_digits {digits rest : List Char} (hdigits : ∀ c ∈ digits, c.isDigit)
    (hrest : EndsNumeral rest) : (digits ++ rest).span Char.isDigit = (digits, rest) := by
  have hhead : ∀ c ∈ rest.head?, ¬c.isDigit := fun c hc ↦ by simp [(hrest c hc).1]
  rw [List.span_eq_takeWhile_dropWhile, List.takeWhile_append_of_pos hdigits,
    List.dropWhile_append_of_pos hdigits]
  cases rest with
  | nil => simp
  | cons c rest =>
    rw [List.takeWhile_cons_of_neg (hhead c rfl), List.dropWhile_cons_of_neg (hhead c rfl),
      List.append_nil]

theorem readWhole_toDigits (n : Nat) {rest : List Char} (h : EndsNumeral rest) :
    readWhole (Nat.toDigits 10 n ++ rest) = some (Nat.toDigits 10 n, rest) := by
  obtain ⟨c, cs, hcs⟩ := List.exists_cons_of_ne_nil (Nat.toDigits_ne_nil : Nat.toDigits 10 n ≠ [])
  by_cases hc : c = '0'
  · -- only zero begins with a zero, and its numeral is no longer than that
    have hzero : n = 0 := Text.eq_zero_of_head?_toDigits (by rw [hcs, hc]; rfl)
    subst hzero
    cases rest with
    | nil => rfl
    | cons d rest =>
      have hd : d.isDigit = false := (h d rfl).1
      change (if d.isDigit then none else some (['0'], d :: rest)) = _
      rw [hd]
      rfl
  · have hdigits : ∀ d ∈ Nat.toDigits 10 n, d.isDigit :=
      fun d hd ↦ Nat.isDigit_of_mem_toDigits (by decide) (by decide) hd
    have hspan := span_digits hdigits h
    rw [hcs] at hspan ⊢
    rw [List.cons_append] at hspan ⊢
    rw [readWhole, readDigits, hspan]
    exact fun _ heq ↦ absurd (List.cons.inj heq).1 hc

theorem readNumber_toDigits {n : Nat} (hn : n < UInt64.size) {rest : List Char}
    (h : EndsNumeral rest) :
    readNumber (Nat.toDigits 10 n ++ rest) = some (.int n, rest) := by
  have hsign : ∀ cs, Nat.toDigits 10 n ++ rest ≠ '-' :: cs := by
    intro cs heq
    obtain ⟨c, ds, hds⟩ :=
      List.exists_cons_of_ne_nil (Nat.toDigits_ne_nil : Nat.toDigits 10 n ≠ [])
    have hmem : c ∈ Nat.toDigits 10 n := by simp [hds]
    have hc : c.isDigit := Nat.isDigit_of_mem_toDigits (by decide) (by decide) hmem
    rw [hds, List.cons_append] at heq
    rw [(List.cons.inj heq).1] at hc
    exact absurd hc (by decide)
  have hfraction : readFraction rest = some (none, rest) := by
    cases rest with
    | nil => rfl
    | cons c rest =>
      rw [readFraction]
      exact fun _ heq ↦ absurd (List.cons.inj heq).1 (h c rfl).2.1
  have hexponent : readExponent rest = some (none, rest) := by
    cases rest with
    | nil => rfl
    | cons c rest =>
      obtain ⟨-, -, he, hE⟩ := h c rfl
      unfold readExponent
      exact if_neg (by simp [he, hE])
  have hinteger : Numeral.toTree ⟨false, Nat.toDigits 10 n, none, none⟩ = .int n := by
    have hvalue : Text.decimalFrom 0 (Nat.toDigits 10 n) = n := Nat.ofDigitChars_ten_toDigits
    simp only [Numeral.toTree, Numeral.integer?, hvalue]
    simp [hn]
  unfold readNumber
  split
  rename_i heq
  split at heq
  · rename_i cs hcs
    exact absurd hcs (hsign cs)
  · obtain ⟨rfl, rfl⟩ := Prod.mk.inj heq
    simp only [readWhole_toDigits n h, hfraction, hexponent, hinteger, Option.bind_eq_bind,
      Option.bind_some]
    rfl

/-! ## Values -/

theorem skipBlank_cons {c : Char} (h : isBlank c = false) (cs : List Char) :
    skipBlank (c :: cs) = c :: cs := List.dropWhile_cons_of_neg (by simp [h])

theorem isBlank_of_isDigit {c : Char} (h : c.isDigit) : isBlank c = false := by
  simp only [isBlank, Bool.or_eq_false_iff, beq_eq_false_iff_ne]
  refine ⟨⟨⟨?_, ?_⟩, ?_⟩, ?_⟩ <;> rintro rfl <;> exact absurd h (by decide)

/-- What begins with a digit is read as a number. -/
theorem readValue_digit {c : Char} (h : c.isDigit) (cs : List Char) (fuel : Nat) :
    readValue (fuel + 1) (c :: cs) = readNumber (c :: cs) := by
  have hother : ∀ {d : Char} {ds : List Char}, c :: cs = d :: ds → d.isDigit := by
    intro d ds heq
    rwa [← (List.cons.inj heq).1]
  rw [readValue, skipBlank_cons (isBlank_of_isDigit h)]
  split
  case h_7 => rfl
  all_goals
    rename_i heq
    exact absurd (hother heq) (by decide)

/-- The reader gives back a tree that stands before other text. -/
def ReadsBack (t : Tree) : Prop :=
  ∀ fuel rest, (write t).length < fuel → EndsNumeral rest →
    readValue fuel (write t ++ rest) = some (t, rest)

theorem readsBack_text (s : String) : ReadsBack (.text s) := by
  intro fuel rest hfuel _
  obtain ⟨fuel, rfl⟩ : ∃ f, fuel = f + 1 := ⟨fuel - 1, by omega⟩
  rw [write, writeText_append, readValue, skipBlank_cons (by decide)]
  simp [readText_writeText]

theorem write_int (n : Nat) : write (.int n) = Nat.toDigits 10 n := Text.toList_toString_natCast n

theorem toDigits_head (n : Nat) : ∃ c cs, Nat.toDigits 10 n = c :: cs ∧ c.isDigit := by
  obtain ⟨c, cs, hcs⟩ := List.exists_cons_of_ne_nil (Nat.toDigits_ne_nil : Nat.toDigits 10 n ≠ [])
  have hmem : c ∈ Nat.toDigits 10 n := by simp [hcs]
  exact ⟨c, cs, hcs, Nat.isDigit_of_mem_toDigits (by decide) (by decide) hmem⟩

theorem readsBack_int {n : Int} (h : IsSmall n) : ReadsBack (.int n) := by
  intro fuel rest hfuel hrest
  obtain ⟨fuel, rfl⟩ : ∃ f, fuel = f + 1 := ⟨fuel - 1, by omega⟩
  obtain ⟨hpos, hlt⟩ := h
  obtain ⟨m, rfl⟩ := Int.eq_ofNat_of_zero_le hpos
  have hm : m < UInt64.size := by
    have hpow : Int.pow 2 31 < UInt64.size := by decide
    omega
  obtain ⟨c, cs, hcs, hc⟩ := toDigits_head m
  have hnumber := readNumber_toDigits hm hrest
  rw [hcs, List.cons_append] at hnumber
  rw [write_int, hcs, List.cons_append, readValue_digit hc, hnumber]

/-- A value begins with a character that is neither white space nor the end of a collection. -/
theorem write_head {depth : Nat} {t : Tree} (h : t.Plain depth) :
    ∃ c cs, write t = c :: cs ∧ isBlank c = false ∧ c ≠ ']' := by
  rcases h.cases with ⟨s, rfl⟩ | ⟨n, rfl, hn⟩ | ⟨d, items, -, rfl, -⟩ | ⟨d, fields, -, rfl, -⟩
  · exact ⟨'"', _, by rw [write, writeText]; rfl, by decide, by decide⟩
  · obtain ⟨m, rfl⟩ := Int.eq_ofNat_of_zero_le hn.1
    obtain ⟨c, cs, hcs, hc⟩ := toDigits_head m
    refine ⟨c, cs, by rw [write_int, hcs], isBlank_of_isDigit hc, ?_⟩
    rintro rfl
    exact absurd hc (by decide)
  · exact ⟨'[', _, by rw [write], by decide, by decide⟩
  · exact ⟨'\x7b', _, by rw [write], by decide, by decide⟩

/-! ## Collections -/

section Steps

variable {fuel : Nat} {cs cs' rest : List Char}

theorem readItems_last {item : Tree} (h : readValue fuel cs = some (item, ']' :: rest)) :
    readItems (fuel + 1) cs = some ([item], rest) := by
  rw [readItems, h]
  simp [skipBlank_cons (c := ']') (by decide)]

theorem readItems_more {item : Tree} {items : List Tree}
    (h : readValue fuel cs = some (item, ',' :: cs'))
    (hrest : readItems fuel cs' = some (items, rest)) :
    readItems (fuel + 1) cs = some (item :: items, rest) := by
  rw [readItems, h]
  simp [skipBlank_cons (c := ',') (by decide), hrest]

theorem readFields_last {name : String} {value : Tree}
    (h : readValue fuel cs = some (value, '\x7d' :: rest)) :
    readFields (fuel + 1) (writeText name ++ ':' :: cs) = some (some [(name, value)], rest) := by
  rw [writeText_append, readFields, skipBlank_cons (by decide)]
  simp [readText_writeText, skipBlank_cons (c := ':') (by decide),
    skipBlank_cons (c := '\x7d') (by decide), h]

theorem readFields_more {name : String} {value : Tree} {fields : List (String × Tree)}
    (h : readValue fuel cs = some (value, ',' :: cs'))
    (hrest : readFields fuel cs' = some (some fields, rest)) :
    readFields (fuel + 1) (writeText name ++ ':' :: cs) =
      some (some ((name, value) :: fields), rest) := by
  rw [writeText_append, readFields, skipBlank_cons (by decide)]
  simp [readText_writeText, skipBlank_cons (c := ':') (by decide),
    skipBlank_cons (c := ',') (by decide), h, hrest]

end Steps

theorem writeItems_more (item next : Tree) (items : List Tree) :
    writeItems (item :: next :: items) = write item ++ ',' :: writeItems (next :: items) := by
  rw [writeItems]
  simp

theorem writeFields_last (name : String) (value : Tree) :
    writeFields [(name, value)] = writeText name ++ ':' :: (write value ++ ['\x7d']) := by
  rw [writeFields, List.append_assoc, List.cons_append]

theorem writeFields_more (name : String) (value : Tree) (next : String × Tree)
    (fields : List (String × Tree)) :
    writeFields ((name, value) :: next :: fields) =
      writeText name ++ ':' :: (write value ++ ',' :: writeFields (next :: fields)) := by
  rw [writeFields, List.append_assoc, List.cons_append]
  simp

theorem readItems_writeItems {item : Tree} {items : List Tree}
    (h : ∀ t ∈ item :: items, ReadsBack t) (fuel : Nat) (rest : List Char)
    (hfuel : (writeItems (item :: items)).length < fuel) :
    readItems fuel (writeItems (item :: items) ++ rest) = some (item :: items, rest) := by
  induction items generalizing item fuel with
  | nil =>
    obtain ⟨fuel, rfl⟩ : ∃ f, fuel = f + 1 := ⟨fuel - 1, by omega⟩
    rw [writeItems, List.length_append, List.length_singleton] at hfuel
    rw [writeItems, List.append_assoc, List.singleton_append]
    exact readItems_last (h item List.mem_cons_self fuel _ (by omega)
      (endsNumeral_cons (by decide) rest))
  | cons next items ih =>
    obtain ⟨fuel, rfl⟩ : ∃ f, fuel = f + 1 := ⟨fuel - 1, by omega⟩
    rw [writeItems_more, List.length_append, List.length_cons] at hfuel
    rw [writeItems_more, List.append_assoc, List.cons_append]
    exact readItems_more
      (h item List.mem_cons_self fuel _ (by omega) (endsNumeral_cons (by decide) _))
      (ih (fun t ht ↦ h t (List.mem_cons_of_mem _ ht)) fuel (by omega))

theorem readFields_writeFields {field : String × Tree} {fields : List (String × Tree)}
    (h : ∀ f ∈ field :: fields, ReadsBack f.2) (fuel : Nat) (rest : List Char)
    (hfuel : (writeFields (field :: fields)).length < fuel) :
    readFields fuel (writeFields (field :: fields) ++ rest) =
      some (some (field :: fields), rest) := by
  induction fields generalizing field fuel with
  | nil =>
    obtain ⟨name, value⟩ := field
    have hvalue : ReadsBack value := h _ List.mem_cons_self
    obtain ⟨fuel, rfl⟩ : ∃ f, fuel = f + 1 := ⟨fuel - 1, by omega⟩
    simp only [writeFields_last, List.length_append, List.length_cons] at hfuel
    rw [writeFields_last, List.append_assoc, List.cons_append, List.append_assoc,
      List.singleton_append]
    exact readFields_last (hvalue fuel _ (by omega) (endsNumeral_cons (by decide) rest))
  | cons next fields ih =>
    obtain ⟨name, value⟩ := field
    have hvalue : ReadsBack value := h _ List.mem_cons_self
    obtain ⟨fuel, rfl⟩ : ∃ f, fuel = f + 1 := ⟨fuel - 1, by omega⟩
    simp only [writeFields_more, List.length_append, List.length_cons] at hfuel
    rw [writeFields_more, List.append_assoc, List.cons_append, List.append_assoc,
      List.cons_append]
    exact readFields_more (hvalue fuel _ (by omega) (endsNumeral_cons (by decide) _))
      (ih (fun f hf ↦ h f (List.mem_cons_of_mem _ hf)) fuel (by omega))

theorem writeItems_head {item : Tree} (items : List Tree) {c : Char} {cs : List Char}
    (h : write item = c :: cs) : ∃ cs', writeItems (item :: items) = c :: cs' := by
  cases items with
  | nil => exact ⟨_, by rw [writeItems, h]; rfl⟩
  | cons next items => exact ⟨_, by rw [writeItems_more, h]; rfl⟩

theorem writeFields_head (field : String × Tree) (fields : List (String × Tree)) :
    ∃ cs, writeFields (field :: fields) = '"' :: cs := by
  obtain ⟨name, value⟩ := field
  cases fields with
  | nil => exact ⟨_, by rw [writeFields_last, writeText_append]⟩
  | cons next fields => exact ⟨_, by rw [writeFields_more, writeText_append]⟩

theorem readsBack_list {items : List Tree} (h : ∀ t ∈ items, ReadsBack t)
    (hhead : ∀ t ∈ items, ∃ c cs, write t = c :: cs ∧ isBlank c = false ∧ c ≠ ']') :
    ReadsBack (.list items) := by
  intro fuel rest hfuel _
  obtain ⟨fuel, rfl⟩ : ∃ f, fuel = f + 1 := ⟨fuel - 1, by omega⟩
  rw [write, List.length_cons] at hfuel
  rw [write, List.cons_append, readValue, skipBlank_cons (by decide)]
  cases items with
  | nil => simp [writeItems, skipBlank_cons (c := ']') (by decide)]
  | cons item items =>
    obtain ⟨c, cs, hc, hblank, hclose⟩ := hhead item List.mem_cons_self
    obtain ⟨cs', hcs'⟩ := writeItems_head items hc
    have hitems := readItems_writeItems h fuel rest (by omega)
    rw [hcs', List.cons_append] at hitems ⊢
    simp only [skipBlank_cons hblank]
    split
    · rename_i heq
      exact absurd (List.cons.inj heq).1 hclose
    · rw [hitems]
      rfl

theorem readsBack_record {fields : List (String × Tree)} (h : ∀ f ∈ fields, ReadsBack f.2) :
    ReadsBack (.record fields) := by
  intro fuel rest hfuel _
  obtain ⟨fuel, rfl⟩ : ∃ f, fuel = f + 1 := ⟨fuel - 1, by omega⟩
  rw [write, List.length_cons] at hfuel
  rw [write, List.cons_append, readValue, skipBlank_cons (by decide)]
  cases fields with
  | nil => simp [writeFields, skipBlank_cons (c := '\x7d') (by decide)]
  | cons field fields =>
    obtain ⟨cs, hcs⟩ := writeFields_head field fields
    have hfields := readFields_writeFields h fuel rest (by omega)
    rw [hcs, List.cons_append] at hfields ⊢
    simp [skipBlank_cons (c := '"') (by decide), hfields]

/-- Every tree of plain data is read back. -/
theorem readsBack_of_plain {depth : Nat} {t : Tree} (h : t.Plain depth) : ReadsBack t := by
  induction h using Tree.Plain.induction with
  | text depth s => exact readsBack_text s
  | int depth n hn => exact readsBack_int hn
  | list depth items h ih => exact readsBack_list ih fun t ht ↦ write_head (h t ht)
  | record depth fields _ _ ih => exact readsBack_record ih

/-! ## Depth -/

theorem pruneItems_eq_map (depth : Nat) (items : List Tree) :
    pruneItems depth items = items.map (prune depth) := by
  induction items with
  | nil => rfl
  | cons item items ih => rw [pruneItems, ih, List.map_cons]

theorem pruneFields_eq_map (depth : Nat) (fields : List (String × Tree)) :
    pruneFields depth fields = fields.map fun f ↦ (f.1, prune depth f.2) := by
  induction fields with
  | nil => rfl
  | cons field fields ih => rw [pruneFields, ih, List.map_cons]

theorem prune_of_plain {depth : Nat} {t : Tree} (h : t.Plain depth) : prune depth t = t := by
  induction h using Tree.Plain.induction with
  | text depth s => cases depth <;> rfl
  | int depth n hn => cases depth <;> rfl
  | list depth items _ ih =>
    rw [prune, pruneItems_eq_map, List.map_congr_left ih, List.map_id']
  | record depth fields _ _ ih =>
    have hfields : ∀ f ∈ fields, (f.1, prune depth f.2) = f := fun f hf ↦ by rw [ih f hf]
    rw [prune, pruneFields_eq_map, List.map_congr_left hfields, List.map_id']

/-- Plain data that is not nested too deeply is what its text is read as. -/
theorem read_render {t : Tree} (h : t.Plain depthLimit) : read (render t) = some t := by
  have hread := readsBack_of_plain h ((write t).length + 1) [] (by omega) endsNumeral_nil
  rw [List.append_nil] at hread
  rw [read, render, String.toList_ofList]
  simp only [hread, Option.bind_eq_bind, Option.bind_some, prune_of_plain h]
  rfl

end Reachability.Json

/-! ## Policy documents -/

namespace Reachability

/-- A document of the kind that policies have is what its text is read as. -/
theorem PolicyDocument.ofJson_toJson {d : PolicyDocument} (h : d.Simple) :
    ofJson d.toJson = some d := by
  have hplain : (Tree.record d.toFields).Plain Json.depthLimit :=
    Tree.Plain.mono (Tree.plain_toFields h : Tree.Plain (0 + 10) _) (by decide)
  rw [ofJson, toJson, Json.read_render hplain, Option.bind_eq_bind, Option.bind_some,
    Decoder.policyDocument_toFields h]

/-- Different documents have different texts, so what is absent is told from what is empty. -/
theorem PolicyDocument.toJson_inj {d d' : PolicyDocument} (h : d.Simple) (h' : d'.Simple) :
    d.toJson = d'.toJson ↔ d = d' := by
  refine ⟨fun heq ↦ ?_, congrArg toJson⟩
  have hread := ofJson_toJson h
  rw [heq, ofJson_toJson h'] at hread
  exact (Option.some.inj hread).symm

namespace Policy

/-- **The document of a policy comes back from its text.** So the policy can be had from the text
just as from the document. Documents that differ in no more than an absent list in place of an empty
one have different texts, and a name of a port is read as a name whatever it is made of. -/
theorem ofJson_toDocument_toJson (p : Policy) :
    PolicyDocument.ofJson p.toDocument.toJson = some p.toDocument ∧
      (p.Governs → p.PortsValid →
        ofDocument p.toDocument = .ok p.norm ∧
          (PolicyDocument.ofJson p.toDocument.toJson).map ofDocument = some (.ok p.norm)) ∧
      (∀ d d' : PolicyDocument, d.Simple → d'.Simple → (d.toJson = d'.toJson ↔ d = d')) ∧
      ∀ name : String, (Json.read (Json.render (Encode.portRef (.name name)))).bind
        Decoder.portRef = some (.name name) := by
  have hback : PolicyDocument.ofJson p.toDocument.toJson = some p.toDocument :=
    PolicyDocument.ofJson_toJson p.simple_toDocument
  refine ⟨hback, fun hgoverns hports ↦ ?_, fun d d' hd hd' ↦ PolicyDocument.toJson_inj hd hd',
    fun name ↦ ?_⟩
  · have hpolicy : ofDocument p.toDocument = .ok p.norm := by
      rw [ofDocument_toDocument_eq hgoverns, complaint?_eq_none_iff.mpr hports]
      rfl
    rw [hback, Option.map_some, hpolicy]
    exact ⟨rfl, rfl⟩
  · rw [Encode.portRef, Json.read_render (Tree.plain_text name), Option.bind_some]
    rfl

/-- Allows a port that has a number for its name. The selector has parts, but they are empty. -/
def toNamedPort : Policy where
  name := "a\n\"b"
  target := ⟨"x", ⟨some ∅, some []⟩, .only .ingress⟩
  ingress := [⟨[], [.name .tcp "80"]⟩]
  egress := []

/-- The text is read as a policy, and it is not the text of the policy whose selector has no
parts. -/
theorem ofJson_toDocument_toJson_toNamedPort :
    (PolicyDocument.ofJson toNamedPort.toDocument.toJson).map ofDocument =
        some (.ok toNamedPort.norm) ∧
      toNamedPort.toDocument.toJson ≠
        { toNamedPort with target.pods := .everything }.toDocument.toJson := by
  have hvalid : toNamedPort.PortsValid := complaint?_eq_none_iff.mp (by decide)
  obtain ⟨-, hpolicy, hdistinct, -⟩ := toNamedPort.ofJson_toDocument_toJson
  refine ⟨(hpolicy ⟨.ingress, rfl⟩ hvalid).2, fun heq ↦ ?_⟩
  have hspec := congrArg PolicyDocument.spec
    ((hdistinct _ _ (simple_toDocument _) (simple_toDocument _)).mp heq)
  exact absurd hspec (by decide)

end Policy

end Reachability
