import Reachability.Proofs.Yaml.Collection
import Reachability.Yaml.Parser

/-!
# Parsing the tokens of trees

The parser makes a node of the tokens of a tree, whatever tokens come after them. The one thing
those may not be is the start of an item where the tree is a list in the column of its key, because
such a list ends where no item follows. Two calls for each token are enough, and two more for that
kind of list, which has no token for its start.
-/

namespace Reachability.Yaml

/-! ## Nodes of trees -/

mutual

/-- The node that stands for a tree. -/
def nodeOf {α : Type} : Tree → Node α
  | .text s => .scalar .none s.toList (isPlainStyle s.toList)
  | .int n => .scalar .none (toString n).toList true
  | .list items => .sequence .none (itemNodes items)
  | .record fields => .mapping .none (fieldNodes fields)
  | _ => .missing

/-- The nodes that stand for the items of a list. -/
def itemNodes {α : Type} : List Tree → List (Node α)
  | [] => []
  | item :: rest => nodeOf item :: itemNodes rest

/-- The nodes that stand for the fields of a record. -/
def fieldNodes {α : Type} : List (String × Tree) → List (Node α × Node α)
  | [] => []
  | (name, value) :: rest =>
    (.scalar .none name.toList (isPlainStyle name.toList), nodeOf value) :: fieldNodes rest

end

variable {handles : TagHandles} {fuel : Nat} {indentless : Bool} {rest : List Token}

/-! ## Single nodes -/

theorem parseNode_scalar (block : Bool) (text : List Char) (plain : Bool) :
    parseNode handles (fuel + 1) block indentless (.scalar text plain :: rest) =
      some (.scalar .none text plain, rest) := by
  simp [parseNode, parseProperties]

theorem parseNode_emptySequence (block : Bool) :
    parseNode handles (fuel + 2) block indentless (.flowSequenceStart :: .flowSequenceEnd :: rest) =
      some (.sequence .none [], rest) := by
  simp [parseNode, parseProperties, parseFlowItems]

theorem parseNode_emptyMapping (block : Bool) :
    parseNode handles (fuel + 2) block indentless (.flowMappingStart :: .flowMappingEnd :: rest) =
      some (.mapping .none [], rest) := by
  simp [parseNode, parseProperties, parseFlowEntries]

theorem parseNode_blockSequence {ts : List Token} {items : List TextNode}
    (h : parseBlockItems handles fuel ts = some (items, rest)) :
    parseNode handles (fuel + 1) true indentless (.blockSequenceStart :: ts) =
      some (.sequence .none items, rest) := by
  simp [parseNode, parseProperties, h]

theorem parseNode_indentlessSequence {ts : List Token} {items : List TextNode}
    (h : parseIndentlessItems handles fuel (.blockEntry :: ts) = some (items, rest)) :
    parseNode handles (fuel + 1) true true (.blockEntry :: ts) =
      some (.sequence .none items, rest) := by
  simp [parseNode, parseProperties, h]

theorem parseNode_blockMapping {ts : List Token} {entries : List (TextNode × TextNode)}
    (h : parseBlockEntries handles fuel ts = some (entries, rest)) :
    parseNode handles (fuel + 1) true indentless (.blockMappingStart :: ts) =
      some (.mapping .none entries, rest) := by
  simp [parseNode, parseProperties, h]

/-! ## Collections -/

/-- The parser makes the node of the tree of its tokens. -/
structure Parses (t : Tree) : Prop where
  begins (afterKey : Bool) : ∃ token ts, nodeTokens afterKey t = token :: ts ∧
    mappingStops.contains token = false ∧ (afterKey = false → token ≠ .blockEntry)
  parse (handles : TagHandles) (fuel : Nat) (afterKey indentless : Bool) (rest : List Token) :
    (afterKey = true → indentless = true ∧ rest.head? ≠ some .blockEntry) →
    2 * (nodeTokens afterKey t).length + (if afterKey then 2 else 0) ≤ fuel →
    parseNode handles fuel true indentless (nodeTokens afterKey t ++ rest) = some (nodeOf t, rest)

theorem Parses.optional {t : Tree} (h : Parses t) {afterKey : Bool} (indentless : Bool)
    {stops rest : List Token}
    (hstops : stops ⊆ mappingStops ∨ afterKey = false ∧ stops ⊆ .blockEntry :: mappingStops)
    (hrest : afterKey = true → indentless = true ∧ rest.head? ≠ some .blockEntry)
    (hfuel : 2 * (nodeTokens afterKey t).length + (if afterKey then 2 else 0) ≤ fuel) :
    parseOptional handles stops (fuel + 1) true indentless (nodeTokens afterKey t ++ rest) =
      some (nodeOf t, rest) := by
  obtain ⟨token, ts, htokens, hstop, hentry⟩ := h.begins afterKey
  have hmeets : meets stops (nodeTokens afterKey t ++ rest) = false := by
    have hnot : token ∉ mappingStops := by simpa using hstop
    rw [htokens]
    change stops.contains token = false
    rw [← Bool.not_eq_true, List.contains_iff_mem]
    intro hmem
    rcases hstops with hsub | ⟨hkey, hsub⟩
    · exact hnot (hsub hmem)
    · rcases List.mem_cons.mp (hsub hmem) with heq | hmem
      · exact hentry hkey heq
      · exact hnot hmem
  rw [parseOptional, hmeets]
  exact h.parse handles fuel afterKey indentless rest hrest hfuel

theorem parseBlockItems_itemTokens {items : List Tree} (h : ∀ t ∈ items, Parses t)
    (hfuel : 2 * (itemTokens items).length < fuel) :
    parseBlockItems handles fuel (itemTokens items ++ .blockEnd :: rest) =
      some (itemNodes items, rest) := by
  induction items generalizing fuel with
  | nil =>
    obtain ⟨fuel, rfl⟩ : ∃ f, fuel = f + 1 := ⟨fuel - 1, by omega⟩
    rfl
  | cons item items ih =>
    obtain ⟨hitem, hitems⟩ := List.forall_mem_cons.mp h
    simp only [itemTokens, List.length_cons, List.length_append] at hfuel
    obtain ⟨fuel, rfl⟩ : ∃ f, fuel = f + 2 := ⟨fuel - 2, by omega⟩
    have hfirst : parseOptional handles sequenceStops (fuel + 1) true false
        (nodeTokens false item ++ (itemTokens items ++ .blockEnd :: rest)) =
        some (nodeOf item, itemTokens items ++ .blockEnd :: rest) :=
      hitem.optional false (Or.inr ⟨rfl, by decide⟩) (by simp) (by simp; omega)
    have hothers := ih hitems (by omega : 2 * (itemTokens items).length < fuel + 1)
    rw [itemTokens, List.cons_append, List.append_assoc, parseBlockItems, hfirst]
    simp [hothers, itemNodes]

theorem parseIndentlessItems_itemTokens {items : List Tree} (h : ∀ t ∈ items, Parses t)
    (hrest : rest.head? ≠ some .blockEntry) (hfuel : 2 * (itemTokens items).length < fuel) :
    parseIndentlessItems handles fuel (itemTokens items ++ rest) =
      some (itemNodes items, rest) := by
  induction items generalizing fuel with
  | nil =>
    obtain ⟨fuel, rfl⟩ : ∃ f, fuel = f + 1 := ⟨fuel - 1, by omega⟩
    rw [itemTokens, List.nil_append, parseIndentlessItems]
    · rfl
    · rintro ts rfl
      exact hrest rfl
  | cons item items ih =>
    obtain ⟨hitem, hitems⟩ := List.forall_mem_cons.mp h
    simp only [itemTokens, List.length_cons, List.length_append] at hfuel
    obtain ⟨fuel, rfl⟩ : ∃ f, fuel = f + 2 := ⟨fuel - 2, by omega⟩
    have hfirst : parseOptional handles indentlessStops (fuel + 1) true false
        (nodeTokens false item ++ (itemTokens items ++ rest)) =
        some (nodeOf item, itemTokens items ++ rest) :=
      hitem.optional false (Or.inr ⟨rfl, by decide⟩) (by simp) (by simp; omega)
    have hothers := ih hitems (by omega : 2 * (itemTokens items).length < fuel + 1)
    rw [itemTokens, List.cons_append, List.append_assoc, parseIndentlessItems, hfirst]
    simp [hothers, itemNodes]

/-- What stands after a field is no item, so a list that is its value ends there. -/
theorem fieldTokens_head (fields : List (String × Tree)) (rest : List Token) :
    (fieldTokens fields ++ .blockEnd :: rest).head? ≠ some .blockEntry := by
  cases fields with
  | nil => simp [fieldTokens]
  | cons field fields => simp [fieldTokens]

theorem parseBlockEntries_fieldTokens {fields : List (String × Tree)} (h : ∀ f ∈ fields, Parses f.2)
    (hfuel : 2 * (fieldTokens fields).length < fuel) :
    parseBlockEntries handles fuel (fieldTokens fields ++ .blockEnd :: rest) =
      some (fieldNodes fields, rest) := by
  induction fields generalizing fuel with
  | nil =>
    obtain ⟨fuel, rfl⟩ : ∃ f, fuel = f + 1 := ⟨fuel - 1, by omega⟩
    rfl
  | cons field fields ih =>
    obtain ⟨name, value⟩ := field
    obtain ⟨hvalue, hfields⟩ := List.forall_mem_cons.mp h
    simp only [fieldTokens, List.length_cons, List.length_append] at hfuel
    obtain ⟨fuel, rfl⟩ : ∃ f, fuel = f + 3 := ⟨fuel - 3, by omega⟩
    have hvalueFuel : 2 * (nodeTokens (isSimpleKey name.toList) value).length +
        (if isSimpleKey name.toList then 2 else 0) ≤ fuel := by
      split <;> omega
    have hfirst : parseOptional handles mappingStops (fuel + 1) true true
        (nodeTokens (isSimpleKey name.toList) value ++ (fieldTokens fields ++ .blockEnd :: rest)) =
        some (nodeOf value, fieldTokens fields ++ .blockEnd :: rest) :=
      hvalue.optional true (Or.inl (List.Subset.refl _))
        (fun _ ↦ ⟨rfl, fieldTokens_head fields rest⟩) hvalueFuel
    have hothers := ih hfields (by omega : 2 * (fieldTokens fields).length < fuel + 2)
    have hname : ∀ ts, parseOptional handles mappingStops (fuel + 2) true true
        (.scalar name.toList (isPlainStyle name.toList) :: .value :: ts) =
        some (.scalar .none name.toList (isPlainStyle name.toList), .value :: ts) := fun ts ↦ by
      rw [parseOptional]
      exact parseNode_scalar true _ _
    simp only [fieldTokens, List.cons_append, List.append_assoc]
    rw [parseBlockEntries, hname]
    simp [parseValue, hfirst, hothers, fieldNodes]

/-! ## Trees -/

theorem parses_scalar {t : Tree} {text : List Char} {plain : Bool}
    (hnode : (nodeOf t : TextNode) = .scalar .none text plain)
    (htokens : ∀ afterKey, nodeTokens afterKey t = [.scalar text plain]) : Parses t := by
  refine ⟨fun afterKey ↦ ⟨_, [], htokens afterKey, rfl, fun _ ↦ by simp⟩, ?_⟩
  intro handles fuel afterKey indentless rest _ hfuel
  rw [htokens, List.length_singleton] at hfuel
  obtain ⟨fuel, rfl⟩ : ∃ f, fuel = f + 1 := ⟨fuel - 1, by omega⟩
  rw [htokens, hnode]
  exact parseNode_scalar true text plain

theorem parses_text (s : String) : Parses (.text s) :=
  parses_scalar (by rw [nodeOf]) fun _ ↦ by simp only [nodeTokens]

theorem parses_int (n : Int) : Parses (.int n) :=
  parses_scalar (by rw [nodeOf]) fun _ ↦ by simp only [nodeTokens]

theorem parses_list {items : List Tree} (h : ∀ t ∈ items, Parses t) : Parses (.list items) := by
  cases items with
  | nil =>
    have htokens : ∀ afterKey, nodeTokens afterKey (.list []) =
        [.flowSequenceStart, .flowSequenceEnd] := fun _ ↦ by simp [nodeTokens]
    refine ⟨fun afterKey ↦ ⟨_, _, htokens afterKey, rfl, fun _ ↦ by simp⟩, ?_⟩
    intro handles fuel afterKey indentless rest _ hfuel
    rw [htokens] at hfuel ⊢
    simp only [List.length_cons] at hfuel
    obtain ⟨fuel, rfl⟩ : ∃ f, fuel = f + 2 := ⟨fuel - 2, by omega⟩
    exact parseNode_emptySequence true
  | cons item items =>
    have hblock : nodeTokens false (.list (item :: items)) =
        .blockSequenceStart :: (itemTokens (item :: items) ++ [.blockEnd]) := by simp [nodeTokens]
    have hvalue : nodeTokens true (.list (item :: items)) = itemTokens (item :: items) := by
      simp [nodeTokens]
    have hitems : itemTokens (item :: items) =
        .blockEntry :: (nodeTokens false item ++ itemTokens items) := by rw [itemTokens]
    -- after a key, the list has no token for its start and none for its end
    refine ⟨fun afterKey ↦ ?_, ?_⟩
    · cases afterKey with
      | false => exact ⟨_, _, hblock, rfl, fun _ ↦ by simp⟩
      | true => exact ⟨_, _, hvalue.trans hitems, rfl, by simp⟩
    · intro handles fuel afterKey indentless rest hrest hfuel
      obtain ⟨fuel, rfl⟩ : ∃ f, fuel = f + 1 := by
        refine ⟨fuel - 1, ?_⟩
        cases afterKey with
        | false =>
          rw [hblock, List.length_cons] at hfuel
          omega
        | true =>
          rw [if_pos rfl] at hfuel
          omega
      rw [nodeOf]
      cases afterKey with
      | false =>
        rw [hblock] at hfuel ⊢
        simp only [List.length_cons, List.length_append, List.length_nil] at hfuel
        rw [List.cons_append, List.append_assoc]
        exact parseNode_blockSequence (parseBlockItems_itemTokens h (by omega))
      | true =>
        obtain ⟨rfl, hhead⟩ := hrest rfl
        rw [hvalue, if_pos rfl] at hfuel
        have hparse := @parseIndentlessItems_itemTokens handles fuel rest _ h hhead (by omega)
        rw [hvalue]
        rw [hitems, List.cons_append] at hparse ⊢
        exact parseNode_indentlessSequence hparse

theorem parses_record {fields : List (String × Tree)} (h : ∀ f ∈ fields, Parses f.2) :
    Parses (.record fields) := by
  cases fields with
  | nil =>
    have htokens : ∀ afterKey, nodeTokens afterKey (.record []) =
        [.flowMappingStart, .flowMappingEnd] := fun _ ↦ by simp [nodeTokens]
    refine ⟨fun afterKey ↦ ⟨_, _, htokens afterKey, rfl, fun _ ↦ by simp⟩, ?_⟩
    intro handles fuel afterKey indentless rest _ hfuel
    rw [htokens] at hfuel ⊢
    simp only [List.length_cons] at hfuel
    obtain ⟨fuel, rfl⟩ : ∃ f, fuel = f + 2 := ⟨fuel - 2, by omega⟩
    exact parseNode_emptyMapping true
  | cons field fields =>
    have htokens : ∀ afterKey, nodeTokens afterKey (.record (field :: fields)) =
        .blockMappingStart :: (fieldTokens (field :: fields) ++ [.blockEnd]) :=
      fun _ ↦ by simp [nodeTokens]
    refine ⟨fun afterKey ↦ ⟨_, _, htokens afterKey, rfl, fun _ ↦ by simp⟩, ?_⟩
    intro handles fuel afterKey indentless rest _ hfuel
    rw [htokens] at hfuel ⊢
    simp only [List.length_cons, List.length_append, List.length_nil] at hfuel
    obtain ⟨fuel, rfl⟩ : ∃ f, fuel = f + 1 := ⟨fuel - 1, by omega⟩
    rw [List.cons_append, List.append_assoc, nodeOf]
    exact parseNode_blockMapping (parseBlockEntries_fieldTokens h (by omega))

/-- The parser makes the node of a tree of plain data of its tokens. -/
theorem parses_of_plain {depth : Nat} {t : Tree} (h : t.Plain depth) : Parses t := by
  induction h using Tree.Plain.induction with
  | text depth s => exact parses_text s
  | int depth n _ => exact parses_int n
  | list depth items _ ih => exact parses_list ih
  | record depth fields _ _ ih => exact parses_record ih

end Reachability.Yaml
