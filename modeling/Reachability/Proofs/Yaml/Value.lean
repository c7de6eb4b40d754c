import Reachability.Proofs.Yaml.Parser
import Reachability.Yaml.Reader

/-!
# The values of nodes

The node that stands for a tree of plain data has the tree for its value: it has no anchors, a text
is written plain only if it then means text, and a mapping does not repeat a key because the record
does not repeat a name.
-/

namespace Reachability.Yaml

/-- A computation that gives a result goes on with it. -/
theorem bind_eq_of_eq_some {σ α β : Type} {x : StateT σ Option α} {f : α → StateT σ Option β}
    {s s' : σ} {a : α} (h : x s = some (a, s')) : (x >>= f) s = f a s' := by
  change (x s).bind (fun p ↦ f p.1 p.2) = f a s'
  rw [h]
  rfl

/-! ## Anchors -/

theorem linkProperties_none (names : AnchorNames) :
    linkProperties .none names = some (.none, names) := rfl

theorem link_scalar (text : List Char) (plain : Bool) (names : AnchorNames) :
    link (.scalar .none text plain) names = some (.scalar .none text plain, names) := rfl

mutual

/-- A node without anchors stays as it is. -/
theorem link_nodeOf (t : Tree) (names : AnchorNames) :
    link (nodeOf t) names = some (nodeOf t, names) := by
  cases t with
  | list items =>
    rw [nodeOf, nodeOf, link, bind_eq_of_eq_some (linkProperties_none names),
      bind_eq_of_eq_some (linkItems_itemNodes items names)]
    rfl
  | record fields =>
    rw [nodeOf, nodeOf, link, bind_eq_of_eq_some (linkProperties_none names),
      bind_eq_of_eq_some (linkEntries_fieldNodes fields names)]
    rfl
  | _ =>
    simp only [nodeOf]
    exact link_scalar _ _ names

theorem linkItems_itemNodes (items : List Tree) (names : AnchorNames) :
    linkItems (itemNodes items) names = some (itemNodes items, names) := by
  cases items with
  | nil => rfl
  | cons item rest =>
    rw [itemNodes, itemNodes, linkItems, bind_eq_of_eq_some (link_nodeOf item names),
      bind_eq_of_eq_some (linkItems_itemNodes rest names)]
    rfl

theorem linkEntries_fieldNodes (fields : List (String × Tree)) (names : AnchorNames) :
    linkEntries (fieldNodes fields) names = some (fieldNodes fields, names) := by
  cases fields with
  | nil => rfl
  | cons field rest =>
    obtain ⟨name, value⟩ := field
    rw [fieldNodes, fieldNodes, linkEntries, bind_eq_of_eq_some (link_scalar _ _ names),
      bind_eq_of_eq_some (link_nodeOf value names),
      bind_eq_of_eq_some (linkEntries_fieldNodes rest names)]
    rfl

end

/-! ## Plain scalars -/

theorem plainValue_text {cs : List Char} (h : looksOther cs = false) :
    plainValue cs = some (.text cs) := by
  rw [looksOther, Bool.or_eq_false_iff, bne_eq_false_iff_eq] at h
  rw [plainValue, h.1]

theorem untaggedValue_text (cs : List Char) :
    untaggedValue cs (isPlainStyle cs) = some (.text cs) := by
  rcases styleOf_cases cs with ⟨hstyle, hother, -⟩ | ⟨hstyle, -⟩ | hstyle | ⟨hstyle, -⟩
  · rw [isPlainStyle, hstyle]
    exact plainValue_text hother
  all_goals
    rw [isPlainStyle, hstyle]
    rfl

/-! ## Numbers -/

theorem any_words_eq_false {c : Char} (hc : c.isDigit) (cs : List Char) {words : List String}
    (hwords : ∀ w ∈ words, w.toList.head?.any Char.isDigit = false) :
    words.any (·.toList == c :: cs) = false := by
  rw [List.any_eq_false]
  intro w hw heq
  have hword := hwords w hw
  rw [eq_of_beq heq] at hword
  exact absurd hc (by simpa using hword)

theorem integer?_toDigits (n : Nat) : integer? (Nat.toDigits 10 n) = some (n : Int) := by
  by_cases hzero : n = 0
  · subst hzero
    rfl
  · have hdecimal := Text.decimal?_toDigits n
    have hfirst : (Nat.toDigits 10 n).head? ≠ some '0' :=
      fun h ↦ hzero (Text.eq_zero_of_head?_toDigits h)
    have hdigits : ∀ c ∈ Nat.toDigits 10 n, c.isDigit := fun c hc ↦ Text.isDigit_of_mem_toDigits hc
    obtain ⟨c, cs, hcs⟩ := List.exists_cons_of_ne_nil (Nat.toDigits_ne_nil : Nat.toDigits 10 n ≠ [])
    rw [hcs] at hdecimal hfirst hdigits ⊢
    have hc : c.isDigit := hdigits c List.mem_cons_self
    have hminus : c ≠ '-' := ne_of_isDigit hc (by decide)
    have hplus : c ≠ '+' := ne_of_isDigit hc (by decide)
    have hpositive : c ≠ '0' := fun heq ↦ hfirst (congrArg some heq)
    have hpadded : isZeroPadded (c :: cs) = false := by
      simp [isZeroPadded, unsignedPart, hminus, hplus, hpositive]
    simp [integer?, magnitude?, hminus, hplus, hpositive, hpadded, hdecimal]

theorem plainValue_toDigits {n : Nat} (h : (n : Int) < Int.pow 2 31) :
    plainValue (Nat.toDigits 10 n) = some (.int n) := by
  have hint := integer?_toDigits n
  obtain ⟨c, cs, hcs⟩ := List.exists_cons_of_ne_nil (Nat.toDigits_ne_nil : Nat.toDigits 10 n ≠ [])
  have hc : c.isDigit := Text.isDigit_of_mem_toDigits (by rw [hcs]; exact List.mem_cons_self)
  have hrange : integerMeaning n = some (.int n) := by
    have hlow : -Int.pow 2 63 ≤ 0 := by decide
    have hhigh : Int.pow 2 31 ≤ Int.pow 2 64 := by decide
    rw [integerMeaning, if_pos ⟨by omega, by omega⟩]
  have hnull : isNullWord (c :: cs) = false := any_words_eq_false hc cs (by decide)
  have hbool : boolWord? (c :: cs) = none := by
    rw [boolWord?, any_words_eq_false hc cs (by decide), any_words_eq_false hc cs (by decide)]
    rfl
  rw [hcs] at hint ⊢
  have hint : (integer? (c :: cs)).bind integerMeaning = some (.int n) := by
    rw [hint, Option.bind_some, hrange]
  have hmeaning : meaning (c :: cs) = .int n := by
    rw [meaning, hnull, hbool, hint]
    rfl
  rw [plainValue, hmeaning]

/-! ## Values of trees -/

mutual

/-- The value that a tree of plain data has. -/
def valueOf : Tree → Value
  | .text s => .text s.toList
  | .int n => .int n
  | .list items => .list (itemValues items)
  | .record fields => .mapping (fieldValues fields)
  | _ => .null

/-- The values of the items of a list. -/
def itemValues : List Tree → List Value
  | [] => []
  | item :: rest => valueOf item :: itemValues rest

/-- The values of the fields of a record. -/
def fieldValues : List (String × Tree) → List (Value × Value)
  | [] => []
  | (name, value) :: rest => (.text name.toList, valueOf value) :: fieldValues rest

end

/-- The node that stands for the tree has its value, and the value gives the tree back. -/
structure HasValue (depth : Nat) (t : Tree) : Prop where
  value (ctx : DocumentContext) (jumps : Nat) :
    nodeValue ctx depth (nodeOf t) jumps = some (valueOf t, jumps)
  tree : (valueOf t).toTree = t

theorem nodeValue_scalar (ctx : DocumentContext) (depth : Nat) {text : List Char} {plain : Bool}
    {value : Value} (h : untaggedValue text plain = some value) (jumps : Nat) :
    nodeValue ctx depth (.scalar .none text plain) jumps = some (value, jumps) := by
  have hcontent : ∀ inner,
      contentValue inner (.scalar .none text plain) jumps = some (value, jumps) := by
    intro inner
    rw [contentValue]
    change (scalarValue .none text plain).bind _ = _
    rw [scalarValue, h]
    rfl
  cases depth with
  | zero => exact hcontent none
  | succ depth => exact hcontent (some (nodeValue ctx depth))

theorem hasValue_text (depth : Nat) (s : String) : HasValue depth (.text s) := by
  refine ⟨fun ctx jumps ↦ ?_, ?_⟩
  · rw [nodeOf, valueOf]
    exact nodeValue_scalar ctx depth (untaggedValue_text s.toList) jumps
  · rw [valueOf, Value.toTree, String.ofList_toList]

theorem hasValue_int (depth : Nat) {n : Int} (h : IsSmall n) : HasValue depth (.int n) := by
  obtain ⟨hpos, hlt⟩ := h
  obtain ⟨m, rfl⟩ := Int.eq_ofNat_of_zero_le hpos
  refine ⟨fun ctx jumps ↦ ?_, by rw [valueOf, Value.toTree]⟩
  have hvalue : untaggedValue (Nat.toDigits 10 m) true = some (.int m) := plainValue_toDigits hlt
  rw [nodeOf, valueOf, Text.toList_toString_natCast]
  exact nodeValue_scalar ctx depth hvalue jumps

/-! ## Collections -/

variable {depth : Nat} {items : List Tree} {fields : List (String × Tree)}

theorem mapM_itemNodes (h : ∀ t ∈ items, HasValue depth t) (ctx : DocumentContext) (jumps : Nat) :
    (itemNodes items).mapM (nodeValue ctx depth) jumps = some (itemValues items, jumps) := by
  induction items with
  | nil => rfl
  | cons item items ih =>
    obtain ⟨hitem, hitems⟩ := List.forall_mem_cons.mp h
    rw [itemNodes, List.mapM_cons, bind_eq_of_eq_some (hitem.value ctx jumps),
      bind_eq_of_eq_some (ih hitems), itemValues]
    rfl

theorem toTrees_itemValues (h : ∀ t ∈ items, HasValue depth t) :
    Value.toTrees (itemValues items) = items := by
  induction items with
  | nil => rfl
  | cons item items ih =>
    obtain ⟨hitem, hitems⟩ := List.forall_mem_cons.mp h
    rw [itemValues, Value.toTrees, hitem.tree, ih hitems]

theorem toFields_fieldValues (h : ∀ f ∈ fields, HasValue depth f.2) :
    Value.toFields (fieldValues fields) = some fields := by
  induction fields with
  | nil => rfl
  | cons field fields ih =>
    obtain ⟨name, value⟩ := field
    obtain ⟨hvalue, hfields⟩ := List.forall_mem_cons.mp h
    rw [fieldValues, Value.toFields, Value.text?, ih hfields, hvalue.tree, String.ofList_toList]
    rfl

theorem foldlM_fieldNodes (h : ∀ f ∈ fields, HasValue depth f.2)
    (hnames : (fields.map Prod.fst).Nodup) (ctx : DocumentContext) (jumps : Nat)
    {done : List (Value × Value)}
    (hdone : ∀ f ∈ fields, done.any (·.1.same (.text f.1.toList)) = false) :
    (fieldNodes fields).foldlM (entryValue (nodeValue ctx depth)) done jumps =
      some ((fieldValues fields).reverse ++ done, jumps) := by
  induction fields generalizing done with
  | nil => rfl
  | cons field fields ih =>
    obtain ⟨name, value⟩ := field
    obtain ⟨hvalue, hfields⟩ := List.forall_mem_cons.mp h
    obtain ⟨hnew, hothers⟩ := List.forall_mem_cons.mp hdone
    obtain ⟨hfresh, hrest⟩ := List.nodup_cons.mp hnames
    have hadd : (addEntry done (.text name.toList) : StateT Nat Option Unit) jumps =
        some ((), jumps) := by
      rw [addEntry, hnew]
      rfl
    have hfield : entryValue (nodeValue ctx depth) done
        (.scalar .none name.toList (isPlainStyle name.toList), nodeOf value) jumps =
        some ((.text name.toList, valueOf value) :: done, jumps) := by
      rw [entryValue, bind_eq_of_eq_some
        (nodeValue_scalar ctx depth (untaggedValue_text name.toList) jumps),
        bind_eq_of_eq_some hadd, bind_eq_of_eq_some (hvalue.value ctx jumps)]
      rfl
    rw [fieldNodes, List.foldlM_cons, bind_eq_of_eq_some hfield, ih hfields hrest, fieldValues]
    · simp
    · intro f hf
      have hne : name ≠ f.1 := fun heq ↦ hfresh (List.mem_map.mpr ⟨f, hf, heq.symm⟩)
      have hchars : (name.toList == f.1.toList) = false :=
        beq_eq_false_iff_ne.mpr fun heq ↦ hne (String.toList_inj.mp heq)
      rw [List.any_cons, hothers f hf, Value.same, hchars]
      rfl

theorem hasValue_list (h : ∀ t ∈ items, HasValue depth t) : HasValue (depth + 1) (.list items) := by
  refine ⟨fun ctx jumps ↦ ?_, by rw [valueOf, Value.toTree, toTrees_itemValues h]⟩
  rw [nodeOf, valueOf]
  change ((itemNodes items).mapM (nodeValue ctx depth) >>= fun values ↦
    pure (Value.list values) : StateT Nat Option Value) jumps = _
  rw [bind_eq_of_eq_some (mapM_itemNodes h ctx jumps)]
  rfl

theorem hasValue_record (h : ∀ f ∈ fields, HasValue depth f.2)
    (hnames : (fields.map Prod.fst).Nodup) : HasValue (depth + 1) (.record fields) := by
  have htree : (valueOf (.record fields)).toTree = .record fields := by
    rw [valueOf, Value.toTree, toFields_fieldValues h]
    rfl
  refine ⟨fun ctx jumps ↦ ?_, htree⟩
  rw [nodeOf, valueOf]
  change ((fieldNodes fields).foldlM (entryValue (nodeValue ctx depth)) [] >>= fun entries ↦
    pure (Value.mapping entries.reverse) : StateT Nat Option Value) jumps = _
  rw [bind_eq_of_eq_some (foldlM_fieldNodes h hnames ctx jumps (by simp)), List.append_nil]
  change some (Value.mapping (fieldValues fields).reverse.reverse, jumps) = _
  rw [List.reverse_reverse]

/-- The node of a tree of plain data has the tree for its value. -/
theorem hasValue_of_plain {t : Tree} (h : t.Plain depth) : HasValue depth t := by
  induction h using Tree.Plain.induction with
  | text depth s => exact hasValue_text depth s
  | int depth n hn => exact hasValue_int depth hn
  | list depth items _ ih => exact hasValue_list ih
  | record depth fields hnames _ ih => exact hasValue_record ih hnames

/-! ## Documents -/

/-- A document of plain data that is not nested too deeply has the data for its value. -/
theorem documentValue_nodeOf {t : Tree} (h : t.Plain depthLimit) :
    documentValue (nodeOf t) = some (valueOf t) := by
  have hvalue := fun ctx ↦ (hasValue_of_plain h).value ctx 0
  simp [documentValue, StateT.run, link_nodeOf, hvalue]

end Reachability.Yaml
