import Reachability.Proofs.Numeral
import Reachability.Proofs.PlainTree
import Reachability.Proofs.Yaml.Collection

/-!
# The characters of written text

Whatever characters a tree of plain data has, its text has none that a stream may not have, and none
that a reader would change before it begins to read.
-/

namespace Reachability.Yaml

/-- All characters can be written without an escape. -/
def Printable (cs : List Char) : Prop := ∀ c ∈ cs, isPrintable c

namespace Printable

variable {cs ds : List Char}

theorem append (h : Printable cs) (h' : Printable ds) : Printable (cs ++ ds) :=
  List.forall_mem_append.mpr ⟨h, h'⟩

theorem cons {c : Char} (hc : isPrintable c = true) (h : Printable cs) : Printable (c :: cs) :=
  List.forall_mem_cons.mpr ⟨hc, h⟩

theorem nil : Printable [] := by simp [Printable]

theorem ite {p : Prop} [Decidable p] (h : Printable cs) (h' : Printable ds) :
    Printable (if p then cs else ds) := by
  split
  · exact h
  · exact h'

end Printable

/-! ## Texts -/

theorem printable_go (indent : Nat) (broken : Bool) {cs : List Char} (h : Printable cs) :
    Printable (singleQuoted.go indent broken cs) := by
  have hspaces : Printable (if broken then spaces indent else []) :=
    .ite (isPrintable_spaces indent) .nil
  induction cs generalizing broken with
  | nil =>
    rw [singleQuoted.go]
    exact hspaces.append (.cons (by decide) .nil)
  | cons c cs ih =>
    obtain ⟨hc, hcs⟩ := List.forall_mem_cons.mp h
    rw [singleQuoted.go]
    split
    · exact .cons hc (ih true hcs (.ite (isPrintable_spaces indent) .nil))
    · have hchar : Printable (if c == '\'' then ['\'', '\''] else [c]) :=
        .ite (.cons (by decide) (.cons (by decide) .nil)) (.cons hc .nil)
      exact (hspaces.append hchar).append (ih false hcs (.ite (isPrintable_spaces indent) .nil))

theorem printable_singleQuoted (indent : Nat) {cs : List Char} (h : Printable cs) :
    Printable (singleQuoted indent cs) := .cons (by decide) (printable_go indent false h)

theorem printable_doubleQuoted (cs : List Char) : Printable (doubleQuoted cs) := by
  rw [doubleQuoted_eq]
  refine .cons (by decide) (.append (fun d hd ↦ ?_) (.cons (by decide) .nil))
  obtain ⟨c, -, hdc⟩ := List.mem_flatMap.mp hd
  exact isPrintable_doubleEscaped c d hdc

theorem printable_literalHints (cs : List Char) : Printable (literalHints cs) := by
  rw [literalHints_eq]
  refine (Printable.ite (.cons (by decide) .nil) .nil).append ?_
  cases chompingOf cs
  · exact .cons (by decide) .nil
  · exact .nil
  · exact .cons (by decide) .nil

theorem printable_literalLines (indent : Nat) (lineStart : Bool) {cs : List Char}
    (h : Printable cs) : Printable (literalLines indent lineStart cs) := by
  induction cs generalizing lineStart with
  | nil => exact .nil
  | cons c cs ih =>
    obtain ⟨hc, hcs⟩ := List.forall_mem_cons.mp h
    rw [literalLines]
    split
    · exact .cons hc (ih true hcs)
    · exact (Printable.ite (isPrintable_spaces indent) .nil).append (.cons hc (ih false hcs))

theorem printable_writeText (indent : Nat) (cs : List Char) : Printable (writeText indent cs) := by
  have hfeed : Printable ['\n'] := .cons (by decide) .nil
  rcases styleOf_cases cs with ⟨hstyle, hother, hallowed⟩ | ⟨hstyle, hsingle⟩ | hstyle |
    ⟨hstyle, -, hprintable⟩
  · rw [writeText, hstyle]
    exact Printable.append (standsPlain hother hallowed).isPlain.printable hfeed
  · rw [writeText, hstyle]
    exact (printable_singleQuoted (indent + 2) hsingle.printable).append hfeed
  · rw [writeText, hstyle]
    exact (printable_doubleQuoted cs).append hfeed
  · rw [writeText, hstyle]
    exact .append (.append (.cons (by decide) (printable_literalHints cs))
      (.cons (by decide) (printable_literalLines (indent + 2) true hprintable))) (.ite .nil hfeed)

theorem printable_writeKey (cs : List Char) : Printable (writeKey cs) := by
  rcases styleOf_cases cs with ⟨hstyle, hother, hallowed⟩ | ⟨hstyle, hsingle⟩ | hstyle | ⟨hstyle, -⟩
  · rw [writeKey, hstyle]
    exact (standsPlain hother hallowed).isPlain.printable
  · rw [writeKey, hstyle]
    exact printable_singleQuoted 0 hsingle.printable
  all_goals
    rw [writeKey, hstyle]
    exact printable_doubleQuoted cs

theorem printable_writeName (indent : Nat) (name : List Char) :
    Printable (writeName indent name) := by
  rw [writeName]
  refine .ite ((printable_writeKey name).append (.cons (by decide) .nil)) ?_
  refine .cons (by decide) (.cons (by decide) (.append (.append (printable_writeText indent name)
    (isPrintable_spaces indent)) ?_))
  exact .cons (by decide) (.cons (by decide) .nil)

/-! ## Trees -/

theorem printable_toString {n : Int} (h : 0 ≤ n) : Printable (toString n).toList := by
  obtain ⟨m, rfl⟩ := Int.eq_ofNat_of_zero_le h
  rw [Text.toList_toString_natCast]
  exact fun c hc ↦ (isVisible_of_isDigit (Text.isDigit_of_mem_toDigits hc)).isPrintable

theorem printable_writeItems {items : List Tree} {indent : Nat}
    (h : ∀ t ∈ items, Printable (writeNode false indent t)) :
    Printable (writeItems indent items) := by
  induction items with
  | nil => exact .nil
  | cons item rest ih =>
    obtain ⟨hitem, hrest⟩ := List.forall_mem_cons.mp h
    have hfirst : Printable ('-' :: ' ' :: writeNode false indent item) :=
      .cons (by decide) (.cons (by decide) hitem)
    cases rest with
    | nil => exact hfirst
    | cons next rest =>
      rw [writeItems_cons]
      exact (hfirst.append (isPrintable_spaces indent)).append (ih hrest)

theorem printable_writeFields {fields : List (String × Tree)} {indent : Nat}
    (h : ∀ f ∈ fields, ∀ afterKey, Printable (writeNode afterKey indent f.2)) :
    Printable (writeFields indent fields) := by
  induction fields with
  | nil => exact .nil
  | cons field rest ih =>
    obtain ⟨name, value⟩ := field
    obtain ⟨hvalue, hrest⟩ := List.forall_mem_cons.mp h
    have hfirst := (printable_writeName indent name.toList).append
      (hvalue (isSimpleKey name.toList))
    cases rest with
    | nil => exact hfirst
    | cons next rest =>
      rw [writeFields_cons]
      exact (hfirst.append (isPrintable_spaces indent)).append (ih hrest)

section Nodes

variable (afterKey : Bool) (indent : Nat)

/-- What stands between a colon and the node. -/
theorem printable_between {cs : List Char} (h : Printable cs) :
    Printable ((if afterKey then [' '] else []) ++ cs) :=
  (Printable.ite (.cons (by decide) .nil) .nil).append h

theorem printable_newline (k : Nat) {cs : List Char} (h : Printable cs) :
    Printable ('\n' :: spaces k ++ cs) :=
  (Printable.cons (by decide) (isPrintable_spaces k)).append h

theorem printable_text (s : String) : Printable (writeNode afterKey indent (.text s)) := by
  simp only [writeNode, writeLeaf]
  exact printable_between afterKey (printable_writeText indent s.toList)

theorem printable_int {n : Int} (h : 0 ≤ n) : Printable (writeNode afterKey indent (.int n)) := by
  simp only [writeNode, writeLeaf]
  exact printable_between afterKey ((printable_toString h).append (.cons (by decide) .nil))

theorem printable_list {items : List Tree}
    (h : ∀ t ∈ items, ∀ indent, Printable (writeNode false indent t)) :
    Printable (writeNode afterKey indent (.list items)) := by
  rw [writeNode]
  refine .ite ?_ (.ite ?_ ?_)
  · have hbrackets : Printable ['[', ']', '\n'] := List.all_eq_true.mp (by decide)
    exact printable_between afterKey hbrackets
  · exact printable_newline indent (printable_writeItems fun t ht ↦ h t ht indent)
  · exact printable_writeItems fun t ht ↦ h t ht (indent + 2)

theorem printable_record {fields : List (String × Tree)}
    (h : ∀ f ∈ fields, ∀ afterKey indent, Printable (writeNode afterKey indent f.2)) :
    Printable (writeNode afterKey indent (.record fields)) := by
  have hfields : Printable (writeFields (indent + 2) fields) :=
    printable_writeFields fun f hf afterKey ↦ h f hf afterKey (indent + 2)
  rw [writeNode]
  refine .ite ?_ ?_
  · have hbrackets : Printable ['\x7b', '\x7d', '\n'] := List.all_eq_true.mp (by decide)
    exact printable_between afterKey hbrackets
  · cases afterKey with
    | false => exact hfields
    | true => exact printable_newline (indent + 2) hfields

end Nodes

theorem printable_writeNode {depth : Nat} {t : Tree} (h : t.Plain depth) (afterKey : Bool)
    (indent : Nat) : Printable (writeNode afterKey indent t) := by
  induction h using Tree.Plain.induction generalizing afterKey indent with
  | text depth s => exact printable_text afterKey indent s
  | int depth n hn => exact printable_int afterKey indent hn.1
  | list depth items _ ih => exact printable_list afterKey indent fun t ht ↦ ih t ht false
  | record depth fields _ _ ih => exact printable_record afterKey indent ih

end Reachability.Yaml
