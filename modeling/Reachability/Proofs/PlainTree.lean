import Reachability.Proofs.Layout

/-!
# Trees of plain data

What the text formats have to carry for policies: texts, small numbers, and collections of these. A
record of plain data has no name twice, because one format refuses a repeated name, and collections
are nested to a limited depth, because both formats have a limit.

The predicate is indexed by the depth, so that an induction on the depth goes through the
collections of a tree without one on the tree itself.
-/

namespace Reachability.Tree

/-- The tree consists of texts, small numbers, lists, and records without repeated names, with at
most so many collections inside one another. -/
def Plain : Nat → Tree → Prop
  | _, text _ => True
  | _, int n => IsSmall n
  | depth + 1, list items => ∀ t ∈ items, Plain depth t
  | depth + 1, record fields => (fields.map Prod.fst).Nodup ∧ ∀ f ∈ fields, Plain depth f.2
  | _, _ => False

/-- The ways in which a tree can be plain. -/
theorem Plain.cases {depth : Nat} {t : Tree} (h : Plain depth t) :
    (∃ s, t = text s) ∨ (∃ n, t = int n ∧ IsSmall n) ∨
      (∃ d items, depth = d + 1 ∧ t = list items ∧ ∀ item ∈ items, Plain d item) ∨
      ∃ d fields, depth = d + 1 ∧ t = record fields ∧ (fields.map Prod.fst).Nodup ∧
        ∀ f ∈ fields, Plain d f.2 := by
  cases t with
  | text s => exact Or.inl ⟨s, rfl⟩
  | int n =>
    refine Or.inr (Or.inl ⟨n, rfl, ?_⟩)
    cases depth <;> exact h
  | list items =>
    cases depth with
    | zero => exact h.elim
    | succ d => exact Or.inr (Or.inr (Or.inl ⟨d, items, rfl, rfl, h⟩))
  | record fields =>
    cases depth with
    | zero => exact h.elim
    | succ d => exact Or.inr (Or.inr (Or.inr ⟨d, fields, rfl, rfl, h⟩))
  | _ => cases depth <;> exact h.elim

variable {depth : Nat}

theorem plain_text (s : String) : Plain depth (text s) := by
  cases depth <;> trivial

theorem plain_int {n : Int} (h : IsSmall n) : Plain depth (int n) := by
  cases depth <;> exact h

/-- What holds of texts and small numbers, and of a collection if it holds of the nodes inside it,
holds of all plain data. -/
@[elab_as_elim]
theorem Plain.induction {motive : (depth : Nat) → (t : Tree) → Plain depth t → Prop}
    (text : ∀ depth s, motive depth (.text s) (plain_text s))
    (int : ∀ depth n (h : IsSmall n), motive depth (.int n) (plain_int h))
    (list : ∀ depth items (h : ∀ t ∈ items, Plain depth t),
      (∀ t (ht : t ∈ items), motive depth t (h t ht)) → motive (depth + 1) (.list items) h)
    (record : ∀ depth fields (hnames : (fields.map Prod.fst).Nodup)
      (h : ∀ f ∈ fields, Plain depth f.2),
      (∀ f (hf : f ∈ fields), motive depth f.2 (h f hf)) →
      motive (depth + 1) (.record fields) ⟨hnames, h⟩)
    {depth : Nat} {t : Tree} (h : Plain depth t) : motive depth t h := by
  induction depth generalizing t with
  | zero =>
    rcases h.cases with ⟨s, rfl⟩ | ⟨n, rfl, hn⟩ | ⟨d, items, hd, -⟩ | ⟨d, fields, hd, -⟩
    · exact text 0 s
    · exact int 0 n hn
    · exact absurd hd (by simp)
    · exact absurd hd (by simp)
  | succ depth ih =>
    rcases h.cases with ⟨s, rfl⟩ | ⟨n, rfl, hn⟩ | ⟨d, items, hd, rfl, hitems⟩ |
      ⟨d, fields, hd, rfl, hnames, hvalues⟩
    · exact text (depth + 1) s
    · exact int (depth + 1) n hn
    · obtain rfl := Nat.succ.inj hd
      exact list depth items hitems fun t ht ↦ ih (hitems t ht)
    · obtain rfl := Nat.succ.inj hd
      exact record depth fields hnames hvalues fun f hf ↦ ih (hvalues f hf)

theorem Plain.mono {t : Tree} (h : Plain depth t) {depth' : Nat} (hle : depth ≤ depth') :
    Plain depth' t := by
  induction h using Plain.induction generalizing depth' with
  | text depth s => exact plain_text s
  | int depth n hn => exact plain_int hn
  | list depth items _ ih =>
    obtain ⟨depth', rfl⟩ : ∃ d, depth' = d + 1 := ⟨depth' - 1, by omega⟩
    exact fun t ht ↦ ih t ht (by omega)
  | record depth fields hnames _ ih =>
    obtain ⟨depth', rfl⟩ : ∃ d, depth' = d + 1 := ⟨depth' - 1, by omega⟩
    exact ⟨hnames, fun f hf ↦ ih f hf (by omega)⟩

/-! ## Building plain data -/

theorem plain_list {α : Type} {write : α → Tree} {l : List α}
    (h : ∀ a ∈ l, Plain depth (write a)) : Plain (depth + 1) (list (l.map write)) := by
  intro t ht
  obtain ⟨a, ha, rfl⟩ := List.mem_map.mp ht
  exact h a ha

theorem plain_texts (l : List String) : Plain (depth + 1) (Encode.texts l) :=
  plain_list fun s _ ↦ plain_text s

theorem plain_labels (m : Labels) : Plain (depth + 1) (Encode.labels m) := by
  refine ⟨?_, fun f hf ↦ ?_⟩
  · rw [List.map_map]
    refine List.pairwise_map.mpr (m.sorted.imp fun {a b} hlt heq ↦ ?_)
    have hkeys : a.1 = b.1 := heq
    simp [hkeys] at hlt
  · obtain ⟨e, -, rfl⟩ := List.mem_map.mp hf
    exact plain_text e.2

/-- A value of an optional field. -/
theorem plain_map {α : Type} {write : α → Tree} {a : Option α}
    (h : ∀ b ∈ a, Plain depth (write b)) : ∀ t ∈ a.map write, Plain depth t := by
  intro t ht
  obtain ⟨b, hb, rfl⟩ := Option.map_eq_some_iff.mp ht
  exact h b hb

theorem plain_recordOf {fs : List (String × Option Tree)} (hnames : (fs.map Prod.fst).Nodup)
    (h : ∀ f ∈ fs, ∀ t ∈ f.2, Plain depth t) : Plain (depth + 1) (recordOf fs) := by
  constructor
  · -- the names of the fields that are there are among all names, in the same order
    have hsublist : ((Decoder.present fs).map Prod.fst).Sublist (fs.map Prod.fst) := by
      induction fs with
      | nil => exact .slnil
      | cons f fs ih =>
        obtain ⟨name, value⟩ := f
        obtain ⟨-, hrest⟩ := List.nodup_cons.mp hnames
        have hsub := ih hrest fun f hf ↦ h f (List.mem_cons_of_mem _ hf)
        cases value with
        | none => exact hsub.cons name
        | some t => exact hsub.cons_cons name
    exact hsublist.nodup hnames
  · intro f hf
    obtain ⟨⟨name, value⟩, hmem, hvalue⟩ := List.mem_filterMap.mp hf
    obtain ⟨t, ht, rfl⟩ := Option.map_eq_some_iff.mp hvalue
    exact h _ hmem t ht

/-- A value of a field that is there. -/
theorem plain_some {t : Tree} (h : Plain depth t) : ∀ u ∈ some t, Plain depth u := by
  intro u hu
  obtain rfl := Option.some.inj hu
  exact h

/-! ## Documents -/

theorem plain_requirement (r : WireRequirement) : Plain (depth + 2) (Encode.requirement r) := by
  refine plain_recordOf (by simp) ?_
  simp only [List.forall_mem_cons, List.not_mem_nil, false_implies, implies_true, and_true]
  exact ⟨plain_some (plain_text _), plain_some (plain_text _), plain_map fun l _ ↦ plain_texts l⟩

theorem plain_selector (s : WireSelector) : Plain (depth + 4) (Encode.selector s) := by
  refine plain_recordOf (by simp) ?_
  simp only [List.forall_mem_cons, List.not_mem_nil, false_implies, implies_true, and_true]
  exact ⟨plain_map fun rs _ ↦ plain_list fun r _ ↦ plain_requirement r,
    plain_map fun m _ ↦ plain_labels m⟩

theorem plain_network (n : WireNetwork) : Plain (depth + 2) (Encode.network n) := by
  refine plain_recordOf (by simp) ?_
  simp only [List.forall_mem_cons, List.not_mem_nil, false_implies, implies_true, and_true]
  exact ⟨plain_some (plain_text _), plain_map fun l _ ↦ plain_texts l⟩

theorem plain_peer (p : WirePeer) : Plain (depth + 5) (Encode.peer p) := by
  refine plain_recordOf (by simp) ?_
  simp only [List.forall_mem_cons, List.not_mem_nil, false_implies, implies_true, and_true]
  exact ⟨plain_map fun n _ ↦ plain_network n, plain_map fun s _ ↦ plain_selector s,
    plain_map fun s _ ↦ plain_selector s⟩

theorem plain_port {p : WirePort} (h : p.Fits) : Plain (depth + 1) (Encode.port p) := by
  have hport : ∀ r ∈ p.port, Plain depth (Encode.portRef r) := by
    intro r hr
    cases r with
    | name s => exact plain_text s
    | number n => exact plain_int (h.2 n hr)
  refine plain_recordOf (by simp) ?_
  simp only [List.forall_mem_cons, List.not_mem_nil, false_implies, implies_true, and_true]
  exact ⟨plain_map fun n hn ↦ plain_int (h.1 n hn), plain_map hport,
    plain_map fun s _ ↦ plain_text s⟩

theorem plain_peers (ps : List WirePeer) : Plain (depth + 6) (list (ps.map Encode.peer)) :=
  plain_list fun p _ ↦ plain_peer p

theorem plain_ports {ps : List WirePort} (h : ∀ p ∈ ps, p.Fits) :
    Plain (depth + 2) (list (ps.map Encode.port)) := plain_list fun p hp ↦ plain_port (h p hp)

theorem plain_ingressRule {r : WireRule} (h : r.Fits) :
    Plain (depth + 7) (Encode.ingressRule r) := by
  refine plain_recordOf (by simp) ?_
  simp only [List.forall_mem_cons, List.not_mem_nil, false_implies, implies_true, and_true]
  exact ⟨plain_map fun ps _ ↦ plain_peers ps, plain_map fun ps hps ↦ plain_ports (h ps hps)⟩

theorem plain_egressRule {r : WireRule} (h : r.Fits) :
    Plain (depth + 7) (Encode.egressRule r) := by
  refine plain_recordOf (by simp) ?_
  simp only [List.forall_mem_cons, List.not_mem_nil, false_implies, implies_true, and_true]
  exact ⟨plain_map fun ps hps ↦ plain_ports (h ps hps), plain_map fun ps _ ↦ plain_peers ps⟩

theorem plain_spec {s : WireSpec} (h : s.Fits) : Plain (depth + 9) (Encode.spec s) := by
  refine plain_recordOf (by simp) ?_
  simp only [List.forall_mem_cons, List.not_mem_nil, false_implies, implies_true, and_true]
  exact ⟨plain_map fun rs hrs ↦ plain_list fun r hr ↦ plain_egressRule (h.1 rs hrs r hr),
    plain_map fun rs hrs ↦ plain_list fun r hr ↦ plain_ingressRule (h.2 rs hrs r hr),
    plain_some (plain_selector _), plain_map fun l _ ↦ plain_texts l⟩

theorem plain_metadata (name ns : String) :
    Plain (depth + 1) (Encode.metadata (.named name (some ns))) := by
  have hfields : Encode.metadata (.named name (some ns)) =
      recordOf [("name", some (.text name)), ("namespace", some (.text ns))] := rfl
  rw [hfields]
  refine plain_recordOf (by simp) ?_
  simp only [List.forall_mem_cons, List.not_mem_nil, false_implies, implies_true, and_true]
  exact ⟨plain_some (plain_text name), plain_some (plain_text ns)⟩

theorem plain_toFields {d : PolicyDocument} (h : d.Simple) :
    Plain (depth + 10) (record d.toFields) := by
  obtain ⟨⟨name, ns, hnamed⟩, hspec⟩ := h
  have hrecord : record d.toFields = recordOf [("apiVersion", some (text Decoder.policyApiVersion)),
      ("kind", some (text Decoder.policyKind)), ("metadata", some (Encode.metadata d.metadata)),
      ("spec", d.spec.map Encode.spec)] := by
    rw [PolicyDocument.toFields]
    cases d.spec <;> rfl
  rw [hrecord]
  refine plain_recordOf (by simp) ?_
  simp only [List.forall_mem_cons, List.not_mem_nil, false_implies, implies_true, and_true]
  refine ⟨plain_some (plain_text _), plain_some (plain_text _), plain_some ?_,
    plain_map fun s hs ↦ plain_spec (hspec s hs)⟩
  rw [hnamed]
  exact plain_metadata name ns

end Reachability.Tree
