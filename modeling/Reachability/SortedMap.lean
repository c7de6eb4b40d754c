/-!
# Maps with sorted keys

A finite map is its list of entries, with keys strictly increasing. Every observation of a map in
this library (iteration, rendering, equality) is an observation of that list, so the representation
is canonical: two maps with the same bindings are the same list, and structural equality is equality
of maps. Look-up and insertion walk the list; the maps of a cluster model are small.

## Main definitions

* `SortedMap κ ν`: entries in strictly increasing key order.
* `SortedMap.insert`: binds a key, over an earlier binding; `SortedMap.insertNew` keeps the earlier
  one.
* `SortedSet α`: a map to `Unit`, with its members listed in increasing order.
-/

namespace Reachability

variable {κ ν : Type} [Ord κ]

/-! ## Entries -/

/-- The entries with `k` bound to `v`, in place of an entry with the same key. -/
def insertEntry (k : κ) (v : ν) : List (κ × ν) → List (κ × ν)
  | [] => [(k, v)]
  | e :: rest =>
    match compare k e.1 with
    | .lt => (k, v) :: e :: rest
    | .eq => (k, v) :: rest
    | .gt => e :: insertEntry k v rest

/-- The value of the first entry with key `k`. -/
def lookupEntry (k : κ) : List (κ × ν) → Option ν
  | [] => none
  | e :: rest => if compare k e.1 = .eq then some e.2 else lookupEntry k rest

/-- The keys of the entries strictly increase. -/
def SortedEntries (entries : List (κ × ν)) : Prop :=
  entries.Pairwise fun a b ↦ compare a.1 b.1 = .lt

theorem mem_insertEntry {k : κ} {v : ν} {e : κ × ν} {entries : List (κ × ν)}
    (h : e ∈ insertEntry k v entries) : e = (k, v) ∨ e ∈ entries := by
  induction entries with
  | nil => simpa [insertEntry] using h
  | cons d rest ih =>
    rw [insertEntry] at h
    split at h
    · simpa using h
    · rcases List.mem_cons.mp h with h | h
      · exact .inl h
      · exact .inr (List.mem_cons_of_mem _ h)
    · rcases List.mem_cons.mp h with h | h
      · exact .inr (h ▸ List.mem_cons_self)
      · exact (ih h).imp_right (List.mem_cons_of_mem _)

theorem SortedEntries.insertEntry [Std.TransOrd κ] {entries : List (κ × ν)}
    (h : SortedEntries entries) (k : κ) (v : ν) :
    SortedEntries (insertEntry k v entries) := by
  induction entries with
  | nil => simp [Reachability.insertEntry, SortedEntries]
  | cons d rest ih =>
    obtain ⟨hd, hrest⟩ := List.pairwise_cons.mp h
    rw [Reachability.insertEntry]
    split
    case h_1 hlt =>
      refine List.pairwise_cons.mpr ⟨fun e he ↦ ?_, h⟩
      rcases List.mem_cons.mp he with rfl | he
      · exact hlt
      · exact Std.TransCmp.lt_trans hlt (hd e he)
    case h_2 heq =>
      exact List.pairwise_cons.mpr ⟨fun e he ↦ Std.TransCmp.lt_of_eq_of_lt heq (hd e he), hrest⟩
    case h_3 hgt =>
      refine List.pairwise_cons.mpr ⟨fun e he ↦ ?_, ih hrest⟩
      rcases mem_insertEntry he with rfl | he
      · exact Std.OrientedCmp.lt_of_gt hgt
      · exact hd e he

/-! ## Maps -/

/-- A finite map, as its entries in strictly increasing key order. -/
structure SortedMap (κ ν : Type) [Ord κ] where
  /-- The bindings, in key order. -/
  toList : List (κ × ν)
  /-- No key occurs twice, and the order is the order of keys. -/
  sorted : SortedEntries toList
deriving DecidableEq

namespace SortedMap

/-- The map without bindings. -/
def empty : SortedMap κ ν := ⟨[], .nil⟩

instance : EmptyCollection (SortedMap κ ν) := ⟨empty⟩

instance : Inhabited (SortedMap κ ν) := ⟨empty⟩

/-- The value bound to `k`. -/
def get? (m : SortedMap κ ν) (k : κ) : Option ν := lookupEntry k m.toList

/-- Whether `k` is bound. -/
def contains (m : SortedMap κ ν) (k : κ) : Bool := (m.get? k).isSome

/-- The keys, in order. -/
def keys (m : SortedMap κ ν) : List κ := m.toList.map (·.1)

/-- The values, in the order of their keys. -/
def values (m : SortedMap κ ν) : List ν := m.toList.map (·.2)

/-- The number of bindings. -/
def size (m : SortedMap κ ν) : Nat := m.toList.length

/-- Whether nothing is bound. -/
def isEmpty (m : SortedMap κ ν) : Bool := m.toList.isEmpty

variable [Std.TransOrd κ]

/-- Binds `k` to `v`, over an earlier binding of `k`. -/
def insert (m : SortedMap κ ν) (k : κ) (v : ν) : SortedMap κ ν :=
  ⟨insertEntry k v m.toList, m.sorted.insertEntry k v⟩

/-- Binds `k` to `v` unless `k` is bound already. -/
def insertNew (m : SortedMap κ ν) (k : κ) (v : ν) : SortedMap κ ν :=
  if m.contains k then m else m.insert k v

/-- The bindings of a list, of which later ones replace earlier ones. -/
def ofList (entries : List (κ × ν)) : SortedMap κ ν :=
  entries.foldl (fun m e ↦ m.insert e.1 e.2) empty

end SortedMap

/-! ## Sets -/

/-- A finite set, as a map that binds its members to nothing of interest. -/
abbrev SortedSet (α : Type) [Ord α] := SortedMap α Unit

namespace SortedSet

variable {α : Type} [Ord α]

/-- The members, in increasing order. -/
def members (s : SortedSet α) : List α := s.keys

/-- The set of the elements of a list. -/
def ofList [Std.TransOrd α] (elements : List α) : SortedSet α :=
  SortedMap.ofList (elements.map fun a ↦ (a, ()))

end SortedSet

/-! ## Orders on pairs of fields -/

/-- Comparing two fields one after the other tells values apart if the fields determine them. -/
theorem lawfulEqCmp_compareLex {α β γ : Type} [Ord β] [Ord γ] [Std.LawfulEqOrd β]
    [Std.LawfulEqOrd γ] {f : α → β} {g : α → γ} (inj : ∀ a b, f a = f b → g a = g b → a = b) :
    Std.LawfulEqCmp (compareLex (compareOn f) (compareOn g)) where
  compare_self := by intro a; simp [compareLex, compareOn]
  eq_of_compare := by
    intro a b h
    obtain ⟨hf, hg⟩ := compareLex_eq_eq.mp h
    exact inj a b (Std.LawfulEqCmp.eq_of_compare hf) (Std.LawfulEqCmp.eq_of_compare hg)

end Reachability
