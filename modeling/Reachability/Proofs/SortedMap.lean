import Mathlib.Data.List.Induction
import Reachability.SortedMap

/-!
# Look-up in sorted maps

What each operation does to `get?`. Later modules see a map only through `get?` and through its
sorted list of entries; `mem_toList_iff` is the bridge between the two views, and because the list
is sorted the first view determines the map (`ext_get?`).

Insertion needs no well-formedness for its effect on look-up, only a lawful order, so the induction
runs over plain lists of entries.
-/

namespace Reachability

variable {κ ν : Type} [Ord κ]

/-! ## Entries -/

section Entries

variable [Std.LawfulEqOrd κ]

theorem lookupEntry_insertEntry_self (k : κ) (v : ν) (entries : List (κ × ν)) :
    lookupEntry k (insertEntry k v entries) = some v := by
  induction entries with
  | nil => simp [insertEntry, lookupEntry]
  | cons e rest ih =>
    rw [insertEntry]
    split
    case h_1 => simp [lookupEntry]
    case h_2 => simp [lookupEntry]
    case h_3 hgt => rw [lookupEntry, if_neg (by simp [hgt]), ih]

theorem lookupEntry_insertEntry_of_ne {k k' : κ} (h : k' ≠ k) (v : ν) (entries : List (κ × ν)) :
    lookupEntry k' (insertEntry k v entries) = lookupEntry k' entries := by
  have hk : compare k' k ≠ .eq := fun heq ↦ h (Std.LawfulEqOrd.eq_of_compare heq)
  induction entries with
  | nil => simp [insertEntry, lookupEntry, hk]
  | cons e rest ih =>
    rw [insertEntry]
    split
    case h_1 => rw [lookupEntry, if_neg hk]
    case h_2 heq =>
      have he : k = e.1 := Std.LawfulEqOrd.eq_of_compare heq
      rw [lookupEntry, if_neg hk, lookupEntry, if_neg (he ▸ hk)]
    case h_3 => rw [lookupEntry, lookupEntry, ih]

theorem mem_iff_lookupEntry {entries : List (κ × ν)} (h : SortedEntries entries) {k : κ} {v : ν} :
    (k, v) ∈ entries ↔ lookupEntry k entries = some v := by
  induction entries with
  | nil => simp [lookupEntry]
  | cons e rest ih =>
    obtain ⟨he, hrest⟩ := List.pairwise_cons.mp h
    rw [lookupEntry, List.mem_cons]
    by_cases hk : compare k e.1 = .eq
    · have hke : k = e.1 := Std.LawfulEqOrd.eq_of_compare hk
      have hnot : (k, v) ∉ rest := fun hmem ↦ by
        have hlt : compare e.1 k = .lt := he _ hmem
        simp [hke] at hlt
      rw [if_pos hk, Option.some.injEq, or_iff_left hnot, Prod.ext_iff]
      exact ⟨fun hv ↦ hv.2.symm, fun hv ↦ ⟨hke, hv.symm⟩⟩
    · have hne : (k, v) ≠ e := fun heq ↦ hk (by simp [← heq])
      rw [if_neg hk, or_iff_right hne, ih hrest]

/-- The keys of sorted entries are distinct, and so are the entries. -/
theorem SortedEntries.nodup {entries : List (κ × ν)} (h : SortedEntries entries) :
    entries.Nodup := by
  refine List.Pairwise.imp (fun {a b} hlt hab ↦ ?_) h
  simp [hab] at hlt

end Entries

namespace SortedMap

/-! ## The list of entries -/

theorem sorted_keys (m : SortedMap κ ν) : m.keys.Pairwise fun k l ↦ compare k l = .lt :=
  List.pairwise_map.mpr m.sorted

section Entries

variable [Std.LawfulEqOrd κ]

theorem mem_toList_iff {m : SortedMap κ ν} {k : κ} {v : ν} :
    (k, v) ∈ m.toList ↔ m.get? k = some v := mem_iff_lookupEntry m.sorted

theorem mem_keys_iff {m : SortedMap κ ν} {k : κ} : k ∈ m.keys ↔ (m.get? k).isSome := by
  rw [keys, List.mem_map, Option.isSome_iff_exists]
  constructor
  · rintro ⟨⟨k', v⟩, hmem, rfl⟩
    exact ⟨v, mem_toList_iff.mp hmem⟩
  · rintro ⟨v, hv⟩
    exact ⟨(k, v), mem_toList_iff.mpr hv, rfl⟩

theorem mem_values_iff {m : SortedMap κ ν} {v : ν} : v ∈ m.values ↔ ∃ k, m.get? k = some v := by
  rw [values, List.mem_map]
  constructor
  · rintro ⟨⟨k, w⟩, hmem, rfl⟩
    exact ⟨k, mem_toList_iff.mp hmem⟩
  · rintro ⟨k, hk⟩
    exact ⟨(k, v), mem_toList_iff.mpr hk, rfl⟩

theorem nodup_keys (m : SortedMap κ ν) : m.keys.Nodup := by
  refine m.sorted_keys.imp fun {k l} hlt heq ↦ ?_
  simp [heq] at hlt

end Entries

@[simp] theorem get?_empty (k : κ) : (∅ : SortedMap κ ν).get? k = none := rfl

/-! ## Changing values -/

/-- The map with every value changed and every key kept. -/
def mapValues {ν' : Type} (g : ν → ν') (m : SortedMap κ ν) : SortedMap κ ν' where
  toList := m.toList.map fun e ↦ (e.1, g e.2)
  sorted := by
    rw [SortedEntries, List.pairwise_map]
    exact m.sorted

theorem get?_mapValues {ν' : Type} (g : ν → ν') (m : SortedMap κ ν) (k : κ) :
    (m.mapValues g).get? k = (m.get? k).map g := by
  have hentries : ∀ entries : List (κ × ν),
      lookupEntry k (entries.map fun e ↦ (e.1, g e.2)) = (lookupEntry k entries).map g := by
    intro entries
    induction entries with
    | nil => rfl
    | cons e entries ih =>
      rw [List.map_cons, lookupEntry, lookupEntry, ih]
      split <;> rfl
  exact hentries m.toList

theorem values_mapValues {ν' : Type} (g : ν → ν') (m : SortedMap κ ν) :
    (m.mapValues g).values = m.values.map g := by
  rw [values, values, mapValues, List.map_map, List.map_map]
  rfl

@[simp] theorem mapValues_id (m : SortedMap κ ν) : m.mapValues (fun v ↦ v) = m := by
  cases m
  simp [mapValues]

theorem mapValues_congr {ν' : Type} [Std.LawfulEqOrd κ] {g g' : ν → ν'} {m : SortedMap κ ν}
    (h : ∀ k v, m.get? k = some v → g v = g' v) : m.mapValues g = m.mapValues g' := by
  have hentries : m.toList.map (fun e ↦ (e.1, g e.2)) = m.toList.map fun e ↦ (e.1, g' e.2) :=
    List.map_congr_left fun e he ↦ by rw [h e.1 e.2 (mem_toList_iff.mp he)]
  simp only [mapValues, hentries]

/-! ## Operations -/

variable [Std.TransOrd κ]

@[simp] theorem ofList_nil : ofList ([] : List (κ × ν)) = ∅ := rfl

theorem ofList_concat (entries : List (κ × ν)) (e : κ × ν) :
    ofList (entries ++ [e]) = (ofList entries).insert e.1 e.2 := by
  rw [ofList, List.foldl_append, List.foldl_cons, List.foldl_nil, ← ofList]

variable [Std.LawfulEqOrd κ]

@[simp] theorem get?_insert_self (m : SortedMap κ ν) (k : κ) (v : ν) :
    (m.insert k v).get? k = some v := lookupEntry_insertEntry_self k v m.toList

theorem get?_insert_of_ne (m : SortedMap κ ν) {k k' : κ} (h : k' ≠ k) (v : ν) :
    (m.insert k v).get? k' = m.get? k' := lookupEntry_insertEntry_of_ne h v m.toList

/-- What holds of every binding of a map still holds after one more binding of which it holds. -/
theorem forall_get?_insert {P : κ → ν → Prop} {m : SortedMap κ ν}
    (h : ∀ k v, m.get? k = some v → P k v) {key : κ} {value : ν} (hvalue : P key value) :
    ∀ k v, (m.insert key value).get? k = some v → P k v := by
  intro k v hv
  by_cases hk : k = key
  · rw [hk, get?_insert_self, Option.some.injEq] at hv
    exact hk ▸ hv ▸ hvalue
  · rw [get?_insert_of_ne _ hk] at hv
    exact h k v hv

theorem get?_insertNew_of_ne (m : SortedMap κ ν) {k k' : κ} (h : k' ≠ k) (v : ν) :
    (m.insertNew k v).get? k' = m.get? k' := by
  rw [insertNew]
  split
  · rfl
  · exact get?_insert_of_ne m h v

theorem get?_insertNew_self (m : SortedMap κ ν) (k : κ) (v : ν) :
    (m.insertNew k v).get? k = some ((m.get? k).getD v) := by
  rw [insertNew, contains]
  cases hk : m.get? k with
  | none => simp
  | some w => simp [hk]

/-- Two maps with the same bindings are equal. -/
theorem ext_get? {m m' : SortedMap κ ν} (h : ∀ k, m.get? k = m'.get? k) : m = m' := by
  have hmem : ∀ e, e ∈ m.toList ↔ e ∈ m'.toList := fun e ↦ by
    rw [mem_toList_iff, mem_toList_iff, h]
  have hperm : m.toList.Perm m'.toList :=
    (List.perm_ext_iff_of_nodup m.sorted.nodup m'.sorted.nodup).mpr hmem
  have hlist : m.toList = m'.toList := by
    refine hperm.eq_of_pairwise (fun a b _ _ hab hba ↦ ?_) m.sorted m'.sorted
    exact absurd hba (Std.OrientedCmp.not_lt_of_lt hab)
  cases m
  cases m'
  cases hlist
  rfl

/-- Where only one value of a map is changed in another way, that one may be written alone. -/
theorem insert_mapValues {ν' : Type} (g g' : ν → ν') {m : SortedMap κ ν} {k : κ} {v : ν}
    (hk : m.get? k = some v) (others : ∀ l w, m.get? l = some w → l ≠ k → g w = g' w) :
    (m.mapValues g).insert k (g' v) = m.mapValues g' := by
  refine ext_get? fun l ↦ ?_
  by_cases hl : l = k
  · rw [hl, get?_insert_self, get?_mapValues, hk, Option.map_some]
  · rw [get?_insert_of_ne _ hl, get?_mapValues, get?_mapValues]
    cases hw : m.get? l with
    | none => rfl
    | some w => rw [Option.map_some, Option.map_some, others l w hw hl]

/-! ## Maps of lists

A list of bindings is read from its end: the last binding of a key counts. -/

theorem mem_of_get?_ofList {entries : List (κ × ν)} {k : κ} {v : ν}
    (h : (ofList entries).get? k = some v) : (k, v) ∈ entries := by
  induction entries using List.reverseRecOn with
  | nil => simp at h
  | append_singleton entries e ih =>
    rw [ofList_concat] at h
    by_cases hk : k = e.1
    · rw [hk, get?_insert_self, Option.some.injEq] at h
      simp [hk, ← h]
    · rw [get?_insert_of_ne _ hk] at h
      exact List.mem_append_left _ (ih h)

theorem isSome_get?_ofList {entries : List (κ × ν)} {k : κ} :
    ((ofList entries).get? k).isSome ↔ k ∈ entries.map Prod.fst := by
  induction entries using List.reverseRecOn with
  | nil => simp
  | append_singleton entries e ih =>
    rw [ofList_concat, List.map_append, List.mem_append]
    by_cases hk : k = e.1
    · simp [hk]
    · rw [get?_insert_of_ne _ hk, ih]
      simp [hk]

/-- Where a key has one value only, its position in the list does not matter. -/
theorem get?_ofList_of_mem {entries : List (κ × ν)} {k : κ} {v : ν} (hmem : (k, v) ∈ entries)
    (unique : ∀ w, (k, w) ∈ entries → w = v) : (ofList entries).get? k = some v := by
  have hsome : ((ofList entries).get? k).isSome :=
    isSome_get?_ofList.mpr (List.mem_map.mpr ⟨(k, v), hmem, rfl⟩)
  obtain ⟨w, hw⟩ := Option.isSome_iff_exists.mp hsome
  rw [hw, unique w (mem_of_get?_ofList hw)]

/-- The last binding of a key counts. -/
theorem get?_ofList_last {before after : List (κ × ν)} {k : κ} {v : ν}
    (last : ∀ e ∈ after, e.1 ≠ k) : (ofList (before ++ (k, v) :: after)).get? k = some v := by
  induction after using List.reverseRecOn with
  | nil => rw [ofList_concat, get?_insert_self]
  | append_singleton after e ih =>
    rw [← List.cons_append, ← List.append_assoc, ofList_concat,
      get?_insert_of_ne _ (last e (by simp)).symm]
    exact ih fun e he ↦ last e (by simp [he])

/-- The entries of a map are bindings for it, in any order. -/
theorem ofList_perm {m : SortedMap κ ν} {entries : List (κ × ν)} (h : entries.Perm m.toList) :
    ofList entries = m := by
  refine ext_get? fun k ↦ ?_
  cases hk : m.get? k with
  | none =>
    rw [← Option.not_isSome_iff_eq_none, isSome_get?_ofList, (h.map Prod.fst).mem_iff, ← keys,
      mem_keys_iff, hk]
    simp
  | some v =>
    refine get?_ofList_of_mem (h.mem_iff.mpr (mem_toList_iff.mpr hk)) fun w hw ↦ ?_
    rw [h.mem_iff, mem_toList_iff, hk] at hw
    exact (Option.some.inj hw).symm

@[simp] theorem ofList_toList (m : SortedMap κ ν) : ofList m.toList = m := ofList_perm (.refl _)

/-- A map with its values changed. -/
theorem get?_ofList_map {ν' : Type} (m : SortedMap κ ν) (g : κ → ν → ν') (k : κ) :
    (ofList (m.toList.map fun e ↦ (e.1, g e.1 e.2))).get? k = (m.get? k).map (g k) := by
  have hkeys : (m.toList.map fun e ↦ (e.1, g e.1 e.2)).map Prod.fst = m.keys := by
    rw [List.map_map]
    rfl
  cases hk : m.get? k with
  | none =>
    rw [Option.map_none, ← Option.not_isSome_iff_eq_none, isSome_get?_ofList, hkeys, mem_keys_iff,
      hk]
    simp
  | some v =>
    refine get?_ofList_of_mem (List.mem_map.mpr ⟨(k, v), mem_toList_iff.mpr hk, rfl⟩) ?_
    intro w hw
    obtain ⟨e, he, heq⟩ := List.mem_map.mp hw
    obtain ⟨rfl, rfl⟩ := Prod.mk.inj heq
    have hv : m.get? e.1 = some e.2 := mem_toList_iff.mp he
    rw [hk] at hv
    rw [Option.some.inj hv]

/-- Bindings that are added where there is none yet: the first one for a key counts. -/
theorem get?_foldl_insertNew {ν' : Type} (g : ν' → ν) (entries : List (κ × ν'))
    (m : SortedMap κ ν) (k : κ) :
    (entries.foldl (fun m e ↦ m.insertNew e.1 (g e.2)) m).get? k =
      (m.get? k).or ((lookupEntry k entries).map g) := by
  induction entries generalizing m with
  | nil => simp [lookupEntry]
  | cons e entries ih =>
    rw [List.foldl_cons, ih, lookupEntry]
    by_cases hk : k = e.1
    · subst hk
      rw [get?_insertNew_self, if_pos (Std.ReflOrd.compare_self)]
      cases m.get? e.1 <;> rfl
    · have hne : compare k e.1 ≠ .eq := fun heq ↦ hk (Std.LawfulEqOrd.eq_of_compare heq)
      rw [get?_insertNew_of_ne _ hk, if_neg hne]

end SortedMap

/-! ## Sets -/

namespace SortedSet

variable {α : Type} [Ord α]

theorem isEmpty_iff {s : SortedSet α} : s.isEmpty ↔ s.members = [] := by
  rw [SortedMap.isEmpty, List.isEmpty_iff, members, SortedMap.keys, List.map_eq_nil_iff]

/-- A set is the set of its members. -/
@[simp] theorem ofList_members [Std.TransOrd α] [Std.LawfulEqOrd α] (s : SortedSet α) :
    ofList s.members = s := by
  have hunits : s.members.map (fun a ↦ (a, ())) = s.toList := by
    rw [members, SortedMap.keys, List.map_map]
    exact List.map_id _
  rw [ofList, hunits, SortedMap.ofList_toList]

end SortedSet

end Reachability
