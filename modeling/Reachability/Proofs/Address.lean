import Mathlib.Algebra.Group.Nat.Defs
import Reachability.Network
import Reachability.Proofs.Numeral

/-!
# Reading back addresses and networks

The text of an address denotes that address again, under either grammar, and the text of a network
that network (`Network.parse?_toString`).

Version 4 is cut at dots, and version 6 first at the gap `::` and then at colons. What makes the
cuts land where the text was put together is that no group is empty and no group holds a separator.
The gap stands for the longest run of zero groups; the reader does not know where that run was and
only counts the groups that are missing, so all that is needed of `longestZeros` is that the run is
one of zeros (`ZeroRun`).
-/

namespace Reachability

/-! ## Numbers as groups -/

theorem foldl_digitGroups (b n count a : Nat) :
    (Address.digitGroups b n count).foldl (fun n g ↦ n * b + g) a =
      a * b ^ count + n % b ^ count := by
  induction count generalizing n with
  | zero => simp [Address.digitGroups, Nat.mod_one]
  | succ count ih =>
    rw [Address.digitGroups, List.foldl_append, ih, List.foldl_cons, List.foldl_nil, Nat.add_mul,
      Nat.mul_assoc, ← Nat.pow_succ, Nat.add_assoc]
    congr 1
    -- the groups before the last one are those of the quotient
    rw [Nat.pow_succ, Nat.mul_comm (b ^ count) b, Nat.mod_mul, Nat.add_comm, Nat.mul_comm]

theorem length_digitGroups (b n count : Nat) : (Address.digitGroups b n count).length = count := by
  induction count generalizing n with
  | zero => rfl
  | succ count ih => rw [Address.digitGroups, List.length_append, ih, List.length_singleton]

theorem lt_of_mem_digitGroups {b n count g : Nat} (hb : 0 < b)
    (h : g ∈ Address.digitGroups b n count) : g < b := by
  induction count generalizing n with
  | zero => exact absurd h List.not_mem_nil
  | succ count ih =>
    rw [Address.digitGroups, List.mem_append, List.mem_singleton] at h
    rcases h with h | rfl
    · exact ih h
    · exact Nat.mod_lt n hb

/-! ## Pieces and separators -/

theorem mem_of_mem_intercalate {c s : Char} {words : List (List Char)}
    (h : c ∈ [s].intercalate words) : c = s ∨ ∃ w ∈ words, c ∈ w := by
  induction words with
  | nil => exact absurd h List.not_mem_nil
  | cons w words ih =>
    cases words with
    | nil =>
      rw [List.intercalate_singleton] at h
      exact Or.inr ⟨w, List.mem_cons_self, h⟩
    | cons v words =>
      rw [List.intercalate_cons_cons, List.mem_append, List.mem_append, List.mem_singleton] at h
      rcases h with (h | h) | h
      · exact Or.inr ⟨w, List.mem_cons_self, h⟩
      · exact Or.inl h
      · rcases ih h with h | ⟨u, hu, hc⟩
        · exact Or.inl h
        · exact Or.inr ⟨u, List.mem_cons_of_mem _ hu, hc⟩

theorem mapM_eq_some_of_forall {α β : Type} {f : α → Option β} {g : β → α} {l : List β}
    (h : ∀ x ∈ l, f (g x) = some x) : (l.map g).mapM f = some l := by
  induction l with
  | nil => rfl
  | cons a l ih =>
    obtain ⟨ha, hl⟩ := List.forall_mem_cons.mp h
    rw [List.map_cons, List.mapM_cons, ha, ih hl]
    rfl

/-! ## Version 4 -/

namespace AddressGrammar

variable (g : AddressGrammar)

theorem octet?_toDigits {n : Nat} (hn : n < 256) : g.octet? (Nat.toDigits 10 n) = some n := by
  have hlength : (Nat.toDigits 10 n).length ≤ 3 :=
    (Nat.length_toDigits_le_iff (by decide) (by decide)).mpr (by omega)
  have hpad : (Nat.toDigits 10 n).head? ≠ some '0' ∨ (Nat.toDigits 10 n).length = 1 := by
    by_cases hzero : (Nat.toDigits 10 n).head? = some '0'
    · rw [Text.eq_zero_of_head?_toDigits hzero]
      exact Or.inr rfl
    · exact Or.inl hzero
  rw [octet?, Text.decimal?_toDigits]
  exact if_pos ⟨hlength, by omega, Or.inr hpad⟩

theorem toList_showV4 (n : Nat) :
    (Address.showV4 n).toList = ['.'].intercalate ((Address.digitGroups 256 n 4).map
      (Nat.toDigits 10)) := by
  rw [Address.showV4, String.toList_intercalate, List.map_map]
  congr 1
  exact List.map_congr_left fun n _ ↦ Nat.toList_repr

theorem mem_showV4 {n : Nat} {c : Char} (h : c ∈ (Address.showV4 n).toList) :
    c = '.' ∨ c.isDigit := by
  rw [toList_showV4] at h
  rcases mem_of_mem_intercalate h with h | ⟨w, hw, hc⟩
  · exact Or.inl h
  · obtain ⟨d, -, rfl⟩ := List.mem_map.mp hw
    exact Or.inr (Nat.isDigit_of_mem_toDigits (by decide) (by decide) hc)

theorem readV4_showV4 {n : Nat} (hn : n < 2 ^ 32) :
    g.readV4 (Address.showV4 n).toList = some (BitVec.ofNat 32 n) := by
  have hdot : ∀ w ∈ (Address.digitGroups 256 n 4).map (Nat.toDigits 10), '.' ∉ w := by
    intro w hw hc
    obtain ⟨d, -, rfl⟩ := List.mem_map.mp hw
    exact absurd (Nat.isDigit_of_mem_toDigits (by decide) (by decide) hc) (by decide)
  have hne : (Address.digitGroups 256 n 4).map (Nat.toDigits 10) ≠ [] := by
    simp [Address.digitGroups]
  have hread : ((Address.digitGroups 256 n 4).map (Nat.toDigits 10)).mapM g.octet? =
      some (Address.digitGroups 256 n 4) :=
    mapM_eq_some_of_forall fun x hx ↦ g.octet?_toDigits (lt_of_mem_digitGroups (by decide) hx)
  have hvalue := foldl_digitGroups 256 n 4 0
  rw [Nat.mod_eq_of_lt (show n < 256 ^ 4 from hn)] at hvalue
  rw [readV4, toList_showV4, List.splitOn_intercalate _ hdot hne, hread]
  simp only [Address.digitGroups, List.nil_append, List.cons_append, List.foldl_cons,
    List.foldl_nil, Nat.zero_mul, Nat.zero_add] at hvalue ⊢
  exact congrArg (fun m ↦ some (BitVec.ofNat 32 m)) hvalue

/-- A text with a colon is no address of version 4. -/
theorem readV4_eq_none {cs : List Char} (h : ':' ∈ cs) : g.readV4 cs = none := by
  -- some piece keeps the colon, so it is no octet
  have hpiece : ∃ w ∈ cs.splitOn '.', ':' ∈ w := by
    have hcs : ['.'].intercalate (cs.splitOn '.') = cs := List.intercalate_splitOn '.'
    rw [← hcs] at h
    exact (mem_of_mem_intercalate h).resolve_left (by decide)
  obtain ⟨w, hw, hc⟩ := hpiece
  have hoctet : g.octet? w = none := by
    have hall : w.all Char.isDigit = false := by
      rw [Bool.eq_false_iff, ne_eq, List.all_eq_true]
      exact fun hdigits ↦ absurd (hdigits ':' hc) (by decide)
    simp [octet?, Text.decimal?, hall]
  have hmapM : ∀ l : List (List Char), w ∈ l → l.mapM g.octet? = none := by
    intro l hl
    induction l with
    | nil => exact absurd hl List.not_mem_nil
    | cons v l ih =>
      rw [List.mapM_cons]
      rcases List.mem_cons.mp hl with rfl | hl
      · rw [hoctet]
        rfl
      · rw [ih hl]
        cases g.octet? v <;> rfl
  rw [readV4, hmapM _ hw]
  rfl

end AddressGrammar

/-! ## Groups of version 6 -/

/-- The characters of groups with colons between them. -/
def colons (groups : List Nat) : List Char := [':'].intercalate (groups.map (Nat.toDigits 16))

theorem toList_showGroups (groups : List Nat) :
    (Address.showGroups groups).toList = colons groups := by
  rw [Address.showGroups, String.toList_intercalate, List.map_map, colons]
  congr 1
  exact List.map_congr_left fun n _ ↦ String.toList_ofList

@[simp] theorem colons_singleton (n : Nat) : colons [n] = Nat.toDigits 16 n :=
  List.intercalate_singleton

theorem colons_cons_cons (m n : Nat) (groups : List Nat) :
    colons (m :: n :: groups) = Nat.toDigits 16 m ++ ':' :: colons (n :: groups) := by
  simp [colons]

theorem mem_colons {groups : List Nat} {c : Char} (h : c ∈ colons groups) :
    c = ':' ∨ ∃ d < 16, c = d.digitChar := by
  rcases mem_of_mem_intercalate h with h | ⟨w, hw, hc⟩
  · exact Or.inl h
  · obtain ⟨n, -, rfl⟩ := List.mem_map.mp hw
    exact Or.inr (Text.mem_toDigits (by decide) hc)

theorem colon_not_mem_toDigits (n : Nat) : ':' ∉ Nat.toDigits 16 n :=
  Text.not_mem_toDigits (by decide) (by decide) (by decide) n

/-- Groups start with a digit. -/
theorem colons_cons_eq (n : Nat) (groups : List Nat) :
    ∃ c cs, colons (n :: groups) = c :: cs ∧ c ≠ ':' := by
  have hne : Nat.toDigits 16 n ≠ [] := Nat.toDigits_ne_nil
  obtain ⟨c, cs, hcs⟩ := List.exists_cons_of_ne_nil hne
  have hc : c ≠ ':' := by
    rintro rfl
    exact colon_not_mem_toDigits n (by simp [hcs])
  cases groups with
  | nil => exact ⟨c, cs, by rw [colons_singleton, hcs], hc⟩
  | cons m groups =>
    refine ⟨c, cs ++ ':' :: colons (m :: groups), ?_, hc⟩
    rw [colons_cons_cons, hcs, List.cons_append]

namespace AddressGrammar

theorem group?_toDigits {n : Nat} (hn : n < 65536) : group? (Nat.toDigits 16 n) = some n := by
  have hlength : (Nat.toDigits 16 n).length ≤ 4 :=
    (Nat.length_toDigits_le_iff (by decide) (by decide)).mpr hn
  rw [group?, if_pos hlength, Text.numeral?_toDigits (by decide) (by decide)]

theorem groups?_toDigits (g : AddressGrammar) (tail : Bool) {groups : List Nat}
    (h : ∀ n ∈ groups, n < 65536) :
    g.groups? tail (groups.map (Nat.toDigits 16)) = some groups := by
  induction groups with
  | nil => rfl
  | cons n groups ih =>
    obtain ⟨hn, hgroups⟩ := List.forall_mem_cons.mp h
    cases groups with
    | nil =>
      have hdot : '.' ∉ Nat.toDigits 16 n :=
        Text.not_mem_toDigits (by decide) (by decide) (by decide) n
      rw [List.map_cons, List.map_nil, groups?, if_neg (fun h ↦ hdot h.2), group?_toDigits hn]
      rfl
    | cons m groups =>
      have ih := ih hgroups
      rw [List.map_cons] at ih ⊢
      rw [List.map_cons, groups?, group?_toDigits hn, ih]
      · rfl
      · simp

theorem pieces_colons (groups : List Nat) :
    pieces (colons groups) = groups.map (Nat.toDigits 16) := by
  cases groups with
  | nil => rfl
  | cons n groups =>
    obtain ⟨c, cs, hcs, -⟩ := colons_cons_eq n groups
    rw [pieces, if_neg (by simp [hcs]), colons]
    refine List.splitOn_intercalate _ (fun w hw hc ↦ ?_) (by simp)
    obtain ⟨m, -, rfl⟩ := List.mem_map.mp hw
    exact colon_not_mem_toDigits m hc

/-! ## The gap -/

theorem splitAtGap_append_of_not_mem {w : List Char} (h : ':' ∉ w) (cs : List Char) :
    splitAtGap (w ++ cs) = (splitAtGap cs).map fun (head, tail) ↦ (w ++ head, tail) := by
  induction w with
  | nil => simp
  | cons c w ih =>
    rw [List.mem_cons, not_or] at h
    have hstep : splitAtGap (c :: (w ++ cs)) =
        (splitAtGap (w ++ cs)).map fun (head, tail) ↦ (c :: head, tail) := by
      rw [splitAtGap]
      intro rest hc _
      exact h.1 hc.symm
    rw [List.cons_append, hstep, ih h.2, Option.map_map]
    rfl

/-- The gap of a text is never inside of groups. -/
theorem splitAtGap_colons_append (groups : List Nat) (cs : List Char) :
    splitAtGap (colons groups ++ cs) =
      (splitAtGap cs).map fun (head, tail) ↦ (colons groups ++ head, tail) := by
  induction groups with
  | nil => exact splitAtGap_append_of_not_mem List.not_mem_nil cs
  | cons n groups ih =>
    cases groups with
    | nil =>
      rw [colons_singleton]
      exact splitAtGap_append_of_not_mem (colon_not_mem_toDigits n) cs
    | cons m groups =>
      obtain ⟨c, rest, hcs, hc⟩ := colons_cons_eq m groups
      have hcolon : splitAtGap (':' :: (colons (m :: groups) ++ cs)) =
          (splitAtGap (colons (m :: groups) ++ cs)).map fun (head, tail) ↦ (':' :: head, tail) := by
        rw [hcs, List.cons_append, splitAtGap]
        intro rest' _ heq
        exact hc (List.cons.inj heq).1
      rw [colons_cons_cons, List.append_assoc, List.cons_append,
        splitAtGap_append_of_not_mem (colon_not_mem_toDigits n), hcolon, ih, Option.map_map,
        Option.map_map]
      congr 1
      funext p
      simp

end AddressGrammar

/-! ## The longest run of zeros -/

/-- The list has a run of zeros, given by its start and its length. -/
def ZeroRun (groups : List Nat) (run : Nat × Nat) : Prop :=
  groups = groups.take run.1 ++ List.replicate run.2 0 ++ groups.drop (run.1 + run.2)

theorem replicate_leadingZeros (groups : List Nat) :
    groups = List.replicate (Address.leadingZeros groups) 0 ++
      groups.drop (Address.leadingZeros groups) := by
  have hzeros : groups.takeWhile (· == 0) = List.replicate (Address.leadingZeros groups) 0 := by
    refine List.eq_replicate_iff.mpr ⟨rfl, fun g hg ↦ ?_⟩
    exact beq_iff_eq.mp (List.all_eq_true.mp List.all_takeWhile g hg)
  have hsplit : groups.takeWhile (· == 0) ++ groups.dropWhile (· == 0) = groups :=
    List.takeWhile_append_dropWhile
  have hdrop : (groups.takeWhile (· == 0) ++ groups.dropWhile (· == 0)).drop
      (Address.leadingZeros groups) = groups.dropWhile (· == 0) := List.drop_left
  rw [hsplit] at hdrop
  rw [hdrop, ← hzeros, hsplit]

/-- The search only ever keeps runs of zeros. -/
theorem zeroRun_longestZeros (groups : List Nat) {rest : List Nat} {i : Nat} {best : Nat × Nat}
    (hrest : groups.drop i = rest) (hbest : ZeroRun groups best) :
    ZeroRun groups (Address.longestZeros rest i best) := by
  induction rest generalizing i best with
  | nil => exact hbest
  | cons g rest ih =>
    rw [Address.longestZeros]
    have hnext : groups.drop (i + 1) = rest := by
      rw [← List.drop_drop, hrest, List.drop_one, List.tail_cons]
    split
    · refine ih hnext ?_
      -- the zeros at the front of the rest are the run that starts at `i`
      have hsplit := replicate_leadingZeros (groups.drop i)
      rw [List.drop_drop, hrest] at hsplit
      rw [ZeroRun, List.append_assoc, ← hsplit, ← hrest, List.take_append_drop]
    · exact ih hnext hbest

/-! ## Version 6 -/

namespace AddressGrammar

variable (g : AddressGrammar)

/-- Eight groups without a gap. -/
theorem readV6_colons {groups : List Nat} (hlength : groups.length = 8)
    (h : ∀ n ∈ groups, n < 65536) : g.readV6 (colons groups) = some (ofGroups groups) := by
  have hgap : splitAtGap (colons groups) = none := by
    have hsplit := splitAtGap_colons_append groups []
    rwa [List.append_nil] at hsplit
  rw [readV6, hgap]
  simp only [pieces_colons, g.groups?_toDigits true h]
  exact if_pos hlength

/-- Groups around a gap that stands for at least one group. -/
theorem readV6_gap (front : List Nat) {back : List Nat} (hfront : ∀ n ∈ front, n < 65536)
    (hlength : front.length + back.length < 8) {cs : List Char}
    (hback : g.groups? true (pieces cs) = some back) :
    g.readV6 (colons front ++ ':' :: ':' :: cs) = some (ofGroups
      (front ++ List.replicate (8 - (front.length + back.length)) 0 ++ back)) := by
  have hgap : splitAtGap (colons front ++ ':' :: ':' :: cs) = some (colons front, cs) := by
    rw [splitAtGap_colons_append, splitAtGap]
    simp
  rw [readV6, hgap]
  simp only [pieces_colons, g.groups?_toDigits false hfront, hback]
  exact if_pos ⟨by omega, by omega, Or.inr (by omega)⟩

theorem ofGroups_digitGroups {n : Nat} (hn : n < 2 ^ 128) :
    ofGroups (Address.digitGroups 65536 n 8) = BitVec.ofNat 128 n := by
  rw [ofGroups, foldl_digitGroups, Nat.zero_mul, Nat.zero_add]
  exact congrArg _ (Nat.mod_eq_of_lt hn)

/-- The groups of an address that stands for one of version 4 and is written with that one at its
end. -/
theorem groups?_mapped {m : Nat} (hm : m < 2 ^ 32) :
    g.groups? true (pieces ('f' :: 'f' :: 'f' :: 'f' :: ':' :: (Address.showV4 m).toList)) =
      some [0xFFFF, m / 65536, m % 65536] := by
  have hread := g.readV4_showV4 hm
  have hcolon : ':' ∉ (Address.showV4 m).toList := fun h ↦ by
    rcases mem_showV4 h with h | h <;> exact absurd h (by decide)
  have hdot : '.' ∈ (Address.showV4 m).toList := by
    rw [toList_showV4]
    simp [Address.digitGroups]
  generalize (Address.showV4 m).toList = low at hread hcolon hdot
  have hpieces : pieces ('f' :: 'f' :: 'f' :: 'f' :: ':' :: low) = [['f', 'f', 'f', 'f'], low] := by
    have hsplit := List.splitOn_append_cons_self_of_not_mem (a := ':')
      (show ':' ∉ ['f', 'f', 'f', 'f'] by decide) low
    rwa [List.splitOn_eq_singleton hcolon] at hsplit
  -- the dot tells the last piece from a group
  have hlast : g.groups? true [low] = some [m / 65536, m % 65536] := by
    rw [groups?, if_pos ⟨rfl, hdot⟩, hread, Option.map_some, BitVec.toNat_ofNat,
      Nat.mod_eq_of_lt hm]
  rw [hpieces, groups?, hlast]
  · rfl
  · simp

theorem readV6_mapped {n : Nat} (hn : n / 0x100000000 = 0xFFFF) :
    g.readV6 (':' :: ':' :: 'f' :: 'f' :: 'f' :: 'f' :: ':' ::
      (Address.showV4 (n % 0x100000000)).toList) = some (BitVec.ofNat 128 n) := by
  have hback := g.groups?_mapped (Nat.mod_lt n (show 0 < 0x100000000 by decide))
  have hread := g.readV6_gap [] (fun _ h ↦ absurd h List.not_mem_nil) (by simp) hback
  refine hread.trans (congrArg some (congrArg (BitVec.ofNat 128) ?_))
  simp only [List.length_nil, List.length_cons, List.nil_append, List.replicate, List.cons_append,
    List.foldl_cons, List.foldl_nil]
  omega

theorem toList_showV6_of_gap {n start run : Nat} (hn : n / 0x100000000 ≠ 0xFFFF)
    (hrun : Address.longestZeros (Address.digitGroups 65536 n 8) 0 (0, 0) = (start, run)) :
    (Address.showV6 n).toList =
      if 1 < run then colons ((Address.digitGroups 65536 n 8).take start) ++ ':' :: ':' ::
        colons ((Address.digitGroups 65536 n 8).drop (start + run))
      else colons (Address.digitGroups 65536 n 8) := by
  rw [Address.showV6, if_neg hn]
  simp only [hrun]
  split
  · simp [toList_showGroups]
  · exact toList_showGroups _

theorem readV6_showV6 {n : Nat} (hn : n < 2 ^ 128) :
    g.readV6 (Address.showV6 n).toList = some (BitVec.ofNat 128 n) := by
  by_cases hmapped : n / 0x100000000 = 0xFFFF
  · rw [Address.showV6, if_pos hmapped, String.toList_append]
    exact g.readV6_mapped hmapped
  · rcases hrun : Address.longestZeros (Address.digitGroups 65536 n 8) 0 (0, 0) with ⟨start, run⟩
    have hlength := length_digitGroups 65536 n 8
    have hbound : ∀ m ∈ Address.digitGroups 65536 n 8, m < 65536 := fun m hm ↦
      lt_of_mem_digitGroups (by decide) hm
    have hvalue := ofGroups_digitGroups hn
    have hzeros : ZeroRun (Address.digitGroups 65536 n 8) (start, run) := by
      rw [← hrun]
      exact zeroRun_longestZeros _ rfl (by simp [ZeroRun])
    rw [toList_showV6_of_gap hmapped hrun]
    generalize Address.digitGroups 65536 n 8 = groups at *
    split
    · -- what the reader finds missing is as long as the run that was left out
      have hgroups : groups = groups.take start ++ List.replicate run 0 ++
          groups.drop (start + run) := hzeros
      have hlengths := congrArg List.length hgroups
      rw [List.length_append, List.length_append, List.length_replicate, hlength] at hlengths
      have hback : g.groups? true (pieces (colons (groups.drop (start + run)))) =
          some (groups.drop (start + run)) := by
        rw [pieces_colons]
        exact g.groups?_toDigits true fun m hm ↦ hbound m (List.mem_of_mem_drop hm)
      have hread := g.readV6_gap (groups.take start)
        (fun m hm ↦ hbound m (List.mem_of_mem_take hm)) (by omega) hback
      have hgap : 8 - ((groups.take start).length + (groups.drop (start + run)).length) = run := by
        omega
      rw [hread, hgap, ← hgroups, hvalue]
    · rw [g.readV6_colons hlength hbound, hvalue]

theorem colon_mem_showV6 (n : Nat) : ':' ∈ (Address.showV6 n).toList := by
  by_cases hmapped : n / 0x100000000 = 0xFFFF
  · rw [Address.showV6, if_pos hmapped, String.toList_append]
    exact List.mem_append_left _ (by decide)
  · rcases hrun : Address.longestZeros (Address.digitGroups 65536 n 8) 0 (0, 0) with ⟨start, run⟩
    rw [toList_showV6_of_gap hmapped hrun]
    split
    · simp
    · simp [Address.digitGroups, colons_cons_cons]

/-- **The text of an address reads back**, under either grammar. -/
theorem read_toString (a : Address) : g.read (toString a).toList = some a := by
  cases a with
  | v4 bits =>
    have hread := g.readV4_showV4 bits.isLt
    rw [BitVec.ofNat_toNat, BitVec.setWidth_eq] at hread
    rw [show toString (Address.v4 bits) = Address.showV4 bits.toNat from rfl, read, hread]
  | v6 bits =>
    have hread := g.readV6_showV6 bits.isLt
    rw [BitVec.ofNat_toNat, BitVec.setWidth_eq] at hread
    rw [show toString (Address.v6 bits) = Address.showV6 bits.toNat from rfl, read,
      g.readV4_eq_none (colon_mem_showV6 _), hread]
    rfl

end AddressGrammar

/-! ## Networks -/

theorem slash_not_mem_toString (a : Address) : '/' ∉ (toString a).toList := by
  cases a with
  | v4 bits =>
    intro h
    rcases AddressGrammar.mem_showV4 (show _ ∈ (Address.showV4 bits.toNat).toList from h) with h | h
    · exact absurd h (by decide)
    · exact absurd h (by decide)
  | v6 bits =>
    intro h
    have hgroups : ∀ groups, '/' ∉ colons groups := fun groups h ↦ by
      rcases mem_colons h with h | ⟨d, hd, h⟩
      · exact absurd h (by decide)
      · exact absurd h (by revert d; decide)
    replace h : '/' ∈ (Address.showV6 bits.toNat).toList := h
    by_cases hmapped : bits.toNat / 0x100000000 = 0xFFFF
    · rw [Address.showV6, if_pos hmapped, String.toList_append, List.mem_append] at h
      rcases h with h | h
      · exact absurd h (by decide)
      · rcases AddressGrammar.mem_showV4 h with h | h <;> exact absurd h (by decide)
    · rcases hrun : Address.longestZeros (Address.digitGroups 65536 bits.toNat 8) 0 (0, 0) with
        ⟨start, run⟩
      rw [AddressGrammar.toList_showV6_of_gap hmapped hrun] at h
      split at h
      · simp [hgroups] at h
      · exact hgroups _ h

namespace Network

theorem length?_toDigits {limit n : Nat} (h : n ≤ limit) :
    length? limit (Nat.toDigits 10 n) = some n := by
  have hlength : (Nat.toDigits 10 n).length ≤ (toString limit).length := by
    have hpos : 0 < (toString limit).length := Nat.length_repr_pos
    refine (Nat.length_toDigits_le_iff (by decide) hpos).mpr (Nat.lt_of_le_of_lt h ?_)
    exact (Nat.length_repr_le_iff hpos).mp (Nat.le_refl _)
  rw [length?, Text.decimal?_toDigits]
  exact if_pos ⟨hlength, h⟩

theorem toList_toString (net : Network) :
    (toString net).toList = (toString net.address).toList ++ '/' :: Nat.toDigits 10 net.length := by
  rw [show toString net = toString net.address ++ "/" ++ toString net.length from rfl,
    String.toList_append, String.toList_append, Nat.toString_eq_repr, Nat.toList_repr,
    List.append_assoc]
  rfl

/-- **The text of a network reads back.** -/
theorem parse?_toString (net : Network) : parse? (toString net) = some net := by
  have hslash : ∀ c ∈ (toString net.address).toList, (c ≠ '/') = true := by
    intro c hc
    have hne : c ≠ '/' := by
      rintro rfl
      exact slash_not_mem_toString _ hc
    simp [hne]
  have htake : (toString net).toList.takeWhile (· ≠ '/') = (toString net.address).toList := by
    rw [toList_toString, List.takeWhile_append_of_pos (by simpa using hslash)]
    simp
  have hdrop : (toString net).toList.dropWhile (· ≠ '/') = '/' :: Nat.toDigits 10 net.length := by
    rw [toList_toString, List.dropWhile_append_of_pos (by simpa using hslash)]
    simp
  rw [parse?]
  simp only [htake, hdrop, AddressGrammar.read_toString, Option.bind_eq_bind, Option.bind_some,
    length?_toDigits net.bounded, dif_pos net.bounded]

theorem parseOrHost?_toString (net : Network) : parseOrHost? (toString net) = some net := by
  rw [parseOrHost?, parse?_toString]
  rfl

end Network

end Reachability
