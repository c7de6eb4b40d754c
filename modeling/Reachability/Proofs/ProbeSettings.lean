import Mathlib.Data.List.Induction
import Mathlib.Data.List.TakeWhile
import Mathlib.Data.Nat.Digits.Defs
import Reachability.Job
import Reachability.Proofs.Acceptance
import Reachability.Proofs.Numeral

/-!
# Settings of probes

What a user may write to pick a port and a protocol. The readers are described from the outside: a
text is seen without the blanks around it (`Text.IsTrimmed`), a numeral by the number that its
digits denote (`Text.Denotes`), and the name of a protocol up to the case of its letters. Digits
only make a number, however many there are, so a numeral that is out of range is refused and never
taken for a name; a sign, or a digit of another script, makes a name.
-/

namespace Reachability

/-! ## Trimming -/

namespace Text

/-- The text `t` is `s` without the blanks around it. -/
structure IsTrimmed (s t : List Char) : Prop where
  around : ∃ before after, s = before ++ (t ++ after) ∧ (∀ c ∈ before, isBlank c) ∧
    ∀ c ∈ after, isBlank c
  head : ∀ c ∈ t.head?, ¬isBlank c
  last : ∀ c ∈ t.getLast?, ¬isBlank c

theorem trimStart_of_head {t : List Char} (h : ∀ c ∈ t.head?, ¬isBlank c) : trimStart t = t := by
  cases t with
  | nil => rfl
  | cons c t => exact List.dropWhile_cons_of_neg (h c rfl)

theorem trimStart_append {before t : List Char} (hbefore : ∀ c ∈ before, isBlank c) :
    trimStart (before ++ t) = trimStart t := List.dropWhile_append_of_pos hbefore

/-- Trimming finds the one text that is left without the blanks around it. -/
theorem IsTrimmed.trim_eq {s t : List Char} (h : IsTrimmed s t) : trim s = t := by
  obtain ⟨before, after, rfl, hbefore, hafter⟩ := h.around
  have hafter' : ∀ c ∈ after.reverse, isBlank c := fun c hc ↦ hafter c (List.mem_reverse.mp hc)
  rw [trim, trimStart_append hbefore]
  cases t with
  | nil =>
    have hnil : trimStart after = [] := by
      rw [← List.append_nil after, trimStart_append hafter]
      rfl
    rw [List.nil_append, hnil]
    rfl
  | cons c t =>
    have hlast : ∀ d ∈ (c :: t).reverse.head?, ¬isBlank d := by
      rw [List.head?_reverse]
      exact h.last
    rw [trimStart_of_head (t := c :: t ++ after) h.head, List.reverse_append,
      trimStart_append hafter', trimStart_of_head hlast, List.reverse_reverse]

theorem not_isBlank_head?_trimStart {s : List Char} : ∀ c ∈ (trimStart s).head?, ¬isBlank c := by
  intro c hc
  have hdrop := List.head?_dropWhile_not isBlank s
  rw [trimStart] at hc
  rw [hc] at hdrop
  simpa using hdrop

theorem exists_append_trimStart (s : List Char) :
    ∃ before, s = before ++ trimStart s ∧ ∀ c ∈ before, isBlank c :=
  ⟨s.takeWhile isBlank, List.takeWhile_append_dropWhile.symm, fun _ ↦ List.mem_takeWhile_imp⟩

theorem isTrimmed_trim (s : List Char) : IsTrimmed s (trim s) := by
  obtain ⟨before, hs, hbefore⟩ := exists_append_trimStart s
  obtain ⟨after, hrest, hafter⟩ := exists_append_trimStart (trimStart s).reverse
  have hsplit : trimStart s = trim s ++ after.reverse := by
    rw [trim, ← List.reverse_append, ← hrest, List.reverse_reverse]
  refine ⟨⟨before, after.reverse, hsplit ▸ hs, hbefore, fun c hc ↦ ?_⟩,
    fun c hc ↦ ?_, fun c hc ↦ ?_⟩
  · exact hafter c (List.mem_reverse.mp hc)
  · -- the text in front of the blanks at the end starts where these have been dropped
    refine not_isBlank_head?_trimStart (s := s) c ?_
    rw [hsplit, List.head?_append, hc]
    rfl
  · rw [trim, List.getLast?_reverse] at hc
    exact not_isBlank_head?_trimStart c hc

theorem isTrimmed_iff {s t : List Char} : IsTrimmed s t ↔ trim s = t :=
  ⟨IsTrimmed.trim_eq, fun h ↦ h ▸ isTrimmed_trim s⟩

instance (s t : List Char) : Decidable (IsTrimmed s t) := decidable_of_iff _ isTrimmed_iff.symm

/-- Nothing is left to trim. -/
theorem IsTrimmed.self {s t : List Char} (h : IsTrimmed s t) : IsTrimmed t t :=
  ⟨⟨[], [], by simp, by simp, by simp⟩, h.head, h.last⟩

/-! ## Numerals -/

/-- The text is a nonempty run of ASCII digits, which denote the number, the last digit having the
lowest place. -/
def Denotes (t : List Char) (n : Nat) : Prop :=
  t ≠ [] ∧ (∀ c ∈ t, c.isDigit) ∧ Nat.ofDigits 10 (t.reverse.map fun c ↦ c.toNat - '0'.toNat) = n

theorem decimalFrom_zero (t : List Char) :
    decimalFrom 0 t = Nat.ofDigits 10 (t.reverse.map fun c ↦ c.toNat - '0'.toNat) := by
  induction t using List.reverseRecOn with
  | nil => rfl
  | append_singleton t c ih =>
    have hstep : decimalFrom 0 (t ++ [c]) = 10 * decimalFrom 0 t + (c.toNat - '0'.toNat) := by
      rw [decimalFrom, List.foldl_append]
      rfl
    rw [hstep, ih, List.reverse_concat, List.map_cons, Nat.ofDigits_cons, Nat.add_comm]

theorem decimal?_eq_some_iff {t : List Char} {n : Nat} : decimal? t = some n ↔ Denotes t n := by
  rw [decimal?, Option.ite_none_right_eq_some, decimalFrom_zero, Denotes, Bool.and_eq_true,
    Bool.not_eq_true', List.isEmpty_eq_false_iff, List.all_eq_true, Option.some.injEq, and_assoc]

instance (t : List Char) (n : Nat) : Decidable (Denotes t n) :=
  decidable_of_iff _ decimal?_eq_some_iff

theorem denotes_toDigits (n : Nat) : Denotes (Nat.toDigits 10 n) n :=
  decimal?_eq_some_iff.mp (decimal?_toDigits n)

theorem Denotes.eq {t : List Char} {m n : Nat} (hm : Denotes t m) (hn : Denotes t n) : m = n :=
  hm.2.2.symm.trans hn.2.2

theorem not_isBlank_of_isDigit {c : Char} (h : c.isDigit) : ¬isBlank c := by
  simp only [Char.isDigit, Bool.and_eq_true, decide_eq_true_eq] at h
  have hlow : 48 ≤ c.toNat := h.1
  have hhigh : c.toNat ≤ 57 := h.2
  simp only [isBlank, Bool.or_eq_true, Bool.and_eq_true, decide_eq_true_eq, beq_iff_eq]
  omega

/-- There are no blanks around a numeral. -/
theorem Denotes.isTrimmed {t : List Char} {n : Nat} (h : Denotes t n) : IsTrimmed t t :=
  ⟨⟨[], [], by simp, by simp, by simp⟩,
    fun c hc ↦ not_isBlank_of_isDigit (h.2.1 c (List.mem_of_head? hc)),
    fun c hc ↦ not_isBlank_of_isDigit (h.2.1 c (List.mem_of_getLast? hc))⟩

/-- The texts are equal up to the case of ASCII letters. -/
def EqUpToCase (s t : String) : Prop :=
  List.Forall₂ (fun a b ↦ a.toLower = b.toLower) s.toList t.toList

theorem eqUpToCase_iff {s t : String} :
    EqUpToCase s t ↔ s.toList.map Char.toLower = t.toList.map Char.toLower := by
  rw [EqUpToCase, ← List.forall₂_eq_eq_eq, List.forall₂_map_left_iff, List.forall₂_map_right_iff]

end Text

/-! ## Port references -/

namespace PortRef

variable {s t : String}

theorem parse_eq_of_denotes (h : Text.IsTrimmed s.toList t.toList) {n : Nat}
    (hn : Text.Denotes t.toList n) :
    parse s = if 0 < n ∧ n < 65536 then .ok (.number n.toUInt16)
      else .error s!"invalid port: {Text.quoted t}" := by
  have hne : t.toList.isEmpty = false := by simpa using hn.1
  simp only [parse, h.trim_eq, hne, Text.decimal?_eq_some_iff.mpr hn, String.ofList_toList,
    Bool.false_eq_true, if_false]

theorem parse_eq_of_not_denotes (h : Text.IsTrimmed s.toList t.toList)
    (hn : ∀ n, ¬Text.Denotes t.toList n) :
    parse s = if t = "" then .error s!"invalid port: {Text.quoted t}" else .ok (.name t) := by
  have hnone : Text.decimal? t.toList = none := by
    rw [Option.eq_none_iff_forall_ne_some]
    exact fun n ↦ mt Text.decimal?_eq_some_iff.mp (hn n)
  simp only [parse, h.trim_eq, hnone, String.ofList_toList, List.isEmpty_iff,
    String.toList_eq_nil_iff]

/-- A text is refused if it is blank, or if its digits denote a number that no port has. -/
theorem parse_eq_error_iff (h : Text.IsTrimmed s.toList t.toList) {e : String} :
    parse s = .error e ↔ e = s!"invalid port: {Text.quoted t}" ∧
      (t = "" ∨ ∃ n, Text.Denotes t.toList n ∧ (n = 0 ∨ 65535 < n)) := by
  by_cases hdigits : ∃ n, Text.Denotes t.toList n
  · obtain ⟨n, hn⟩ := hdigits
    have hne : t ≠ "" := fun heq ↦ hn.1 (by rw [heq]; rfl)
    have hrange : (∃ m, Text.Denotes t.toList m ∧ (m = 0 ∨ 65535 < m)) ↔ ¬(0 < n ∧ n < 65536) := by
      constructor
      · rintro ⟨m, hm, hrange⟩
        obtain rfl := hm.eq hn
        omega
      · exact fun hrange ↦ ⟨n, hn, by omega⟩
    rw [parse_eq_of_denotes h hn, or_iff_right hne, hrange]
    split <;> simp_all [eq_comm]
  · rw [parse_eq_of_not_denotes h (not_exists.mp hdigits), or_iff_left
      fun ⟨n, hn, _⟩ ↦ hdigits ⟨n, hn⟩]
    split <;> simp_all [eq_comm]

theorem parse_eq_number_iff (h : Text.IsTrimmed s.toList t.toList) {n : UInt16} :
    parse s = .ok (.number n) ↔ Text.Denotes t.toList n.toNat ∧ 1 ≤ n.toNat := by
  by_cases hdigits : ∃ n, Text.Denotes t.toList n
  · obtain ⟨m, hm⟩ := hdigits
    rw [parse_eq_of_denotes h hm]
    split
    · rename_i hrange
      have hto : m.toUInt16.toNat = m := Nat.mod_eq_of_lt hrange.2
      rw [Except.ok.injEq, PortRef.number.injEq]
      constructor
      · rintro rfl
        exact ⟨hto.symm ▸ hm, by omega⟩
      · rintro ⟨hn, -⟩
        rw [hm.eq hn, Nat.toUInt16_eq, UInt16.ofNat_toNat]
    · rename_i hrange
      refine iff_of_false (by simp) ?_
      rintro ⟨hn, hpos⟩
      obtain rfl := hm.eq hn
      exact hrange ⟨hpos, n.toNat_lt⟩
  · rw [parse_eq_of_not_denotes h (not_exists.mp hdigits)]
    refine iff_of_false ?_ fun hn ↦ hdigits ⟨_, hn.1⟩
    split <;> simp

theorem parse_eq_name_iff (h : Text.IsTrimmed s.toList t.toList) {name : String} :
    parse s = .ok (.name name) ↔ name = t ∧ t ≠ "" ∧ ∀ n, ¬Text.Denotes t.toList n := by
  by_cases hdigits : ∃ n, Text.Denotes t.toList n
  · obtain ⟨m, hm⟩ := hdigits
    rw [parse_eq_of_denotes h hm]
    refine iff_of_false ?_ fun hname ↦ hname.2.2 m hm
    split <;> simp
  · rw [parse_eq_of_not_denotes h (not_exists.mp hdigits)]
    split <;> simp_all [eq_comm]

/-- A reference is written so that it is read again, although not every text for it is. -/
theorem parse_toString {r : PortRef} (h : parse s = .ok r) : parse (toString r) = .ok r := by
  have htrimmed : Text.IsTrimmed s.toList (String.ofList (Text.trim s.toList)).toList := by
    rw [String.toList_ofList]
    exact Text.isTrimmed_trim s.toList
  cases r with
  | number n =>
    have hpos := ((parse_eq_number_iff htrimmed).mp h).2
    have hdigits : Text.Denotes (toString n.toNat).toList n.toNat := by
      rw [Nat.toString_eq_repr, Nat.toList_repr]
      exact Text.denotes_toDigits n.toNat
    exact (parse_eq_number_iff hdigits.isTrimmed).mpr ⟨hdigits, hpos⟩
  | name name =>
    obtain ⟨rfl, hne, hdigits⟩ := (parse_eq_name_iff htrimmed).mp h
    exact (parse_eq_name_iff htrimmed.self).mpr ⟨rfl, hne, hdigits⟩

end PortRef

/-! ## Protocols -/

namespace Protocol

variable {s : String}

theorem eqUpToCase_name_iff {p : Protocol} : Text.EqUpToCase s p.name ↔ parse? s = some p := by
  have hname : p.name.toList.map Char.toLower = p.lowerName.toList := by cases p <;> rfl
  have hlower : s.toLower.toList = s.toList.map Char.toLower := String.toList_map
  rw [parse?_eq_some_iff, ← String.toList_inj, hlower, Text.eqUpToCase_iff, hname]

theorem parse_eq_ok_iff {p : Protocol} : parse s = .ok p ↔ Text.EqUpToCase s p.name := by
  rw [eqUpToCase_name_iff, parse]
  cases parse? s <;> simp

theorem parse_eq_error_iff {e : String} :
    parse s = .error e ↔ e = s!"invalid protocol: {Text.quoted s}" ∧
      ∀ p : Protocol, ¬Text.EqUpToCase s p.name := by
  simp only [eqUpToCase_name_iff, parse]
  cases parse? s <;> simp [eq_comm]

end Protocol

/-! ## Configurations -/

namespace ProbeConfig

/-- What texts for port and protocol select. TCP is meant if no protocol is named. -/
inductive Selects : Option String → Option String → PortSelection → Prop
  | all : Selects none none .all
  | single {port : String} {r : PortRef} (hport : PortRef.parse port = .ok r) :
    Selects (some port) none (.single r .tcp)
  | singleOf {port protocol : String} {r : PortRef} {p : Protocol}
    (hport : PortRef.parse port = .ok r) (hprotocol : Text.EqUpToCase protocol p.name) :
    Selects (some port) (some protocol) (.single r p)

/-- The reason for which texts for port and protocol are refused. The protocol is looked at
first. -/
inductive Refuses : Option String → Option String → String → Prop
  | protocol {port : Option String} {protocol : String}
    (hprotocol : ∀ p : Protocol, ¬Text.EqUpToCase protocol p.name) :
    Refuses port (some protocol) s!"invalid protocol: {Text.quoted protocol}"
  | unrestricted {protocol : String} {p : Protocol} (hprotocol : Text.EqUpToCase protocol p.name) :
    Refuses none (some protocol) "a protocol requires a port"
  | port {port : String} {protocol : Option String} {e : String}
    (hprotocol : ∀ text ∈ protocol, ∃ p : Protocol, Text.EqUpToCase text p.name)
    (hport : PortRef.parse port = .error e) : Refuses (some port) protocol e

variable {port protocol : Option String} {mode : ProbeMode}

theorem Selects.parse_eq {selection : PortSelection} (h : Selects port protocol selection) :
    parse port protocol mode = .ok ⟨selection, mode⟩ := by
  cases h with
  | all => rfl
  | single hport =>
    simp only [parse, hport]
    rfl
  | singleOf hport hprotocol =>
    simp only [parse, Option.mapM_some, Protocol.parse_eq_ok_iff.mpr hprotocol, hport]
    rfl

theorem Refuses.parse_eq {message : String} (h : Refuses port protocol message) :
    parse port protocol mode = .error (.invalidProbeConfig message) := by
  cases h with
  | protocol hprotocol =>
    simp only [parse, Option.mapM_some, Protocol.parse_eq_error_iff.mpr ⟨rfl, hprotocol⟩]
    rfl
  | unrestricted hprotocol =>
    simp only [parse, Option.mapM_some, Protocol.parse_eq_ok_iff.mpr hprotocol]
    rfl
  | port hprotocol hport =>
    cases protocol with
    | none =>
      simp only [parse, hport]
      rfl
    | some text =>
      obtain ⟨p, hp⟩ := hprotocol text rfl
      simp only [parse, Option.mapM_some, Protocol.parse_eq_ok_iff.mpr hp, hport]
      rfl

/-- Texts for port and protocol select something, or there is a reason why they do not. -/
theorem selects_or_refuses (port protocol : Option String) :
    (∃ selection, Selects port protocol selection) ∨ ∃ message, Refuses port protocol message := by
  by_cases hprotocol : ∀ text ∈ protocol, ∃ p : Protocol, Text.EqUpToCase text p.name
  · cases port with
    | none =>
      cases protocol with
      | none => exact Or.inl ⟨_, .all⟩
      | some text =>
        obtain ⟨p, hp⟩ := hprotocol text rfl
        exact Or.inr ⟨_, .unrestricted hp⟩
    | some port =>
      cases hport : PortRef.parse port with
      | error e => exact Or.inr ⟨e, .port hprotocol hport⟩
      | ok r =>
        cases protocol with
        | none => exact Or.inl ⟨_, .single hport⟩
        | some text =>
          obtain ⟨p, hp⟩ := hprotocol text rfl
          exact Or.inl ⟨_, .singleOf hport hp⟩
  · push Not at hprotocol
    obtain ⟨text, rfl, hnone⟩ := hprotocol
    exact Or.inr ⟨_, .protocol hnone⟩

theorem parse_eq_ok_iff {config : ProbeConfig} :
    parse port protocol mode = .ok config ↔
      Selects port protocol config.ports ∧ config.mode = mode := by
  constructor
  · intro h
    rcases selects_or_refuses port protocol with ⟨selection, hselects⟩ | ⟨message, hrefuses⟩
    · obtain rfl := Except.ok.inj (hselects.parse_eq.symm.trans h)
      exact ⟨hselects, rfl⟩
    · exact absurd (hrefuses.parse_eq.symm.trans h) (by simp)
  · rintro ⟨hselects, rfl⟩
    exact hselects.parse_eq

theorem parse_eq_error_iff {e : Error} :
    parse port protocol mode = .error e ↔
      ∃ message, e = .invalidProbeConfig message ∧ Refuses port protocol message := by
  constructor
  · intro h
    rcases selects_or_refuses port protocol with ⟨selection, hselects⟩ | ⟨message, hrefuses⟩
    · exact absurd (hselects.parse_eq.symm.trans h) (by simp)
    · exact ⟨message, (Except.error.inj (hrefuses.parse_eq.symm.trans h)).symm, hrefuses⟩
  · rintro ⟨message, rfl, hrefuses⟩
    exact hrefuses.parse_eq

end ProbeConfig

/-! ## Settings -/

/-- **Settings are parsed exactly.** A text has one trimmed form. If that is a numeral, it is a port
number from 1 to 65535 or it is refused; if it is empty, it is refused; otherwise it is a name. What
is written for a reference is read as that reference. Texts for port and protocol are accepted
exactly if they select something, and otherwise the reason is the message. -/
theorem settings_parsed_exactly :
    (∀ s : String, ∃! t : String, Text.IsTrimmed s.toList t.toList) ∧
      (∀ s t : String, Text.IsTrimmed s.toList t.toList →
        (∀ e, PortRef.parse s = .error e ↔ e = s!"invalid port: {Text.quoted t}" ∧
          (t = "" ∨ ∃ n, Text.Denotes t.toList n ∧ (n = 0 ∨ 65535 < n))) ∧
        (∀ n : UInt16, PortRef.parse s = .ok (.number n) ↔
          Text.Denotes t.toList n.toNat ∧ 1 ≤ n.toNat) ∧
        ∀ name, PortRef.parse s = .ok (.name name) ↔
          name = t ∧ t ≠ "" ∧ ∀ n, ¬Text.Denotes t.toList n) ∧
      (∀ s r, PortRef.parse s = .ok r → PortRef.parse (toString r) = .ok r) ∧
      ∀ port protocol mode,
        (∀ config, ProbeConfig.parse port protocol mode = .ok config ↔
          ProbeConfig.Selects port protocol config.ports ∧ config.mode = mode) ∧
        ∀ e, ProbeConfig.parse port protocol mode = .error e ↔ ∃ message,
          e = .invalidProbeConfig message ∧ ProbeConfig.Refuses port protocol message := by
  refine ⟨fun s ↦ ?_, fun s t h ↦ ?_, fun s r ↦ PortRef.parse_toString, fun port protocol mode ↦ ?_⟩
  · refine ⟨String.ofList (Text.trim s.toList), ?_, fun t ht ↦ ?_⟩
    · simpa only [String.toList_ofList] using Text.isTrimmed_trim s.toList
    · rw [ht.trim_eq, String.ofList_toList]
  · exact ⟨fun e ↦ PortRef.parse_eq_error_iff h, fun n ↦ PortRef.parse_eq_number_iff h,
      fun name ↦ PortRef.parse_eq_name_iff h⟩
  · exact ⟨fun config ↦ ProbeConfig.parse_eq_ok_iff, fun e ↦ ProbeConfig.parse_eq_error_iff⟩

/-- Leading zeros and wide blanks do not matter. Digits of another script are a name. -/
theorem settings_parsed_exactly_padded :
    Text.IsTrimmed "\u3000 000443\t".toList "000443".toList ∧
      PortRef.parse "\u3000 000443\t" = .ok (.number 443) ∧
      PortRef.parse (toString (PortRef.number 443)) = .ok (.number 443) ∧
      PortRef.parse "\u0664\u0664\u0663" = .ok (.name "\u0664\u0664\u0663") ∧
      PortRef.parse "0065536" = .error "invalid port: \"0065536\"" ∧
      ProbeConfig.parse (some " 000443") (some "Udp") .podAddress =
        .ok ⟨.single (.number 443) .udp, .podAddress⟩ := by
  obtain ⟨-, hport, hshown, hconfig⟩ := settings_parsed_exactly
  have hwide : Text.IsTrimmed "\u3000 000443\t".toList "000443".toList := by decide
  have hpadded : Text.IsTrimmed " 000443".toList "000443".toList := by decide
  have hscript : Text.IsTrimmed "\u0664\u0664\u0663".toList "\u0664\u0664\u0663".toList := by
    decide
  have hlarge : Text.IsTrimmed "0065536".toList "0065536".toList := by decide
  have hnumber : Text.Denotes "000443".toList (443 : UInt16).toNat := by decide
  have hread := ((hport _ _ hwide).2.1 443).mpr ⟨hnumber, by decide⟩
  refine ⟨hwide, hread, hshown _ _ hread, ?_, ?_, ?_⟩
  · refine ((hport _ _ hscript).2.2 _).mpr ⟨rfl, by decide, fun n hn ↦ ?_⟩
    exact absurd (hn.2.1 '\u0664' (by decide)) (by decide)
  · exact ((hport _ _ hlarge).1 _).mpr ⟨by decide, Or.inr ⟨65536, by decide, by decide⟩⟩
  · refine ((hconfig _ _ _).1 _).mpr ⟨.singleOf ?_ ?_, rfl⟩
    · exact ((hport _ _ hpadded).2.1 443).mpr ⟨hnumber, by decide⟩
    · exact .cons rfl (.cons rfl (.cons rfl .nil))

end Reachability
