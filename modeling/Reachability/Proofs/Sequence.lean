import Mathlib.Data.List.Forall2

/-!
# Lists of steps that can fail

Walking a list stops at a first element, and so does a list of computations of which one fails.
`Meets` is the position at which a walk stops, and `mapM_cases` lifts what is known of each
computation to the list of them.
-/

namespace Reachability

/-! ## Walking a list -/

/-- Walking a list from the front, past elements with `P` only, meets an element with `Q`. -/
def Meets {α : Type} (P Q : α → Prop) (l : List α) : Prop :=
  ∃ before x after, l = before ++ x :: after ∧ (∀ y ∈ before, P y) ∧ Q x

section Meets

variable {α : Type} {P Q : α → Prop}

@[simp] theorem not_meets_nil : ¬Meets P Q [] := by
  rintro ⟨before, x, after, h, -⟩
  exact absurd h (by simp)

theorem meets_cons {a : α} {l : List α} : Meets P Q (a :: l) ↔ Q a ∨ P a ∧ Meets P Q l := by
  constructor
  · rintro ⟨before, x, after, h, hP, hQ⟩
    cases before with
    | nil =>
      obtain ⟨rfl, -⟩ := List.cons.inj h
      exact Or.inl hQ
    | cons b before =>
      obtain ⟨rfl, htail⟩ := List.cons.inj h
      exact Or.inr ⟨hP a List.mem_cons_self, before, x, after, htail,
        fun y hy ↦ hP y (List.mem_cons_of_mem _ hy), hQ⟩
  · rintro (hQ | ⟨hPa, before, x, after, rfl, hP, hQ⟩)
    · exact ⟨[], a, l, rfl, by simp, hQ⟩
    · refine ⟨a :: before, x, after, rfl, fun y hy ↦ ?_, hQ⟩
      rcases List.mem_cons.mp hy with rfl | hy
      · exact hPa
      · exact hP y hy

/-- A walk that may stop at some other elements too, instead of passing them, stops as well. -/
theorem Meets.weaken {P' Q' : α → Prop} {l : List α} (h : Meets P Q l)
    (hP : ∀ a ∈ l, P a → P' a ∨ Q' a) (hQ : ∀ a ∈ l, Q a → Q' a) : Meets P' Q' l := by
  induction l with
  | nil => exact absurd h not_meets_nil
  | cons a l ih =>
    obtain ⟨hpass, hpassRest⟩ := List.forall_mem_cons.mp hP
    obtain ⟨hstop, hstopRest⟩ := List.forall_mem_cons.mp hQ
    rcases meets_cons.mp h with hstops | ⟨hpasses, hrest⟩
    · exact meets_cons.mpr (Or.inl (hstop hstops))
    · have hmeets := ih hrest hpassRest hstopRest
      exact meets_cons.mpr ((hpass hpasses).elim (fun h ↦ Or.inr ⟨h, hmeets⟩) Or.inl)

/-- Walks that pass the same elements, and stop at none of these, stop at the same element. -/
theorem Meets.exists_both {Q' : α → Prop} {l : List α} (h : Meets P Q l) (h' : Meets P Q' l)
    (hQ : ∀ a, Q a → ¬P a) (hQ' : ∀ a, Q' a → ¬P a) : ∃ a ∈ l, Q a ∧ Q' a := by
  induction l with
  | nil => exact absurd h not_meets_nil
  | cons a l ih =>
    rcases meets_cons.mp h with hstops | ⟨hpasses, hrest⟩
    · rcases meets_cons.mp h' with hstops' | ⟨hpasses, -⟩
      · exact ⟨a, List.mem_cons_self, hstops, hstops'⟩
      · exact absurd hpasses (hQ a hstops)
    · rcases meets_cons.mp h' with hstops' | ⟨-, hrest'⟩
      · exact absurd hpasses (hQ' a hstops')
      · obtain ⟨b, hb, hboth⟩ := ih hrest hrest'
        exact ⟨b, List.mem_cons_of_mem a hb, hboth⟩

/-- Either the walk never stops, or it stops at a first element without `P`. -/
theorem forall_or_meets_not (P : α → Prop) (l : List α) :
    (∀ x ∈ l, P x) ∨ Meets P (fun x ↦ ¬P x) l := by
  induction l with
  | nil => exact Or.inl (by simp)
  | cons a l ih =>
    by_cases ha : P a
    · rcases ih with h | h
      · exact Or.inl (List.forall_mem_cons.mpr ⟨ha, h⟩)
      · exact Or.inr (meets_cons.mpr (Or.inr ⟨ha, h⟩))
    · exact Or.inr (meets_cons.mpr (Or.inl ha))

end Meets

/-! ## Sequences of computations -/

section Except

variable {ε α β : Type}

@[simp] theorem ok_bind (a : α) (f : α → Except ε β) : (Except.ok a >>= f) = f a := rfl

@[simp] theorem error_bind (e : ε) (f : α → Except ε β) :
    ((Except.error e : Except ε α) >>= f) = .error e := rfl

@[simp] theorem map_ok (f : α → β) (a : α) : f <$> (Except.ok a : Except ε α) = .ok (f a) := rfl

theorem bind_eq_ok_iff {x : Except ε α} {f : α → Except ε β} {b : β} :
    (x >>= f) = .ok b ↔ ∃ a, x = .ok a ∧ f a = .ok b := by
  cases x <;> simp

theorem mapM_eq_ok_map {f : α → Except ε β} {g : α → β} {l : List α}
    (h : ∀ a ∈ l, f a = .ok (g a)) : l.mapM f = .ok (l.map g) := by
  induction l with
  | nil => rfl
  | cons a l ih =>
    obtain ⟨ha, hl⟩ := List.forall_mem_cons.mp h
    rw [List.mapM_cons, ha, ih hl]
    rfl

/-- A list of computations succeeds if all of them do, and then gives their results. -/
theorem mapM_eq_ok_iff {f : α → Except ε β} {l : List α} {results : List β} :
    l.mapM f = .ok results ↔ List.Forall₂ (fun a b ↦ f a = .ok b) l results := by
  induction l generalizing results with
  | nil =>
    rw [List.mapM_nil, List.forall₂_nil_left_iff]
    exact ⟨fun h ↦ (Except.ok.inj h).symm, fun h ↦ congrArg Except.ok h.symm⟩
  | cons a l ih =>
    rw [List.mapM_cons, bind_eq_ok_iff, List.forall₂_cons_left_iff]
    constructor
    · rintro ⟨b, hb, hrest⟩
      obtain ⟨bs, hbs, heq⟩ := bind_eq_ok_iff.mp hrest
      exact ⟨b, bs, hb, ih.mp hbs, (Except.ok.inj heq).symm⟩
    · rintro ⟨b, bs, hb, hbs, rfl⟩
      exact ⟨b, hb, bind_eq_ok_iff.mpr ⟨bs, ih.mpr hbs, rfl⟩⟩

/-- A list of computations fails if walking it meets one that fails. -/
theorem mapM_eq_error_iff {f : α → Except ε β} {l : List α} {e : ε} :
    l.mapM f = .error e ↔ Meets (fun a ↦ ∃ b, f a = .ok b) (fun a ↦ f a = .error e) l := by
  induction l with
  | nil => exact iff_of_false (by rintro ⟨⟩) not_meets_nil
  | cons a l ih =>
    rw [List.mapM_cons, meets_cons]
    cases ha : f a with
    | error e' => simp
    | ok b =>
      rw [ok_bind, ← ih]
      cases l.mapM f <;> simp [pure, Except.pure]

/-- A list of computations fails as the first one that does. -/
theorem mapM_eq_error {f : α → Except ε β} {before : List α} {a : α} {e : ε}
    (hbefore : ∀ c ∈ before, ∃ b, f c = .ok b) (ha : f a = .error e) (after : List α) :
    (before ++ a :: after).mapM f = .error e :=
  mapM_eq_error_iff.mpr ⟨before, a, after, rfl, hbefore, ha⟩

theorem exists_mapM {f : α → Except ε β} {Good : α → β → Prop} {l : List α}
    (h : ∀ a ∈ l, ∃ b, f a = .ok b ∧ Good a b) :
    ∃ results, l.mapM f = .ok results ∧ List.Forall₂ Good l results := by
  induction l with
  | nil => exact ⟨[], rfl, .nil⟩
  | cons a l ih =>
    obtain ⟨⟨b, ha, hb⟩, hl⟩ := List.forall_mem_cons.mp h
    obtain ⟨results, hresults, hgood⟩ := ih hl
    exact ⟨b :: results, by rw [List.mapM_cons, ha, hresults]; rfl, .cons hb hgood⟩

/-- If each computation either fails in a known way or gives a good result, then the list of them
gives a list of good results, or it fails as the first one that does. -/
theorem mapM_cases {f : α → Except ε β} {Bad : α → Prop} {failure : α → ε} {Good : α → β → Prop}
    {l : List α}
    (h : ∀ a ∈ l, Bad a ∧ f a = .error (failure a) ∨ ¬Bad a ∧ ∃ b, f a = .ok b ∧ Good a b) :
    (∃ before a after, l = before ++ a :: after ∧ (∀ c ∈ before, ¬Bad c) ∧ Bad a ∧
        l.mapM f = .error (failure a)) ∨
      (∀ a ∈ l, ¬Bad a) ∧ ∃ results, l.mapM f = .ok results ∧ List.Forall₂ Good l results := by
  induction l with
  | nil => exact Or.inr ⟨by simp, [], rfl, .nil⟩
  | cons a l ih =>
    obtain ⟨ha, hl⟩ := List.forall_mem_cons.mp h
    rw [List.mapM_cons]
    rcases ha with ⟨hbad, ha⟩ | ⟨hgood, b, ha, hb⟩
    · exact Or.inl ⟨[], a, l, rfl, by simp, hbad, by rw [ha, error_bind]⟩
    · rcases ih hl with ⟨before, c, after, rfl, hbefore, hbad, hl⟩ | ⟨hgoods, results, hl, hresults⟩
      · exact Or.inl ⟨a :: before, c, after, rfl, List.forall_mem_cons.mpr ⟨hgood, hbefore⟩, hbad,
          by rw [ha, hl, ok_bind, error_bind]⟩
      · exact Or.inr ⟨List.forall_mem_cons.mpr ⟨hgood, hgoods⟩, b :: results,
          by rw [ha, hl]; rfl, .cons hb hresults⟩

theorem map_eq_of_forall₂ {γ : Type} {g : β → γ} {k : α → γ} {l : List α} {results : List β}
    (h : List.Forall₂ (fun a b ↦ g b = k a) l results) : results.map g = l.map k := by
  induction h with
  | nil => rfl
  | cons hb _ ih => rw [List.map_cons, List.map_cons, hb, ih]

theorem flatMap_eq_of_forall₂ {γ : Type} {g : β → List γ} {k : α → List γ} {l : List α}
    {results : List β} (h : List.Forall₂ (fun a b ↦ g b = k a) l results) :
    results.flatMap g = l.flatMap k := by
  rw [List.flatMap_def, map_eq_of_forall₂ h, ← List.flatMap_def]

theorem exists_of_forall₂ {R : α → β → Prop} {l : List α} {results : List β}
    (h : List.Forall₂ R l results) {b : β} (hb : b ∈ results) : ∃ a ∈ l, R a b := by
  induction h with
  | nil => simp at hb
  | @cons a c l results hac _ ih =>
    rcases List.mem_cons.mp hb with rfl | hb
    · exact ⟨a, List.mem_cons_self, hac⟩
    · obtain ⟨a', ha', hab⟩ := ih hb
      exact ⟨a', List.mem_cons_of_mem a ha', hab⟩

theorem forall_iff_of_forall₂ {R : α → β → Prop} {P : α → Prop} {Q : β → Prop} {l : List α}
    {results : List β} (h : List.Forall₂ R l results) (hR : ∀ a b, R a b → (P a ↔ Q b)) :
    (∀ a ∈ l, P a) ↔ ∀ b ∈ results, Q b := by
  induction h with
  | nil => simp
  | cons hab _ ih => rw [List.forall_mem_cons, List.forall_mem_cons, hR _ _ hab, ih]

theorem forall_of_forall₂ {P : β → Prop} {l : List α} {results : List β}
    (h : List.Forall₂ (fun _ b ↦ P b) l results) : ∀ b ∈ results, P b := by
  intro b hb
  obtain ⟨-, -, h⟩ := exists_of_forall₂ h hb
  exact h

end Except

end Reachability
