import Mathlib.Order.Lattice
import Reachability.Outcome

/-!
# The order of outcomes

Outcomes are ordered by how much they let through: denied, unknown, allowed. In this order the two
connectives are the join and the meet, so that what is known of joins and meets is known of them. In
particular both are monotone, and adding to a disjunction never lowers it.

An outcome also says more or less about the flow, and that is another order. In it unknown is below
the other two, which cannot be compared (`Outcome.Settles`). The conjunction of the two directions
is monotone in this order as well.
-/

namespace Reachability

namespace Outcome

/-! ## How much passes -/

/-- The position of an outcome in the order of what passes. -/
def strength : Outcome → Nat
  | denied => 0
  | unknown => 1
  | allowed => 2

/-- Denied is less than unknown, and unknown is less than allowed. -/
instance : Lattice Outcome where
  le a b := a.strength ≤ b.strength
  le_refl a := Nat.le_refl a.strength
  le_trans _ _ _ hab hbc := Nat.le_trans hab hbc
  le_antisymm := by
    intro a b hab hba
    cases a <;> cases b <;> simp_all [strength]
  sup := or
  le_sup_left := by
    intro a b
    cases a <;> cases b <;> decide
  le_sup_right := by
    intro a b
    cases a <;> cases b <;> decide
  sup_le := by
    intro a b c hac hbc
    cases a <;> cases b <;> first | exact hac | exact hbc
  inf := and
  inf_le_left := by
    intro a b
    cases a <;> cases b <;> decide
  inf_le_right := by
    intro a b
    cases a <;> cases b <;> decide
  le_inf := by
    intro a b c hab hac
    cases b <;> cases c <;> first | exact hab | exact hac

/-- An outcome is at least another one if it is allowed where that one is, and denied only there. -/
theorem le_iff {a b : Outcome} :
    a ≤ b ↔ (a = allowed → b = allowed) ∧ (b = denied → a = denied) := by
  have hle : a ≤ b ↔ a.strength ≤ b.strength := Iff.rfl
  rw [hle]
  cases a <;> cases b <;> simp [strength]

/-! ## How much is known -/

/-- The second outcome is the first one, unless the first is unknown. -/
def Settles (a b : Outcome) : Prop := a ≠ unknown → b = a

/-- A conjunction settles as its parts do. -/
theorem Settles.and {a a' b b' : Outcome} (ha : a.Settles a') (hb : b.Settles b') :
    (a.and b).Settles (a'.and b') := by
  cases a <;> cases b <;> simp_all [Settles, Outcome.and]
  case unknown.denied => cases a' <;> rfl

end Outcome

end Reachability
