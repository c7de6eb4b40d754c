/-!
# Outcomes

The result of predicting or probing a flow. Beside allowed and denied there is unknown: a rule that
names a port which the destination does not declare cannot be decided, and a probe can fail. The two
connectives are those of strong three-valued logic, with allowed for true and denied for false.
-/

namespace Reachability

/-- The result of predicting or probing a flow. -/
inductive Outcome where
  | allowed
  | denied
  /-- Neither could be established. -/
  | unknown
deriving DecidableEq, Repr, Inhabited

namespace Outcome

/-- Allowed if either side is, and unknown only if no side allows. -/
def or : Outcome → Outcome → Outcome
  | allowed, _ | _, allowed => allowed
  | unknown, _ | _, unknown => unknown
  | denied, denied => denied

/-- Denied if either side is, and unknown only if no side denies. -/
def and : Outcome → Outcome → Outcome
  | denied, _ | _, denied => denied
  | unknown, _ | _, unknown => unknown
  | allowed, allowed => allowed

/-- The outcome of a definite test. -/
def ofBool (b : Bool) : Outcome := if b then allowed else denied

/-- The character that stands for the outcome in a table. -/
def mark : Outcome → Char
  | allowed => '.'
  | denied => 'X'
  | unknown => '?'

/-- The name of the outcome. -/
def name : Outcome → String
  | allowed => "allowed"
  | denied => "denied"
  | unknown => "unknown"

instance : ToString Outcome := ⟨name⟩

end Outcome

end Reachability
