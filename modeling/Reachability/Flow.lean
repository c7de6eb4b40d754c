import Reachability.Port

/-!
# Workload keys and flows

A workload is identified by its namespace and its name; keys are ordered by namespace first. A flow
is a source, a destination and a port of the destination, and it is what a cell of a matrix is
about; flows are ordered by source, then destination, then port.
-/

namespace Reachability

/-- Identifies a workload. -/
structure WorkloadKey where
  ns : String
  name : String
deriving DecidableEq

namespace WorkloadKey

/-- Keys are ordered by namespace first. -/
instance : Ord WorkloadKey := ⟨compareLex (compareOn ns) (compareOn name)⟩

instance : Std.TransOrd WorkloadKey :=
  inferInstanceAs (Std.TransCmp (compareLex (compareOn ns) (compareOn name)))

instance : Std.LawfulEqOrd WorkloadKey :=
  lawfulEqCmp_compareLex fun a b hns hname ↦ by cases a; cases b; simp_all

instance : ToString WorkloadKey := ⟨fun k ↦ s!"{k.ns}/{k.name}"⟩

end WorkloadKey

/-- A connection from a workload to a port of a workload. -/
structure Flow where
  source : WorkloadKey
  destination : WorkloadKey
  port : ServicePort
deriving DecidableEq

namespace Flow

/-- The two ends of a flow, source first. -/
def ends (f : Flow) : WorkloadKey × WorkloadKey := (f.source, f.destination)

/-- Comparison of the two ends, source first. -/
def compareEnds : Flow → Flow → Ordering := compareLex (compareOn source) (compareOn destination)

/-- Flows are ordered by their ends and then by port. -/
instance : Ord Flow := ⟨compareLex compareEnds (compareOn port)⟩

instance : Std.TransOrd Flow :=
  inferInstanceAs (Std.TransCmp
    (compareLex (compareLex (compareOn source) (compareOn destination)) (compareOn port)))

instance : Std.LawfulEqOrd Flow where
  compare_self := Std.ReflCmp.compare_self
  eq_of_compare := by
    intro a b h
    obtain ⟨hends, hport⟩ := compareLex_eq_eq.mp h
    obtain ⟨hsource, hdestination⟩ := compareLex_eq_eq.mp hends
    have hs : a.source = b.source := Std.LawfulEqOrd.eq_of_compare hsource
    have hd : a.destination = b.destination := Std.LawfulEqOrd.eq_of_compare hdestination
    have hp : a.port = b.port := Std.LawfulEqOrd.eq_of_compare hport
    cases a; cases b; simp_all

instance : ToString Flow := ⟨fun f ↦ s!"{f.source} -> {f.destination} on {f.port}"⟩

end Flow

end Reachability
