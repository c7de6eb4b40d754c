import Mathlib.Tactic.ByContra
import Reachability.Policy
import Reachability.Proofs.Sequence

/-!
# What a rule says

The meaning of peers, port matchers and rules as propositions, without an order of evaluation, and
the proof that evaluation follows it. Each evaluator gets one lemma that says everything it can do;
nothing above this module unfolds them.

Order matters in one place only. A network peer cannot be decided for an endpoint without an
address, and whether such a peer is looked at depends on the peers before it. A rule is *stuck* if
it is: `Rule.Stuck` is the sole predicate here that mentions positions. For a rule that is not stuck
the meaning is a disjunction over peers and a disjunction over ports.
-/

namespace Reachability

/-! ## Peers -/

namespace Peer

/-- The endpoint is picked. -/
def Matches (p : Peer) (e : Endpoint) : Prop :=
  match p with
  | .pods namespaces selector => namespaces.admits e ∧ selector.selects e.workload.labels
  | .network net => ∃ a, e.workload.address = some a ∧ net.contains a

/-- The endpoint cannot be decided, for want of an address. -/
def NeedsAddress (p : Peer) (e : Endpoint) : Prop :=
  match p with
  | .pods _ _ => False
  | .network _ => e.workload.address = none

theorem admits_cases (p : Peer) (e : Endpoint) :
    (p.NeedsAddress e ∧ p.admits e = .error (.missingAddress e.workload.key)) ∨
      (¬p.NeedsAddress e ∧ p.Matches e ∧ p.admits e = .ok true) ∨
      (¬p.NeedsAddress e ∧ ¬p.Matches e ∧ p.admits e = .ok false) := by
  cases p with
  | pods namespaces selector =>
    refine Or.inr ?_
    simp only [NeedsAddress, Matches, admits]
    cases namespaces.admits e <;> cases selector.selects e.workload.labels <;> simp
  | network net =>
    cases ha : e.workload.address with
    | none =>
      refine Or.inl ⟨ha, ?_⟩
      rw [admits, Workload.requireAddress, ha]
      rfl
    | some a =>
      have heq : (Peer.network net).admits e = .ok (net.contains a) := by
        rw [admits, Workload.requireAddress, ha]
        rfl
      rw [heq, NeedsAddress, Matches, ha]
      cases hc : net.contains a with
      | false => exact Or.inr (Or.inr ⟨by simp, by simp [hc], rfl⟩)
      | true => exact Or.inr (Or.inl ⟨by simp, by simp [hc], rfl⟩)

end Peer

/-! ## Ports -/

namespace PortMatch

/-- The port is picked. -/
def Covers (m : PortMatch) (port : ServicePort) (destination : Workload) : Prop :=
  match m with
  | .protocol p => p = port.protocol
  | .number p first last =>
    p = port.protocol ∧ first ≤ port.number ∧ port.number ≤ last.getD first
  | .name p n => p = port.protocol ∧ destination.resolveNamed n p = some port.number

/-- The matcher names a port of the right protocol that the destination does not declare. -/
def Dangles (m : PortMatch) (port : ServicePort) (destination : Workload) : Prop :=
  match m with
  | .protocol _ => False
  | .number _ _ _ => False
  | .name p n =>
    p = port.protocol ∧ ∀ c ∈ destination.ports, ¬(c.protocol = p ∧ c.name = some n)

theorem resolveNamed_eq_none_iff {w : Workload} {n : String} {p : Protocol} :
    w.resolveNamed n p = none ↔ ∀ c ∈ w.ports, ¬(c.protocol = p ∧ c.name = some n) := by
  simp [Workload.resolveNamed, List.find?_eq_none]

theorem allows_cases (m : PortMatch) (port : ServicePort) (destination : Workload) :
    (m.Covers port destination ∧ ¬m.Dangles port destination ∧
        m.allows port destination = .allowed) ∨
      (m.Dangles port destination ∧ ¬m.Covers port destination ∧
        m.allows port destination = .unknown) ∨
      (¬m.Covers port destination ∧ ¬m.Dangles port destination ∧
        m.allows port destination = .denied) := by
  cases m with
  | protocol p =>
    by_cases hp : p = port.protocol <;> simp [Covers, Dangles, allows, Outcome.ofBool, hp]
  | number p first last =>
    simp only [Covers, Dangles, allows, Outcome.ofBool, Bool.and_eq_true, decide_eq_true_eq,
      beq_iff_eq, and_assoc]
    split <;> simp_all
  | name p n =>
    rw [Covers, Dangles, ← resolveNamed_eq_none_iff, allows]
    by_cases hp : p = port.protocol
    · cases hr : destination.resolveNamed n p with
      | none => simp [hp]
      | some number => by_cases hn : number = port.number <;> simp [hp, hn, Outcome.ofBool]
    · simp [hp]

theorem allows_eq_allowed_iff {m : PortMatch} {port : ServicePort} {destination : Workload} :
    m.allows port destination = .allowed ↔ m.Covers port destination := by
  rcases m.allows_cases port destination with h | h | h <;> simp [h]

theorem allows_eq_denied_iff {m : PortMatch} {port : ServicePort} {destination : Workload} :
    m.allows port destination = .denied ↔
      ¬m.Covers port destination ∧ ¬m.Dangles port destination := by
  rcases m.allows_cases port destination with h | h | h <;> simp [h]

theorem Dangles.not_covers {m : PortMatch} {port : ServicePort} {destination : Workload}
    (h : m.Dangles port destination) : ¬m.Covers port destination := by
  rcases m.allows_cases port destination with ⟨-, hnot, -⟩ | ⟨-, hnot, -⟩ | ⟨-, hnot, -⟩
  · exact absurd h hnot
  · exact hnot
  · exact absurd h hnot

/-- The matcher for the number of a port picks this port only. -/
theorem covers_single_iff {p port : ServicePort} {destination : Workload} :
    (number p.protocol p.number none).Covers port destination ↔ port = p := by
  constructor
  · rintro ⟨hprotocol, hfirst, hlast⟩
    obtain ⟨protocol, n⟩ := port
    exact (ServicePort.mk.injEq ..).mpr ⟨hprotocol.symm, UInt16.le_antisymm hlast hfirst⟩
  · rintro rfl
    exact ⟨rfl, UInt16.le_refl _, UInt16.le_refl _⟩

end PortMatch

/-! ## Rules -/

namespace Rule

/-- Some peer picks the endpoint, or there is no peer to pick it. -/
def PeerMatches (r : Rule) (e : Endpoint) : Prop := r.peers = [] ∨ ∃ p ∈ r.peers, p.Matches e

/-- A peer that needs an address is looked at: no peer before it picks the endpoint. -/
def Stuck (r : Rule) (e : Endpoint) : Prop :=
  Meets (fun p ↦ ¬p.Matches e) (fun p ↦ p.NeedsAddress e) r.peers

/-- Some port matcher picks the port, or there is no matcher to pick it. -/
def CoversPort (r : Rule) (port : ServicePort) (destination : Workload) : Prop :=
  r.ports = [] ∨ ∃ m ∈ r.ports, m.Covers port destination

/-- No port matcher picks the port, but some matcher might if the destination declared a port that
the matcher names. -/
def PortUndecided (r : Rule) (port : ServicePort) (destination : Workload) : Prop :=
  (∀ m ∈ r.ports, ¬m.Covers port destination) ∧ ∃ m ∈ r.ports, m.Dangles port destination

/-- The rule allows the traffic. -/
def Allows (r : Rule) (e : Endpoint) (port : ServicePort) (destination : Workload) : Prop :=
  r.PeerMatches e ∧ r.CoversPort port destination

/-- The rule is about the traffic's peer, and cannot tell whether it is about the port. -/
def Undecided (r : Rule) (e : Endpoint) (port : ServicePort) (destination : Workload) : Prop :=
  r.PeerMatches e ∧ r.PortUndecided port destination

theorem anyAdmits_cases (e : Endpoint) (peers : List Peer) :
    (Meets (fun p ↦ ¬p.Matches e) (fun p ↦ p.NeedsAddress e) peers ∧
        anyAdmits e peers = .error (.missingAddress e.workload.key)) ∨
      (¬Meets (fun p ↦ ¬p.Matches e) (fun p ↦ p.NeedsAddress e) peers ∧
        ((∃ p ∈ peers, p.Matches e) ∧ anyAdmits e peers = .ok true ∨
          (∀ p ∈ peers, ¬p.Matches e) ∧ anyAdmits e peers = .ok false)) := by
  induction peers with
  | nil => exact Or.inr ⟨not_meets_nil, Or.inr ⟨by simp, rfl⟩⟩
  | cons p peers ih =>
    rw [meets_cons, anyAdmits]
    rcases p.admits_cases e with ⟨hneeds, heq⟩ | ⟨hneeds, hmatch, heq⟩ | ⟨hneeds, hmatch, heq⟩
    · exact Or.inl ⟨Or.inl hneeds, by rw [heq]; rfl⟩
    · refine Or.inr ⟨by simp [hneeds, hmatch], Or.inl ⟨⟨p, List.mem_cons_self, hmatch⟩, ?_⟩⟩
      rw [heq]
      rfl
    · have hstep : (do if ← p.admits e then return true else anyAdmits e peers) =
          anyAdmits e peers := by rw [heq]; rfl
      rw [hstep]
      simpa [hneeds, hmatch] using ih

theorem admitsPeer_cases (r : Rule) (e : Endpoint) :
    (r.Stuck e ∧ r.admitsPeer e = .error (.missingAddress e.workload.key)) ∨
      (¬r.Stuck e ∧ r.PeerMatches e ∧ r.admitsPeer e = .ok true) ∨
      (¬r.Stuck e ∧ ¬r.PeerMatches e ∧ r.admitsPeer e = .ok false) := by
  rw [Stuck, PeerMatches, admitsPeer]
  by_cases hnil : r.peers = []
  · simp [hnil]
  · rw [if_neg (by simpa using hnil)]
    rcases anyAdmits_cases e r.peers with ⟨hstuck, heq⟩ | ⟨hstuck, ⟨hmatch, heq⟩ | ⟨hmatch, heq⟩⟩
    · exact Or.inl ⟨hstuck, heq⟩
    · exact Or.inr (Or.inl ⟨hstuck, Or.inr hmatch, heq⟩)
    · refine Or.inr (Or.inr ⟨hstuck, ?_, heq⟩)
      rintro (h | ⟨p, hp, h⟩)
      · exact hnil h
      · exact hmatch p hp h

end Rule

/-! ### The disjunction over ports -/

namespace Outcome

theorem or_eq_allowed_iff {a b : Outcome} : a.or b = .allowed ↔ a = .allowed ∨ b = .allowed := by
  cases a <;> cases b <;> simp [Outcome.or]

theorem or_eq_denied_iff {a b : Outcome} : a.or b = .denied ↔ a = .denied ∧ b = .denied := by
  cases a <;> cases b <;> simp [Outcome.or]

theorem foldl_or_eq_allowed_iff {α : Type} {f : α → Outcome} {l : List α} {o : Outcome} :
    l.foldl (fun o a ↦ o.or (f a)) o = .allowed ↔ o = .allowed ∨ ∃ a ∈ l, f a = .allowed := by
  induction l generalizing o with
  | nil => simp
  | cons a l ih =>
    rw [List.foldl_cons, ih, or_eq_allowed_iff, or_assoc]
    simp only [List.mem_cons, exists_eq_or_imp]

theorem foldl_or_eq_denied_iff {α : Type} {f : α → Outcome} {l : List α} {o : Outcome} :
    l.foldl (fun o a ↦ o.or (f a)) o = .denied ↔ o = .denied ∧ ∀ a ∈ l, f a = .denied := by
  induction l generalizing o with
  | nil => simp
  | cons a l ih => rw [List.foldl_cons, ih, or_eq_denied_iff, and_assoc, List.forall_mem_cons]

end Outcome

namespace Rule

theorem allowsPort_cases (r : Rule) (port : ServicePort) (destination : Workload) :
    (r.CoversPort port destination ∧ ¬r.PortUndecided port destination ∧
        r.allowsPort port destination = .allowed) ∨
      (¬r.CoversPort port destination ∧ r.PortUndecided port destination ∧
        r.allowsPort port destination = .unknown) ∨
      (¬r.CoversPort port destination ∧ ¬r.PortUndecided port destination ∧
        r.allowsPort port destination = .denied) := by
  rw [CoversPort, PortUndecided, allowsPort]
  by_cases hnil : r.ports = []
  · simp [hnil]
  · rw [if_neg (by simpa using hnil)]
    cases ho : r.ports.foldl (fun (o : Outcome) m ↦ o.or (m.allows port destination))
      Outcome.denied with
    | allowed =>
      obtain ⟨m, hm, hallowed⟩ := (Outcome.foldl_or_eq_allowed_iff.mp ho).resolve_left (by decide)
      have hcov := PortMatch.allows_eq_allowed_iff.mp hallowed
      exact Or.inl ⟨Or.inr ⟨m, hm, hcov⟩, fun h ↦ h.1 m hm hcov, rfl⟩
    | unknown =>
      have hcovers : ∀ m ∈ r.ports, ¬m.Covers port destination := fun m hm hcov ↦ by
        have hallowed := PortMatch.allows_eq_allowed_iff.mpr hcov
        rw [Outcome.foldl_or_eq_allowed_iff.mpr (Or.inr ⟨m, hm, hallowed⟩)] at ho
        exact absurd ho (by decide)
      have hdangles : ∃ m ∈ r.ports, m.Dangles port destination := by
        by_contra! hnone
        have hdenied : ∀ m ∈ r.ports, m.allows port destination = .denied := fun m hm ↦
          PortMatch.allows_eq_denied_iff.mpr ⟨hcovers m hm, hnone m hm⟩
        rw [Outcome.foldl_or_eq_denied_iff.mpr ⟨rfl, hdenied⟩] at ho
        exact absurd ho (by decide)
      refine Or.inr (Or.inl ⟨?_, ⟨hcovers, hdangles⟩, rfl⟩)
      rintro (h | ⟨m, hm, hcov⟩)
      · exact hnil h
      · exact hcovers m hm hcov
    | denied =>
      have hnone := (Outcome.foldl_or_eq_denied_iff.mp ho).2
      refine Or.inr (Or.inr ⟨?_, ?_, rfl⟩)
      · rintro (h | ⟨m, hm, hcov⟩)
        · exact hnil h
        · exact (PortMatch.allows_eq_denied_iff.mp (hnone m hm)).1 hcov
      · rintro ⟨-, m, hm, hdangles⟩
        exact (PortMatch.allows_eq_denied_iff.mp (hnone m hm)).2 hdangles

/-- Everything that evaluating a rule can do. -/
theorem allows_cases (r : Rule) (e : Endpoint) (port : ServicePort) (destination : Workload) :
    (r.Stuck e ∧ r.allows e port destination = .error (.missingAddress e.workload.key)) ∨
      (¬r.Stuck e ∧ r.Allows e port destination ∧ ¬r.Undecided e port destination ∧
        r.allows e port destination = .ok .allowed) ∨
      (¬r.Stuck e ∧ ¬r.Allows e port destination ∧ r.Undecided e port destination ∧
        r.allows e port destination = .ok .unknown) ∨
      (¬r.Stuck e ∧ ¬r.Allows e port destination ∧ ¬r.Undecided e port destination ∧
        r.allows e port destination = .ok .denied) := by
  rw [Allows, Undecided]
  rcases r.admitsPeer_cases e with ⟨hstuck, heq⟩ | ⟨hstuck, hpeer, heq⟩ | ⟨hstuck, hpeer, heq⟩
  · exact Or.inl ⟨hstuck, by rw [allows, heq]; rfl⟩
  · have hport : r.allows e port destination = .ok (r.allowsPort port destination) := by
      rw [allows, heq]
      rfl
    rw [hport]
    rcases r.allowsPort_cases port destination with ⟨hc, hu, ho⟩ | ⟨hc, hu, ho⟩ | ⟨hc, hu, ho⟩
    · exact Or.inr (Or.inl ⟨hstuck, ⟨hpeer, hc⟩, fun h ↦ hu h.2, by rw [ho]⟩)
    · exact Or.inr (Or.inr (Or.inl ⟨hstuck, fun h ↦ hc h.2, ⟨hpeer, hu⟩, by rw [ho]⟩))
    · exact Or.inr (Or.inr (Or.inr ⟨hstuck, fun h ↦ hc h.2, fun h ↦ hu h.2, by rw [ho]⟩))
  · refine Or.inr (Or.inr (Or.inr ⟨hstuck, fun h ↦ hpeer h.1, fun h ↦ hpeer h.1, ?_⟩))
    rw [allows, heq]
    rfl

/-! ### Rules for all peers -/

section AllPeers

variable {ports : List PortMatch} {e : Endpoint} {port : ServicePort} {destination : Workload}

theorem not_stuck_nil : ¬(⟨[], ports⟩ : Rule).Stuck e := not_meets_nil

theorem allows_nil_iff : (⟨[], ports⟩ : Rule).Allows e port destination ↔
    (⟨[], ports⟩ : Rule).CoversPort port destination := and_iff_right (Or.inl rfl)

theorem undecided_nil_iff : (⟨[], ports⟩ : Rule).Undecided e port destination ↔
    (⟨[], ports⟩ : Rule).PortUndecided port destination := and_iff_right (Or.inl rfl)

end AllPeers

end Rule

end Reachability
