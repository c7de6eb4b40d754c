import Reachability.Prediction
import Reachability.Proofs.Decision
import Reachability.Proofs.Matrix

/-!
# What a prediction records

A prediction has a cell for each of its flows, in all three matrices, and the cell holds what the
decisions for the flow say (`Prediction.Of`). Predicting walks the jobs and stops at the first flow
that cannot be explained. A flow of a topology that can be built is explained unless a direction of
it needs the address of a workload that has none (`NeedsAddress`).
-/

namespace Reachability

/-! ## Explaining a flow -/

/-- Deciding a direction of the flow needs the address of a workload that has none. -/
def NeedsAddress (policies : List Policy) (t : Topology) (f : Flow) : Prop :=
  ∃ traffic d key, Traffic.of t f = .ok traffic ∧
    Decides policies d traffic (.error (.missingAddress key))

variable {t : Topology} {policies : List Policy}

theorem Rule.Stuck.address_eq_none {r : Rule} {e : Endpoint} (h : r.Stuck e) :
    e.workload.address = none := by
  obtain ⟨before, p, after, -, -, hneeds⟩ := h
  cases p with
  | pods namespaces selector => exact hneeds.elim
  | network net => exact hneeds

/-- Only a missing address stops a decision. -/
theorem Decides.eq_missingAddress {d : Direction} {traffic : Traffic} {e : Error}
    (h : Decides policies d traffic (.error e)) :
    (traffic.peerEnd d).workload.address = none ∧
      e = .missingAddress (traffic.peerEnd d).workload.key := by
  cases h with
  | missingAddress reached stuck => exact ⟨stuck.address_eq_none, rfl⟩

namespace PolicyIndex

theorem decides_of_decide (ht : t.Keyed) {f : Flow} {traffic : Traffic}
    (hof : Traffic.of t f = .ok traffic) {d : Direction} {result : Except Error Decision} :
    (build t policies).decide d traffic = result ↔ Decides policies d traffic result := by
  rw [decide_build ht policies hof, decides_iff]

/-- A direction that cannot be decided needs the address of a workload that has none. -/
theorem needsAddress_of_decide (ht : t.Keyed) {f : Flow} {traffic : Traffic}
    (hof : Traffic.of t f = .ok traffic) {d : Direction} {e : Error}
    (h : (build t policies).decide d traffic = .error e) :
    NeedsAddress policies t f ∧
      ∃ w ∈ t.workloads, w.address = none ∧ e = .missingAddress w.key := by
  have hdecides := (decides_of_decide ht hof).mp h
  obtain ⟨haddress, rfl⟩ := hdecides.eq_missingAddress
  obtain ⟨-, key, hpeer⟩ := Traffic.exists_endpoint hof d
  exact ⟨⟨traffic, d, _, hof, hdecides⟩, _, (ht.mem_workloads_of_endpoint hpeer).1, haddress, rfl⟩

/-- A flow between workloads is explained unless it needs a missing address. -/
theorem explainFlow_cases (ht : t.Keyed) (policies : List Policy) {source destination : Workload}
    (hs : source ∈ t.workloads) (hd : destination ∈ t.workloads) (port : ServicePort) :
    (NeedsAddress policies t ⟨source.key, destination.key, port⟩ ∧
        ∃ w ∈ t.workloads, w.address = none ∧
          (build t policies).explainFlow t ⟨source.key, destination.key, port⟩ =
            .error (.missingAddress w.key)) ∨
      (¬NeedsAddress policies t ⟨source.key, destination.key, port⟩ ∧
        ∃ e, (build t policies).explainFlow t ⟨source.key, destination.key, port⟩ = .ok e) := by
  obtain ⟨traffic, hof, -⟩ := ht.traffic_eq_ok hs hd port
  rw [explainFlow, hof, ok_bind, explain]
  -- the sender's direction comes first, but either direction may fail
  cases hegress : (build t policies).decide .egress traffic with
  | error e =>
    obtain ⟨hneeds, w, hw, haddress, rfl⟩ := needsAddress_of_decide ht hof hegress
    exact Or.inl ⟨hneeds, w, hw, haddress, rfl⟩
  | ok egress =>
    cases hingress : (build t policies).decide .ingress traffic with
    | error e =>
      obtain ⟨hneeds, w, hw, haddress, rfl⟩ := needsAddress_of_decide ht hof hingress
      exact Or.inl ⟨hneeds, w, hw, haddress, rfl⟩
    | ok ingress =>
      refine Or.inr ⟨?_, _, rfl⟩
      rintro ⟨traffic', d, key, hof', hdecides⟩
      obtain rfl := Except.ok.inj (hof.symm.trans hof')
      have hdecide := (decides_of_decide ht hof).mpr hdecides
      cases d with
      | ingress => exact absurd (hingress.symm.trans hdecide) (by simp)
      | egress => exact absurd (hegress.symm.trans hdecide) (by simp)

end PolicyIndex

/-! ## Recording explanations -/

/-- The prediction has a cell for each of these flows and for no other, with what the explanation of
the flow says. -/
structure Prediction.Of (index : PolicyIndex) (t : Topology) (flows : List Flow) (p : Prediction) :
    Prop where
  explained : ∀ f ∈ flows, ∃ e, index.explainFlow t f = .ok e ∧
    p.ingress.get? f = some e.ingress.outcome ∧ p.egress.get? f = some e.egress.outcome ∧
      p.combined.get? f = some e.outcome
  absent : ∀ f, f ∉ flows →
    p.ingress.get? f = none ∧ p.egress.get? f = none ∧ p.combined.get? f = none

namespace Prediction

variable {index : PolicyIndex} {flows : List Flow} {p : Prediction}

theorem Of.empty (index : PolicyIndex) (t : Topology) : Of index t [] .empty where
  explained := by simp
  absent := fun _ _ ↦ ⟨rfl, rfl, rfl⟩

theorem Of.record (h : p.Of index t flows) {f : Flow} {e : Explanation}
    (he : index.explainFlow t f = .ok e) : (p.record f e).Of index t (flows ++ [f]) where
  explained := by
    intro g hg
    by_cases hgf : g = f
    · subst hgf
      exact ⟨e, he, Matrix.get?_set_self _ _ _, Matrix.get?_set_self _ _ _,
        Matrix.get?_set_self _ _ _⟩
    · have hmem : g ∈ flows := by simpa [hgf] using hg
      obtain ⟨e', he', hingress, hegress, hcombined⟩ := h.explained g hmem
      exact ⟨e', he', (Matrix.get?_set_of_ne _ hgf _).trans hingress,
        (Matrix.get?_set_of_ne _ hgf _).trans hegress,
        (Matrix.get?_set_of_ne _ hgf _).trans hcombined⟩
  absent := by
    intro g hg
    rw [List.mem_append, List.mem_singleton, not_or] at hg
    obtain ⟨hingress, hegress, hcombined⟩ := h.absent g hg.1
    exact ⟨(Matrix.get?_set_of_ne _ hg.2 _).trans hingress,
      (Matrix.get?_set_of_ne _ hg.2 _).trans hegress,
      (Matrix.get?_set_of_ne _ hg.2 _).trans hcombined⟩

/-- The three matrices have the same cells. -/
theorem Of.covers (h : p.Of index t flows) :
    p.ingress.Covers flows ∧ p.egress.Covers flows ∧ p.combined.Covers flows := by
  simp only [Matrix.Covers, ← forall_and]
  intro f
  by_cases hf : f ∈ flows
  · obtain ⟨e, -, hingress, hegress, hcombined⟩ := h.explained f hf
    simp [hf, hingress, hegress, hcombined]
  · obtain ⟨hingress, hegress, hcombined⟩ := h.absent f hf
    simp [hf, hingress, hegress, hcombined]

/-- Predictions for the same flows are equal if the explanations have the same outcomes. -/
theorem Of.eq {index' : PolicyIndex} {t' : Topology} {p' : Prediction} (h : p.Of index t flows)
    (h' : p'.Of index' t' flows)
    (agree : ∀ f ∈ flows, ∀ e e', index.explainFlow t f = .ok e → index'.explainFlow t' f = .ok e' →
      e.ingress.outcome = e'.ingress.outcome ∧ e.egress.outcome = e'.egress.outcome) : p = p' := by
  have hcells : ∀ f, p.ingress.get? f = p'.ingress.get? f ∧ p.egress.get? f = p'.egress.get? f ∧
      p.combined.get? f = p'.combined.get? f := by
    intro f
    by_cases hf : f ∈ flows
    · obtain ⟨e, he, hingress, hegress, hcombined⟩ := h.explained f hf
      obtain ⟨e', he', hingress', hegress', hcombined'⟩ := h'.explained f hf
      obtain ⟨hin, hout⟩ := agree f hf e e' he he'
      rw [hingress, hegress, hcombined, hingress', hegress', hcombined', Explanation.outcome,
        Explanation.outcome, hin, hout]
      exact ⟨rfl, rfl, rfl⟩
    · obtain ⟨hingress, hegress, hcombined⟩ := h.absent f hf
      obtain ⟨hingress', hegress', hcombined'⟩ := h'.absent f hf
      rw [hingress, hegress, hcombined, hingress', hegress', hcombined']
      exact ⟨rfl, rfl, rfl⟩
  cases p
  cases p'
  rw [Prediction.mk.injEq]
  exact ⟨Matrix.ext_get? fun f ↦ (hcells f).1, Matrix.ext_get? fun f ↦ (hcells f).2.1,
    Matrix.ext_get? fun f ↦ (hcells f).2.2⟩

end Prediction

namespace PolicyIndex

/-- Predicting on from a prediction. -/
def predictFrom (index : PolicyIndex) (t : Topology) (p : Prediction) (jobs : List Job) :
    Except Error Prediction :=
  jobs.foldlM (fun p j ↦ do return p.record j.flow (← index.explainFlow t j.flow)) p

theorem predictFrom_cases {index : PolicyIndex} {t : Topology} {flows : List Flow} {p : Prediction}
    (h : p.Of index t flows) (jobs : List Job) :
    (∃ e, Meets (fun j ↦ ∃ x, index.explainFlow t j.flow = .ok x)
        (fun j ↦ index.explainFlow t j.flow = .error e) jobs ∧
        index.predictFrom t p jobs = .error e) ∨
      ∃ p', index.predictFrom t p jobs = .ok p' ∧ p'.Of index t (flows ++ jobs.map Job.flow) := by
  induction jobs generalizing p flows with
  | nil => exact Or.inr ⟨p, rfl, by simpa using h⟩
  | cons j jobs ih =>
    rw [predictFrom, List.foldlM_cons]
    cases he : index.explainFlow t j.flow with
    | error e => exact Or.inl ⟨e, meets_cons.mpr (Or.inl he), rfl⟩
    | ok x =>
      rcases ih (h.record he) with ⟨e, hmeets, hpredict⟩ | ⟨p', hpredict, hp'⟩
      · exact Or.inl ⟨e, meets_cons.mpr (Or.inr ⟨⟨x, he⟩, hmeets⟩), hpredict⟩
      · refine Or.inr ⟨p', hpredict, ?_⟩
        rwa [List.append_assoc, List.singleton_append, ← List.map_cons] at hp'

/-- Predicting stops at the first flow that cannot be explained, and else records all of them. -/
theorem predict_cases (index : PolicyIndex) (t : Topology) (jobs : List Job) :
    (∃ e, Meets (fun j ↦ ∃ x, index.explainFlow t j.flow = .ok x)
        (fun j ↦ index.explainFlow t j.flow = .error e) jobs ∧
        index.predict t jobs = .error e) ∨
      ∃ p, index.predict t jobs = .ok p ∧ p.Of index t (jobs.map Job.flow) :=
  predictFrom_cases (.empty index t) jobs

/-- Jobs whose flows are all explained are predicted. -/
theorem exists_predict {index : PolicyIndex} {t : Topology} {jobs : List Job}
    (h : ∀ j ∈ jobs, ∃ e, index.explainFlow t j.flow = .ok e) :
    ∃ p, index.predict t jobs = .ok p ∧ p.Of index t (jobs.map Job.flow) := by
  rcases index.predict_cases t jobs with ⟨e, ⟨before, j, after, rfl, -, herror⟩, -⟩ | hp
  · obtain ⟨x, hx⟩ := h j (by simp)
    exact absurd (hx.symm.trans herror) (by simp)
  · exact hp

end PolicyIndex

end Reachability
