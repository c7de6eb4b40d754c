import Mathlib.Data.Option.NAry
import Reachability.Proofs.Verdict

/-!
# Predicting cell by cell

A list of jobs is predicted by writing one cell after the other, and later jobs write over earlier
ones. What is written depends on the flow of the job only, though, so that neither the order of the
jobs nor repetition among them matters, and lists of jobs may be predicted apart and put together
afterwards.
-/

namespace Reachability

/-! ## The three matrices -/

namespace Prediction

/-- The expected outcomes for one direction alone. -/
def matrix (p : Prediction) : Direction → Matrix
  | .ingress => p.ingress
  | .egress => p.egress

/-- Each matrix of a prediction is the union of those of two others. -/
structure IsUnion (q p p' : Prediction) : Prop where
  matrix : ∀ d, (q.matrix d).IsUnion (p.matrix d) (p'.matrix d)
  combined : q.combined.IsUnion p.combined p'.combined

variable {index : PolicyIndex} {t : Topology} {flows flows' : List Flow} {p p' q : Prediction}

theorem IsUnion.eq (h : q.IsUnion p p') {q' : Prediction} (h' : q'.IsUnion p p') : q = q' := by
  have hingress : q.ingress = q'.ingress := (h.matrix .ingress).eq (h'.matrix .ingress)
  have hegress : q.egress = q'.egress := (h.matrix .egress).eq (h'.matrix .egress)
  cases q
  cases q'
  rw [Prediction.mk.injEq]
  exact ⟨hingress, hegress, h.combined.eq h'.combined⟩

/-- A matrix that records something of each explanation holds just that. -/
theorem holds_of_explained {m : Matrix} {view : Explanation → Outcome}
    (present : ∀ f ∈ flows, ∃ e, index.explainFlow t f = .ok e ∧ m.get? f = some (view e))
    (absent : ∀ f, f ∉ flows → m.get? f = none) :
    m.Holds flows fun f o ↦ ∃ e, index.explainFlow t f = .ok e ∧ view e = o := by
  intro f o
  by_cases hf : f ∈ flows
  · obtain ⟨e, he, hcell⟩ := present f hf
    simp [hf, he, hcell]
  · simp [hf, absent f hf]

theorem Of.get?_matrix (h : p.Of index t flows) (d : Direction) {f : Flow} (hf : f ∈ flows) :
    ∃ e, index.explainFlow t f = .ok e ∧ (p.matrix d).get? f = some (e.decision d).outcome := by
  obtain ⟨e, he, hingress, hegress, -⟩ := h.explained f hf
  refine ⟨e, he, ?_⟩
  cases d with
  | ingress => exact hingress
  | egress => exact hegress

theorem Of.get?_matrix_eq_none (h : p.Of index t flows) (d : Direction) {f : Flow}
    (hf : f ∉ flows) : (p.matrix d).get? f = none := by
  obtain ⟨hingress, hegress, -⟩ := h.absent f hf
  cases d with
  | ingress => exact hingress
  | egress => exact hegress

theorem Of.holds (h : p.Of index t flows) (d : Direction) :
    (p.matrix d).Holds flows fun f o ↦
      ∃ e, index.explainFlow t f = .ok e ∧ (e.decision d).outcome = o :=
  holds_of_explained (fun _ hf ↦ h.get?_matrix d hf) fun _ hf ↦ h.get?_matrix_eq_none d hf

theorem Of.holds_combined (h : p.Of index t flows) :
    p.combined.Holds flows fun f o ↦ ∃ e, index.explainFlow t f = .ok e ∧ e.outcome = o := by
  refine holds_of_explained (fun f hf ↦ ?_) fun f hf ↦ (h.absent f hf).2.2
  obtain ⟨e, he, -, -, hcombined⟩ := h.explained f hf
  exact ⟨e, he, hcombined⟩

theorem Of.congr (h : p.Of index t flows) (hmem : ∀ f, f ∈ flows ↔ f ∈ flows') :
    p.Of index t flows' where
  explained f hf := h.explained f ((hmem f).mpr hf)
  absent f hf := h.absent f (mt (hmem f).mp hf)

theorem Of.isUnion (hq : q.Of index t (flows ++ flows')) (hp : p.Of index t flows)
    (hp' : p'.Of index t flows') : q.IsUnion p p' where
  matrix d := (hq.holds d).isUnion (hp.holds d) (hp'.holds d)
  combined := hq.holds_combined.isUnion hp.holds_combined hp'.holds_combined

end Prediction

/-! ## When a list of jobs is predicted -/

namespace PolicyIndex

variable {index : PolicyIndex} {t : Topology} {jobs jobs' : List Job}

/-- Predicting the jobs gives the one prediction that records all their flows. -/
theorem predict_eq_ok_iff {p : Prediction} :
    index.predict t jobs = .ok p ↔ p.Of index t (jobs.map Job.flow) := by
  constructor
  · intro h
    rcases index.predict_cases t jobs with ⟨e, -, herror⟩ | ⟨p', hok, hp'⟩
    · exact absurd (h.symm.trans herror) (by simp)
    · obtain rfl := Except.ok.inj (h.symm.trans hok)
      exact hp'
  · intro h
    obtain ⟨p', hok, hp'⟩ := exists_predict fun j hj ↦
      let ⟨e, he, _⟩ := h.explained j.flow (List.mem_map_of_mem hj)
      ⟨e, he⟩
    have heq : p = p' := h.eq hp' fun f _ e e' he he' ↦ by
      obtain rfl := Except.ok.inj (he.symm.trans he')
      exact ⟨rfl, rfl⟩
    rw [hok, heq]

/-- The jobs are predicted if each of them is explained. -/
theorem exists_predict_iff :
    (∃ p, index.predict t jobs = .ok p) ↔
      ∀ j ∈ jobs, ∃ e, index.explainFlow t j.flow = .ok e := by
  constructor
  · rintro ⟨p, hp⟩ j hj
    obtain ⟨e, he, -⟩ := (predict_eq_ok_iff.mp hp).explained j.flow (List.mem_map_of_mem hj)
    exact ⟨e, he⟩
  · intro h
    obtain ⟨p, hp, -⟩ := exists_predict h
    exact ⟨p, hp⟩

/-- Explaining the flow fails with this error, because one of its ends does not exist or because a
direction of its traffic is not decided. -/
def Fails (index : PolicyIndex) (t : Topology) (f : Flow) (e : Error) : Prop :=
  Traffic.of t f = .error e ∨ ∃ traffic, Traffic.of t f = .ok traffic ∧
    index.explain traffic = .error e

theorem explainFlow_eq_error_iff {f : Flow} {e : Error} :
    index.explainFlow t f = .error e ↔ index.Fails t f e := by
  rw [explainFlow, Fails]
  cases Traffic.of t f <;> simp

theorem exists_explainFlow_iff {f : Flow} :
    (∃ x, index.explainFlow t f = .ok x) ↔ ∀ e, ¬index.Fails t f e := by
  simp only [← explainFlow_eq_error_iff]
  cases index.explainFlow t f <;> simp

theorem predict_eq_error_iff {e : Error} :
    index.predict t jobs = .error e ↔
      Meets (fun j ↦ ∀ e', ¬index.Fails t j.flow e') (fun j ↦ index.Fails t j.flow e) jobs := by
  simp only [← exists_explainFlow_iff]
  simp only [← explainFlow_eq_error_iff]
  rcases index.predict_cases t jobs with ⟨e', hmeets, herror⟩ | ⟨p, hok, hp⟩
  · rw [herror]
    constructor
    · intro h
      rwa [← Except.error.inj h]
    · intro hmeets'
      -- a job that is explained does not fail, so both walks stop at the same job
      have hexcludes : ∀ {e} (j : Job), index.explainFlow t j.flow = .error e →
          ¬∃ x, index.explainFlow t j.flow = .ok x := by
        rintro e j he ⟨x, hx⟩
        exact absurd (hx.symm.trans he) (by simp)
      obtain ⟨j, -, he', he⟩ := hmeets.exists_both hmeets' hexcludes hexcludes
      rw [Except.error.inj (he'.symm.trans he)]
  · rw [hok]
    constructor
    · intro h
      exact absurd h (by simp)
    · rintro ⟨before, j, after, rfl, -, he⟩
      obtain ⟨x, hx, -⟩ := hp.explained j.flow (by simp)
      exact absurd (hx.symm.trans he) (by simp)

theorem predict_append_eq_ok_iff {q : Prediction} :
    index.predict t (jobs ++ jobs') = .ok q ↔
      ∃ p p', index.predict t jobs = .ok p ∧ index.predict t jobs' = .ok p' ∧ q.IsUnion p p' := by
  have hunion : ∀ {q p p'}, index.predict t (jobs ++ jobs') = .ok q →
      index.predict t jobs = .ok p → index.predict t jobs' = .ok p' → q.IsUnion p p' := by
    intro q p p' hq hp hp'
    rw [predict_eq_ok_iff, List.map_append] at hq
    exact hq.isUnion (predict_eq_ok_iff.mp hp) (predict_eq_ok_iff.mp hp')
  constructor
  · intro hq
    have hexplained := exists_predict_iff.mp ⟨q, hq⟩
    obtain ⟨p, hp⟩ := exists_predict_iff.mpr fun j hj ↦ hexplained j (List.mem_append_left _ hj)
    obtain ⟨p', hp'⟩ := exists_predict_iff.mpr fun j hj ↦ hexplained j (List.mem_append_right _ hj)
    exact ⟨p, p', hp, hp', hunion hq hp hp'⟩
  · rintro ⟨p, p', hp, hp', hq⟩
    have hexplained := List.forall_mem_append.mpr
      ⟨exists_predict_iff.mp ⟨p, hp⟩, exists_predict_iff.mp ⟨p', hp'⟩⟩
    obtain ⟨q', hq'⟩ := exists_predict_iff.mpr hexplained
    -- `q` is given as a union only, and a union is unique
    rw [hq.eq (hunion hq' hp hp'), hq']

end PolicyIndex

/-! ## What is predicted -/

/-- The matrices have the cells of these flows. A cell of one direction has the outcome that is
decided for it, and a combined cell says whether both directions let the flow pass. -/
structure Prediction.Decided (index : PolicyIndex) (t : Topology) (flows : List Flow)
    (p : Prediction) : Prop where
  covers : ∀ d, (p.matrix d).Covers flows
  covers_combined : p.combined.Covers flows
  holds : ∀ d, (p.matrix d).Holds flows fun f o ↦ ∃ traffic decision,
    Traffic.of t f = .ok traffic ∧ index.decide d traffic = .ok decision ∧ decision.outcome = o
  combined : ∀ f, p.combined.get? f =
    Option.map₂ Outcome.and (p.egress.get? f) (p.ingress.get? f)

theorem PolicyIndex.explainFlow_eq_ok_iff {index : PolicyIndex} {t : Topology} {f : Flow}
    {e : Explanation} :
    index.explainFlow t f = .ok e ↔ ∃ traffic, Traffic.of t f = .ok traffic ∧
      ∀ d, index.decide d traffic = .ok (e.decision d) := by
  rw [explainFlow, bind_eq_ok_iff]
  simp only [explain_eq_ok_iff]

theorem Prediction.Of.decided {index : PolicyIndex} {t : Topology} {flows : List Flow}
    {p : Prediction} (h : p.Of index t flows) : p.Decided index t flows where
  covers d := by
    cases d with
    | ingress => exact h.covers.1
    | egress => exact h.covers.2.1
  covers_combined := h.covers.2.2
  holds d f o := by
    rw [h.holds d f o]
    refine and_congr_right fun hf ↦ ?_
    obtain ⟨x, hx, -⟩ := h.explained f hf
    obtain ⟨traffic, hof, hdecide⟩ := PolicyIndex.explainFlow_eq_ok_iff.mp hx
    simp [hx, hof, hdecide d]
  combined f := by
    by_cases hf : f ∈ flows
    · obtain ⟨e, -, hingress, hegress, hcombined⟩ := h.explained f hf
      rw [hingress, hegress, hcombined]
      rfl
    · obtain ⟨hingress, hegress, hcombined⟩ := h.absent f hf
      rw [hingress, hegress, hcombined]
      rfl

/-- **Predictions are made cell by cell.** The jobs fail to be predicted as the first of them does
whose flow cannot be explained. Otherwise there is a cell for each of their flows in all three
matrices, with what is decided for the flow. Only the flows count, in whatever order and however
often they are listed and whatever else the jobs say; and lists of jobs can be predicted apart. -/
theorem predict_cellwise (index : PolicyIndex) (t : Topology) (jobs : List Job) :
    (∀ e, index.predict t jobs = .error e ↔
        Meets (fun j ↦ ∀ e', ¬index.Fails t j.flow e') (fun j ↦ index.Fails t j.flow e) jobs) ∧
      (∀ p, index.predict t jobs = .ok p → p.Decided index t (jobs.map Job.flow)) ∧
      (∀ jobs', (∀ f, f ∈ jobs.map Job.flow ↔ f ∈ jobs'.map Job.flow) →
        ∀ p, index.predict t jobs = .ok p ↔ index.predict t jobs' = .ok p) ∧
      ∀ jobs' q, index.predict t (jobs ++ jobs') = .ok q ↔
        ∃ p p', index.predict t jobs = .ok p ∧ index.predict t jobs' = .ok p' ∧ q.IsUnion p p' := by
  refine ⟨fun e ↦ PolicyIndex.predict_eq_error_iff, fun p hp ↦ ?_, fun jobs' hmem p ↦ ?_,
    fun jobs' q ↦ PolicyIndex.predict_append_eq_ok_iff⟩
  · exact (PolicyIndex.predict_eq_ok_iff.mp hp).decided
  · rw [PolicyIndex.predict_eq_ok_iff, PolicyIndex.predict_eq_ok_iff]
    exact ⟨fun h ↦ h.congr hmem, fun h ↦ h.congr fun f ↦ (hmem f).symm⟩

/-- A job between two pods of one namespace. -/
def podJob (source destination : String) : Job where
  source := ⟨⟨"x", source⟩, ∅, none⟩
  destination := ⟨⟨"x", destination⟩, ∅, none⟩
  host := destination
  port := ⟨.tcp, 80⟩
  portName := none
  timeout := .ofSeconds 1
  expected := none

/-- The second list has the flows of the first one in the other order, and one of them twice with
other texts. A job to a pod that does not exist cannot be predicted, whatever comes after it. -/
theorem predict_cellwise_runningPair :
    let index := PolicyIndex.build .runningPair [undecidedPolicy]
    let again := { podJob "b" "a" with host := "10.0.0.1", portName := some "s" }
    (∃ p, index.predict .runningPair [podJob "b" "a", podJob "a" "b"] = .ok p ∧
        index.predict .runningPair [podJob "a" "b", again, podJob "b" "a"] = .ok p ∧
        p.combined.get? again.flow = some .unknown) ∧
      index.predict .runningPair [podJob "c" "d", podJob "d" "c"] =
        .error (.unknownWorkload ⟨"x", "c"⟩) := by
  intro index again
  obtain ⟨-, -, hsame, -⟩ :=
    predict_cellwise index .runningPair [podJob "b" "a", podJob "a" "b"]
  obtain ⟨hfails, -⟩ := predict_cellwise index .runningPair [podJob "c" "d", podJob "d" "c"]
  refine ⟨?_, (hfails _).mpr ⟨[], _, _, rfl, by simp, Or.inl rfl⟩⟩
  have hcombined : (do
      return (← index.predict .runningPair
        [podJob "b" "a", podJob "a" "b"]).combined.get? again.flow) =
      Except.ok (some Outcome.unknown) := by decide +kernel
  obtain ⟨p, hp, hcell⟩ := bind_eq_ok_iff.mp hcombined
  have hmem : ∀ f, f ∈ [podJob "b" "a", podJob "a" "b"].map Job.flow ↔
      f ∈ [podJob "a" "b", again, podJob "b" "a"].map Job.flow := by
    intro f
    have hagain : again.flow = (podJob "b" "a").flow := rfl
    simp only [List.map_cons, List.map_nil, List.mem_cons, List.not_mem_nil, hagain, or_false]
    tauto
  exact ⟨p, hp, (hsame _ hmem p).mp hp, Except.ok.inj hcell⟩

end Reachability
