import Reachability.CommandLine.Reading
import Reachability.Proofs.Interleaving
import Reachability.Proofs.Job
import Reachability.Proofs.Numeral

/-!
# Deadlines of probes

Two times come from the timeout of a job. The source pod waits for its connection for whole seconds,
at least one (`Job.connectionSeconds`), and the probe as a whole has until its deadline, which is
the exact timeout and the grace. Rounding down takes less than a second and the floor adds at most
one, so either way the grace keeps the deadline at least four seconds behind the connection.

At the upper end there is no deadline. The sum is computed in durations, and the timeouts of the
last five seconds before the limit have no room for the grace. Nothing in front of the sum keeps
such timeouts out: the command line takes every number of seconds that fits in 64 bits
(`CommandLine.read_probeTimeout`), and a batch with such a job is aborted.
-/

namespace Reachability

/-! ## Sums of durations -/

namespace Duration

theorem nanoseconds_of_add? {d e sum : Duration} (h : d.add? e = some sum) :
    sum.nanoseconds = d.nanoseconds + e.nanoseconds := by
  rw [add?, ofNanoseconds?, Option.dite_none_right_eq_some] at h
  obtain ⟨_, hsum⟩ := h
  rw [← Option.some.inj hsum]

/-- Whole seconds have no part in the nanoseconds, so the whole seconds decide if there is room. -/
theorem add?_ofSeconds_eq_none_iff (d : Duration) (s : UInt64) :
    d.add? (.ofSeconds s) = none ↔ UInt64.size ≤ d.seconds + s.toNat := by
  rw [add?, ofNanoseconds?, dite_eq_right_iff]
  simp only [reduceCtorEq, imp_false, Nat.not_lt, ofSeconds, seconds, durationLimit,
    nanosecondsPerSecond, UInt64.size]
  omega

@[simp] theorem seconds_ofSeconds (s : UInt64) : (ofSeconds s).seconds = s.toNat :=
  Nat.mul_div_cancel _ (by decide)

end Duration

/-! ## The two times of a job -/

namespace Job

/-- The whole seconds that the source waits for its connection, at least one. -/
def connectionSeconds (j : Job) : Nat := max j.timeout.seconds 1

theorem mem_command_connectionSeconds (j : Job) :
    s!"--timeout={j.connectionSeconds}s" ∈ j.command := by
  simp [command, connectionSeconds]

/-- The whole seconds of the timeout leave no room for the grace. -/
def Overflows (j : Job) : Prop := UInt64.size ≤ j.timeout.seconds + probeGrace.seconds

instance (j : Job) : Decidable j.Overflows := inferInstanceAs (Decidable (_ ≤ _))

theorem deadline?_eq_none_iff (j : Job) : j.deadline? = none ↔ j.Overflows :=
  j.timeout.add?_ofSeconds_eq_none_iff 5

/-- The deadline is between four and six seconds behind the end of the connection. -/
theorem connectionSeconds_bounds {j : Job} {deadline : Duration}
    (h : j.deadline? = some deadline) :
    (j.connectionSeconds + 4) * nanosecondsPerSecond ≤ deadline.nanoseconds ∧
      deadline.nanoseconds < (j.connectionSeconds + 6) * nanosecondsPerSecond := by
  have hsum : deadline.nanoseconds = j.timeout.nanoseconds + 5 * nanosecondsPerSecond :=
    Duration.nanoseconds_of_add? h
  rw [hsum]
  simp only [connectionSeconds, Duration.seconds, nanosecondsPerSecond]
  omega

end Job

/-! ## Batches -/

theorem Batch.Yields.eq_none_iff_overflows {concurrency : Nat} {jobs : List Job}
    {m : Option Matrix} (h : Yields concurrency jobs m) : m = none ↔ ∃ j ∈ jobs, j.Overflows := by
  simp only [h.eq_none_iff, Job.deadline?_eq_none_iff]

/-- The jobs of a build overflow together, with the timeout of the builder. -/
theorem JobBuilder.overflows_iff {b : JobBuilder} {t : Topology} {config : ProbeConfig} {js : Jobs}
    (h : b.build t config none = .ok js) {j : Job} (hj : j ∈ js.valid) :
    j.Overflows ↔ UInt64.size ≤ b.timeout.seconds + probeGrace.seconds := by
  rw [build_none] at h
  rcases b.enumerate_cases config t with ⟨_, _, _, herror⟩ | ⟨_, js', hok, hbuilds⟩
  · exact absurd (herror.symm.trans h) (by simp)
  · obtain rfl := Except.ok.inj (hok.symm.trans h)
    rw [Job.Overflows, hbuilds.timeout_eq j hj]

/-! ## Timeouts on the command line -/

namespace CommandLine

theorem count?_toString (s : UInt64) : count? (toString s.toNat) = some s := by
  have hdigits : (toString s.toNat).toList = Nat.toDigits 10 s.toNat := Nat.toList_repr
  have hnumber : Text.unsigned? (Nat.toDigits 10 s.toNat) = some s.toNat := by
    rw [Text.unsigned?]
    · exact Text.decimal?_toDigits _
    · rintro cs heq
      have hplus : '+' ∈ Nat.toDigits 10 s.toNat := heq ▸ List.mem_cons_self
      exact absurd (Text.isDigit_of_mem_toDigits hplus) (by decide)
  have hs : s.toNat < UInt64.size := s.toNat_lt
  rw [count?, hdigits, hnumber]
  simp [hs]

/-- An argument without a dash in front is the value of the option that was named last. -/
theorem Progress.readArguments_value {p : Progress} {s : Setting} (hp : p.pending = some (s, none))
    {value : String} (hvalue : value.toList.head? ≠ some '-') :
    p.readArguments [value] = { p with pending := some (s, some value) }.settle := by
  have hdashes : value ≠ "--" := by
    rintro rfl
    exact hvalue rfl
  have hread : p.readArgument value = .ok { p with pending := some (s, some value) } := by
    rw [readArgument, hp]
    split
    case h_1 hchars => exact absurd (congrArg List.head? hchars) hvalue
    case h_2 hchars => exact absurd (congrArg List.head? hchars) hvalue
    case h_3 hpending _ _ =>
      obtain ⟨rfl, -⟩ := Prod.mk.inj (Option.some.inj hpending)
      rfl
    case h_4 hother => exact absurd rfl (hother s)
  rw [readArguments, if_neg hdashes, hread]
  rfl

/-- Every number of seconds that fits in 64 bits can be asked for. -/
theorem read_probeTimeout (s : UInt64) :
    read ["--mode", "ingress", "--probe-timeout-secs", toString s.toNat] =
      .ok { Options.default with mode := some (.rules .ingress), probeTimeoutSeconds := s } := by
  have hvalue : (toString s.toNat).toList.head? ≠ some '-' := by
    intro hhead
    have hdash : '-' ∈ Nat.toDigits 10 s.toNat := by
      rw [← Nat.toList_repr]
      exact List.mem_of_head? hhead
    exact absurd (Text.isDigit_of_mem_toDigits hdash) (by decide)
  have hstart : Progress.start.readArguments
      ["--mode", "ingress", "--probe-timeout-secs", toString s.toNat] =
        ({ options := { Options.default with mode := some (.rules .ingress) }, given := [.mode],
           pending := some (.probeTimeout, none) } : Progress).readArguments
          [toString s.toNat] := rfl
  rw [read, hstart, Progress.readArguments_value rfl hvalue]
  simp only [Progress.settle, Progress.apply]
  rw [Option.getD_some, Setting.apply, count?_toString]
  rfl

end CommandLine

/-! ## Deadlines -/

/-- **Deadlines outlast connections, except at the limit.** A job has a deadline unless the whole
seconds of its timeout leave no room for the grace, and a batch is aborted exactly if it has a job
without a deadline. A deadline is at least four seconds later than the end of the connection. Every
number of seconds can be asked for on the command line, and all but the last five can be probed
with. -/
theorem deadline_outlasts_connection (jobs : List Job) :
    (∀ j ∈ jobs, s!"--timeout={j.connectionSeconds}s" ∈ j.command ∧ 1 ≤ j.connectionSeconds ∧
        (j.deadline? = none ↔ j.Overflows) ∧
        ∀ deadline, j.deadline? = some deadline →
          deadline.nanoseconds = j.timeout.nanoseconds + probeGrace.nanoseconds ∧
            (j.connectionSeconds + 4) * nanosecondsPerSecond ≤ deadline.nanoseconds ∧
            deadline.nanoseconds < (j.connectionSeconds + 6) * nanosecondsPerSecond) ∧
      (∀ concurrency m, Batch.Yields concurrency jobs m →
        (m = none ↔ ∃ j ∈ jobs, j.Overflows)) ∧
      ∀ s : UInt64,
        (∃ arguments o, CommandLine.read arguments = .ok o ∧ o.probeTimeoutSeconds = s) ∧
        ∀ (domain : String) (t : Topology) (config : ProbeConfig) (js : Jobs),
          (⟨.ofSeconds s, domain⟩ : JobBuilder).build t config none = .ok js →
            ∀ j ∈ js.valid, j.Overflows ↔ UInt64.size ≤ s.toNat + 5 := by
  refine ⟨fun j _ ↦ ⟨j.mem_command_connectionSeconds, Nat.le_max_right .., j.deadline?_eq_none_iff,
    fun deadline h ↦ ⟨Duration.nanoseconds_of_add? h, Job.connectionSeconds_bounds h⟩⟩,
    fun concurrency m ↦ Batch.Yields.eq_none_iff_overflows, fun s ↦ ⟨?_, ?_⟩⟩
  · exact ⟨_, _, CommandLine.read_probeTimeout s, rfl⟩
  · intro domain t config js hjs j hj
    rw [JobBuilder.overflows_iff hjs hj, Duration.seconds_ofSeconds]
    rfl

/-- A job with the longest timeout in whole seconds that can be probed with. -/
def patientJob : Job :=
  { Batch.pairJob "a" "b" with timeout := .ofSeconds 18446744073709551610 }

/-- Its deadline is behind its connection, and the batch is probed. -/
theorem deadline_outlasts_connection_patientJob :
    ∃ deadline, patientJob.deadline? = some deadline ∧
      patientJob.connectionSeconds = 18446744073709551610 ∧
      (18446744073709551610 + 4) * nanosecondsPerSecond ≤ deadline.nanoseconds ∧
      Batch.run (fun _ ↦ ⟨some .allowed, 0⟩) 1 [patientJob] ≠ none := by
  obtain ⟨hjobs, hbatches, -⟩ := deadline_outlasts_connection [patientJob]
  obtain ⟨-, -, hnone, hdeadline⟩ := hjobs patientJob (List.mem_singleton_self _)
  have hroom : ¬patientJob.Overflows := by decide
  obtain ⟨deadline, hsome⟩ := Option.ne_none_iff_exists'.mp (mt hnone.mp hroom)
  have hbatch := hbatches 1 _ (Batch.yields_run (fun _ ↦ ⟨some .allowed, 0⟩) 1 [patientJob])
  refine ⟨deadline, hsome, rfl, (hdeadline deadline hsome).2.1, mt hbatch.mp ?_⟩
  simpa using hroom

/-- **The longest timeout aborts every batch.** It can be asked for on the command line, and then
none of the jobs, of which there are four in `pair`, has a deadline. -/
theorem longest_timeout_aborts :
    ∃ o, CommandLine.read ["--mode", "ingress", "--probe-timeout-secs", "18446744073709551615"] =
        .ok o ∧
      ∃ js, (⟨.ofSeconds o.probeTimeoutSeconds, o.clusterDomain⟩ : JobBuilder).build .pair
          ⟨.all, .serviceName⟩ none = .ok js ∧ js.valid.length = 4 ∧
        (∀ j ∈ js.valid, j.deadline? = none) ∧
        ∀ concurrency m, Batch.Yields concurrency js.valid m → m = none := by
  have hread := CommandLine.read_probeTimeout 18446744073709551615
  have hcount : ((⟨.ofSeconds 18446744073709551615, "cluster.local"⟩ : JobBuilder).build .pair
      ⟨.all, .serviceName⟩ none).map (·.valid.length) = .ok 4 := by decide +kernel
  refine ⟨_, hread, ?_⟩
  cases hbuild : (⟨.ofSeconds 18446744073709551615, "cluster.local"⟩ : JobBuilder).build .pair
      ⟨.all, .serviceName⟩ none with
  | error e =>
    rw [hbuild] at hcount
    exact absurd hcount (by simp [Except.map])
  | ok js =>
    rw [hbuild] at hcount
    have hlength : js.valid.length = 4 := Except.ok.inj hcount
    have hoverflows : ∀ j ∈ js.valid, j.Overflows := fun j hj ↦
      (JobBuilder.overflows_iff hbuild hj).mpr (by decide)
    refine ⟨js, hbuild, hlength, fun j hj ↦ j.deadline?_eq_none_iff.mpr (hoverflows j hj), ?_⟩
    intro concurrency m hyields
    obtain ⟨j, hj⟩ := List.exists_mem_of_length_pos (by omega : 0 < js.valid.length)
    exact hyields.eq_none_iff_overflows.mpr ⟨j, hj, hoverflows j hj⟩

end Reachability
