import Reachability.Proofs.Numeral
import Reachability.Proofs.Resources

/-!
# Serving declared ports

A container runs one program. It takes a subcommand, which says what kind of server it is, and
flags. It takes no other argument, and of a flag that is repeated it keeps the last value. So there
is one server for each container, with one number for TCP and UDP, while the ports for SCTP are in
the environment.

The arguments are put together port by port, and every port brings a subcommand
(`Agnhost.positionals_arguments`). So a container that declares one port is served, and the
containers of a conventional model are of this kind, but a container that declares more is not
served, whatever the protocols are.
-/

namespace Reachability

namespace Agnhost

/-! ## Reading a command -/

/-- The name and the value of a flag. A flag without a value is switched on. -/
def flag? (argument : String) : Option (String × String) :=
  match argument.toList with
  | '-' :: '-' :: body =>
    some (String.ofList (body.takeWhile (· ≠ '=')), match body.dropWhile (· ≠ '=') with
      | '=' :: value => String.ofList value
      | _ => "true")
  | _ => none

/-- The arguments that are no flags. -/
def positionals (arguments : List String) : List String :=
  arguments.filter fun argument ↦ (flag? argument).isNone

/-- The flags among the arguments. -/
def flags (arguments : List String) : List (String × String) := arguments.filterMap flag?

/-- The last value that a flag is given. -/
def lastValue (name : String) (flags : List (String × String)) : Option String :=
  flags.reverse.lookup name

/-- The command of a container is the program with these arguments. -/
def Runs (container : Tree) (arguments : List String) : Prop :=
  container.at? ["command"] = some (Encode.texts ("/agnhost" :: arguments))

/-- The environment of a container has a variable of this name. -/
def HasVariable (container : Tree) (name : String) : Prop :=
  ∃ env, container.at? ["env"] = some (.list env) ∧ ∃ v ∈ env,
    v.at? ["name"] = some (.text name)

/-- The subcommand serves the port. The server for SCTP finds the port in the environment, and the
one for TCP and UDP finds the protocol and the number among its flags. -/
def Selects (container : Tree) (subcommand : String) (flags : List (String × String))
    (p : ContainerPort) : Prop :=
  match p.protocol with
  | .sctp => subcommand = "porter" ∧ HasVariable container s!"SERVE_SCTP_PORT_{p.number.toNat}"
  | protocol => subcommand = "serve-hostname" ∧
      lastValue protocol.lowerName flags = some "true" ∧
      (lastValue "port" flags).bind (Text.decimal? ·.toList) = some p.number.toNat

/-- The command of a container is a subcommand, followed by flags, that serves all these ports. -/
def Serves (container : Tree) (ports : List ContainerPort) : Prop :=
  ∃ subcommand arguments, Runs container (subcommand :: arguments) ∧
    positionals (subcommand :: arguments) = [subcommand] ∧
    ∀ p ∈ ports, Selects container subcommand (flags arguments) p

theorem lastValue_append (name : String) (fs gs : List (String × String)) :
    lastValue name (fs ++ gs) = (lastValue name gs).or (lastValue name fs) := by
  rw [lastValue, List.reverse_append, List.lookup_append]
  rfl

/-! ## The arguments for a port -/

/-- The subcommand for a port. -/
def subcommand (p : ContainerPort) : String :=
  match p.protocol with
  | .sctp => "porter"
  | _ => "serve-hostname"

/-- The arguments behind the subcommand for a port. -/
def options (p : ContainerPort) : List String :=
  match p.protocol with
  | .sctp => []
  | protocol => ["--http=false", s!"--{protocol.lowerName}", s!"--port={p.number.toNat}"]

/-- What the arguments behind the subcommand for a port say. -/
def settings (p : ContainerPort) : List (String × String) :=
  match p.protocol with
  | .sctp => []
  | protocol => [("http", "false"), (protocol.lowerName, "true"),
      ("port", toString p.number.toNat)]

theorem flag?_port (n : Nat) : flag? s!"--port={n}" = some ("port", toString n) := by
  have hchars : (s!"--port={n}").toList = "--port=".toList ++ (toString n).toList := by
    simp [toString]
  have hread : flag? s!"--port={n}" = some ("port", String.ofList (toString n).toList) := by
    rw [flag?, hchars]
    simp
  rw [hread, String.ofList_toList]

theorem flag?_subcommand (p : ContainerPort) : flag? (subcommand p) = none := by
  rw [subcommand]
  split <;> decide

theorem map_flag?_options (p : ContainerPort) : (options p).map flag? = (settings p).map some := by
  have hhttp : flag? "--http=false" = some ("http", "false") := by decide
  have hprotocol (q : Protocol) : flag? s!"--{q.lowerName}" = some (q.lowerName, "true") := by
    cases q <;> decide
  obtain ⟨name, number, protocol⟩ := p
  cases protocol
  case sctp => rfl
  all_goals simp only [options, settings, List.map_cons, List.map_nil, hhttp, hprotocol, flag?_port]

theorem flags_options (p : ContainerPort) : flags (options p) = settings p := by
  calc flags (options p) = ((options p).map flag?).filterMap id := by rw [List.filterMap_map]; rfl
    _ = ((settings p).map some).filterMap id := by rw [map_flag?_options]
    _ = settings p := by rw [List.filterMap_map]; exact List.filterMap_some

theorem positionals_options (p : ContainerPort) : positionals (options p) = [] := by
  refine List.filter_eq_nil_iff.mpr fun argument h ↦ ?_
  have hflag : flag? argument ∈ (settings p).map some :=
    map_flag?_options p ▸ List.mem_map_of_mem h
  obtain ⟨f, -, hf⟩ := List.mem_map.mp hflag
  simp [← hf]

/-! ## The arguments for several ports -/

/-- The arguments for ports, in their order. -/
def arguments (ports : List ContainerPort) : List String :=
  ports.flatMap fun p ↦ subcommand p :: options p

/-- Every port brings one positional argument. -/
theorem positionals_arguments (ports : List ContainerPort) :
    positionals (arguments ports) = ports.map subcommand := by
  rw [positionals, arguments, List.filter_flatMap, List.map_eq_flatMap]
  refine List.flatMap_congr fun p _ ↦ ?_
  rw [List.filter_cons_of_pos (by rw [flag?_subcommand]; rfl)]
  exact congrArg _ (positionals_options p)

theorem flags_arguments (ports : List ContainerPort) :
    flags (arguments ports) = ports.flatMap settings := by
  rw [flags, arguments, List.filterMap_flatMap]
  refine List.flatMap_congr fun p _ ↦ ?_
  rw [List.filterMap_cons_none (flag?_subcommand p)]
  exact flags_options p

/-- Of the ports for TCP and UDP, the flag for the port keeps the last one. -/
theorem lastValue_port (ports : List ContainerPort) :
    lastValue "port" (flags (arguments ports)) =
      (ports.filter (·.protocol != .sctp)).getLast?.map (toString ·.number.toNat) := by
  rw [flags_arguments]
  -- a value of the last port hides the values before it, so ports are taken from the end
  induction ports using List.reverseRecOn with
  | nil => rfl
  | append_singleton ports p ih =>
    rw [List.flatMap_append, List.flatMap_singleton, lastValue_append, ih, List.filter_append,
      List.getLast?_append]
    obtain ⟨name, number, protocol⟩ := p
    cases protocol <;> rfl

/-! ## Containers -/

variable {c : Container}

theorem runs_container_iff {args : List String} :
    Runs (Manifest.container c) args ↔ args = arguments c.ports := by
  have hcommand : Manifest.serverCommand c = "/agnhost" :: arguments c.ports := by
    rw [Manifest.serverCommand, arguments]
    refine congrArg _ (List.flatMap_congr fun p _ ↦ ?_)
    obtain ⟨name, number, protocol⟩ := p
    cases protocol <;> rfl
  have hfield : (Manifest.container c).at? ["command"] =
      some (Encode.texts (Manifest.serverCommand c)) := rfl
  have htexts : Function.Injective Encode.texts := fun l l' h ↦
    List.map_injective_iff.mpr (fun _ _ ↦ Tree.text.inj) (Tree.list.inj h)
  rw [Runs, hfield, hcommand, Option.some.injEq, htexts.eq_iff, List.cons.injEq,
    and_iff_right rfl, eq_comm]

theorem hasVariable_container {p : ContainerPort} (hp : p ∈ c.ports) (hsctp : p.protocol = .sctp) :
    HasVariable (Manifest.container c) s!"SERVE_SCTP_PORT_{p.number.toNat}" := by
  have hasked : p ∈ c.ports.filter (·.protocol == .sctp) :=
    List.mem_filter.mpr ⟨hp, by simp [hsctp]⟩
  have hvariable : Tree.record [("name", .text s!"SERVE_SCTP_PORT_{p.number.toNat}"),
      ("value", .text "foo")] ∈ Manifest.serverEnvironment c := List.mem_map_of_mem hasked
  -- an empty environment would be left out of the object
  have henv : ¬(Manifest.serverEnvironment c).isEmpty := by
    rw [List.isEmpty_iff]
    exact List.ne_nil_of_mem hvariable
  refine ⟨Manifest.serverEnvironment c, ?_, _, hvariable, rfl⟩
  simp only [Manifest.container, if_neg henv]
  rfl

theorem selects_container {p : ContainerPort} (hp : p ∈ c.ports) :
    Selects (Manifest.container c) (subcommand p) (settings p) p := by
  have hnumber : Text.decimal? (toString p.number.toNat).toList = some p.number.toNat := by
    rw [Nat.toString_eq_repr, Nat.toList_repr]
    exact Text.decimal?_toDigits _
  obtain ⟨name, number, protocol⟩ := p
  cases protocol
  case sctp => exact ⟨rfl, hasVariable_container hp rfl⟩
  all_goals exact ⟨rfl, rfl, hnumber⟩

/-- A container is served exactly if it declares one port. -/
theorem serves_container_iff : Serves (Manifest.container c) c.ports ↔ ∃ p, c.ports = [p] := by
  constructor
  · rintro ⟨command, args, hruns, hpositionals, -⟩
    rw [runs_container_iff.mp hruns, positionals_arguments] at hpositionals
    obtain ⟨p, hp, -⟩ := List.map_eq_singleton_iff.mp hpositionals
    exact ⟨p, hp⟩
  · rintro ⟨p, hp⟩
    have harguments : subcommand p :: options p = arguments c.ports := by
      rw [hp, arguments, List.flatMap_singleton]
    refine ⟨subcommand p, options p, runs_container_iff.mpr harguments, ?_, ?_⟩
    · rw [harguments, positionals_arguments, hp]
      rfl
    · rw [flags_options, hp]
      intro q hq
      obtain rfl := List.mem_singleton.mp hq
      exact selects_container (hp ▸ hq)

end Agnhost

/-! ## Pods -/

namespace Manifest

/-- The containers of a workload are so related, one by one, to those of its pod. -/
def ForContainers (R : Container → Tree → Prop) (w : Workload) : Prop :=
  ∃ nodes, (pod w).at? ["spec", "containers"] = some (.list nodes) ∧
    List.Forall₂ R w.containers nodes

theorem forContainers_iff {R : Container → Tree → Prop} {w : Workload} :
    ForContainers R w ↔ ∀ c ∈ w.containers, R c (container c) := by
  have hnodes : (pod w).at? ["spec", "containers"] = some (.list (w.containers.map container)) :=
    rfl
  have hrelated : List.Forall₂ R w.containers (w.containers.map container) ↔
      ∀ c ∈ w.containers, R c (container c) := by
    rw [List.forall₂_map_right_iff, List.forall₂_same]
  rw [← hrelated]
  constructor
  · rintro ⟨nodes, hfield, h⟩
    obtain rfl := Tree.list.inj (Option.some.inj (hnodes.symm.trans hfield))
    exact h
  · exact fun h ↦ ⟨_, hnodes, h⟩

end Manifest

theorem Topology.single_port_conventional {namespaces pods : List String}
    {ports : List ServicePort} {w : Workload}
    (hw : w ∈ (conventional namespaces pods ports).workloads) :
    ∀ c ∈ w.containers, ∃ p, c.ports = [p] := by
  refine forall_workloads_conventional (P := fun w ↦ ∀ c ∈ w.containers, ∃ p, c.ports = [p])
    (fun _ _ c hc ↦ ?_) namespaces pods w hw
  obtain ⟨port, -, rfl⟩ := List.mem_map.mp hc
  exact ⟨_, rfl⟩

/-- **A pod serves its ports unless a container declares several.** Every container runs the program
with one positional argument for each declared port, and with the last of the ports for TCP and UDP
in the flag for the port, so it is served exactly if it declares one port. A pod serves all ports
that it declares exactly if no container declares more, as in a conventional model. -/
theorem single_ports_served (w : Workload) :
    Manifest.ForContainers (fun c node ↦
        (∃ arguments, Agnhost.Runs node arguments ∧
          Agnhost.positionals arguments = c.ports.map Agnhost.subcommand ∧
          Agnhost.lastValue "port" (Agnhost.flags arguments) =
            (c.ports.filter (·.protocol != .sctp)).getLast?.map (toString ·.number.toNat)) ∧
        (Agnhost.Serves node c.ports ↔ ∃ p, c.ports = [p])) w ∧
      (Manifest.ForContainers (fun c node ↦ c.ports ≠ [] → Agnhost.Serves node c.ports) w ↔
        ∀ c ∈ w.containers, c.ports.length ≤ 1) ∧
      ∀ namespaces pods ports, w ∈ (Topology.conventional namespaces pods ports).workloads →
        Manifest.ForContainers (fun c node ↦ Agnhost.Serves node c.ports) w := by
  refine ⟨?_, ?_, fun namespaces pods ports ↦ ?_⟩
  · refine Manifest.forContainers_iff.mpr fun c _ ↦ ⟨?_, Agnhost.serves_container_iff⟩
    exact ⟨_, Agnhost.runs_container_iff.mpr rfl, Agnhost.positionals_arguments c.ports,
      Agnhost.lastValue_port c.ports⟩
  · rw [Manifest.forContainers_iff]
    refine forall₂_congr fun c _ ↦ ?_
    rw [Agnhost.serves_container_iff, ← List.length_eq_one_iff, ← List.length_pos_iff]
    omega
  · exact fun hw ↦ Manifest.forContainers_iff.mpr fun c hc ↦
      Agnhost.serves_container_iff.mpr (Topology.single_port_conventional hw c hc)

/-- A pod whose only container declares two ports for SCTP. -/
def twinPod : Workload where
  key := ⟨"x", "a"⟩
  labels := ∅
  address := none
  containers := [⟨"c", [⟨none, 80, .sctp⟩, ⟨none, 81, .sctp⟩]⟩]

/-- A topology of this pod. -/
def Topology.twins : Topology where
  namespaces := SortedMap.ofList [("x",
    { Namespace.new "x" ∅ with workloads := SortedMap.ofList [("a", twinPod)] })]

theorem Topology.built_twins : twins.Built := by
  have hsteps : (do (← Topology.empty.addNamespace "x" ∅).addWorkload twinPod) = .ok twins := by
    decide +kernel
  obtain ⟨t, hadd, hsteps⟩ := bind_eq_ok_iff.mp hsteps
  exact (Built.empty.addNamespace hadd).addWorkload hsteps

/-- **Two ports of one container are not served.** -/
theorem twins_not_served : Topology.twins.Built ∧ twinPod ∈ Topology.twins.workloads ∧
    ¬Manifest.ForContainers (fun c node ↦ c.ports ≠ [] → Agnhost.Serves node c.ports) twinPod := by
  refine ⟨Topology.built_twins, by decide +kernel, fun h ↦ ?_⟩
  have hserves := Manifest.forContainers_iff.mp h _ (List.mem_singleton_self _) (by simp)
  obtain ⟨p, hp⟩ := Agnhost.serves_container_iff.mp hserves
  exact absurd (congrArg List.length hp) (by simp)

end Reachability
