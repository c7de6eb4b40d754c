import Reachability.Catalogue
import Reachability.CommandLine.Values
import Reachability.Job

/-!
# Options

What the command line can set. A setting that concerns only the connection to the cluster or the log
is checked like the others but leaves no trace among the options, which say what is verified and
how.

## Main definitions

* `Options`, `Options.default`: the values of all options.
* `Setting`: an option by name, and `Setting.apply`, which reads its value.
* `Options.render`: the options on one line.
-/

namespace Reachability

namespace CommandLine

/-! ## Options -/

/-- What is verified, and how. -/
structure Options where
  /-- The family of policies to verify. -/
  mode : Option CatalogueMode
  /-- Whether policies of the catalogue allow DNS. -/
  allowDns : Bool
  /-- Whether every matrix is shown. -/
  noisy : Bool
  /-- The files with further policies to verify. -/
  policyFiles : List String
  namespaces : List String
  pods : List String
  /-- The number of the port that every pod serves. -/
  port : UInt16
  protocol : Protocol
  /-- The port to which probing is restricted. -/
  probePort : Option String
  probeProtocol : Option String
  probeMode : ProbeMode
  probeTimeoutSeconds : UInt64
  probeConcurrency : UInt64
  podTimeoutSeconds : UInt64
  clusterDomain : String

/-- The options when nothing is set. -/
def Options.default : Options where
  mode := none
  allowDns := true
  noisy := false
  policyFiles := []
  namespaces := ["x", "y", "z"]
  pods := ["a", "b", "c"]
  port := 80
  protocol := .tcp
  probePort := none
  probeProtocol := none
  probeMode := .serviceName
  probeTimeoutSeconds := 5
  probeConcurrency := 10
  podTimeoutSeconds := 120
  clusterDomain := "cluster.local"

/-! ## Failures -/

/-- What can be wrong with a command line. -/
inductive UsageError where
  /-- Neither a family nor a file of policies is given, or a protocol without a port. -/
  | missingRequired
  /-- No value is given, or one that is not among the possible ones. -/
  | invalidValue
  /-- The value does not have the form that the option asks for. -/
  | refusedValue
  | unknownArgument
  /-- An option is given twice that can be given once. -/
  | repeatedOption
  /-- A flag is given a value. -/
  | tooManyValues
deriving DecidableEq, Repr

/-! ## Settings -/

/-- The options by name. -/
inductive Setting where
  | mode
  | allowDns
  | noisy
  | policy
  | namespaces
  | pods
  | port
  | protocol
  | probePort
  | probeProtocol
  | probeMode
  | probeTimeout
  | probeConcurrency
  | podTimeout
  | clusterDomain
  | logLevel
  | logFormat
  | cluster
  | context
  | user
  | configFile
  | actingUser
  | actingGroup
  | responseTimeout
deriving DecidableEq, Repr

namespace Setting

/-- Every setting with the name that follows two dashes on the command line. -/
def table : List (String × Setting) :=
  [("mode", mode), ("allow-dns", allowDns), ("noisy", noisy), ("policy", policy),
    ("namespaces", namespaces), ("pods", pods), ("port", port), ("protocol", protocol),
    ("probe-port", probePort), ("probe-protocol", probeProtocol), ("probe-mode", probeMode),
    ("probe-timeout-secs", probeTimeout), ("probe-concurrency", probeConcurrency),
    ("pod-timeout-secs", podTimeout), ("cluster-domain", clusterDomain),
    ("log-level", logLevel), ("log-format", logFormat), ("cluster", cluster),
    ("context", context), ("user", user), ("kubeconfig", configFile), ("as", actingUser),
    ("as-group", actingGroup), ("kube-api-response-headers-timeout", responseTimeout)]

/-- The setting with exactly the given name. -/
def ofName? (name : String) : Option Setting := table.lookup name

/-- Whether the setting stands alone on the command line. -/
def isFlag (s : Setting) : Bool := s == noisy

/-- Whether the setting may be given more than once. -/
def isRepeatable (s : Setting) : Bool := s == policy

/-- Sets an option to a value, or fails if there is none. -/
def set {α : Type} (complaint : UsageError) (value : Option α) (change : α → Options) :
    Except UsageError Options :=
  match value with
  | some a => .ok (change a)
  | none => .error complaint

/-- A path, which must not be empty. -/
def path? (s : String) : Option String := if s.isEmpty then none else some s

/-- The options after a setting has been given a value. A flag does not look at it. -/
def apply (s : Setting) (value : String) (o : Options) : Except UsageError Options :=
  match s with
  | mode => set .invalidValue (CatalogueMode.parse? value) fun m ↦ { o with mode := some m }
  | allowDns => set .invalidValue (bool? value) fun b ↦ { o with allowDns := b }
  | noisy => .ok { o with noisy := true }
  | policy => set .invalidValue (path? value) fun p ↦
      { o with policyFiles := o.policyFiles ++ [p] }
  | namespaces => set .refusedValue (names? value) fun names ↦ { o with namespaces := names }
  | pods => set .refusedValue (names? value) fun names ↦ { o with pods := names }
  | port => set .refusedValue (port? value) fun n ↦ { o with port := n }
  | protocol => set .refusedValue (Protocol.parse? value) fun p ↦ { o with protocol := p }
  | probePort => .ok { o with probePort := some value }
  | probeProtocol => .ok { o with probeProtocol := some value }
  | probeMode => set .refusedValue (ProbeMode.parse value).toOption fun m ↦
      { o with probeMode := m }
  | probeTimeout => set .refusedValue (count? value) fun n ↦ { o with probeTimeoutSeconds := n }
  | probeConcurrency => set .refusedValue (count? value) fun n ↦ { o with probeConcurrency := n }
  | podTimeout => set .refusedValue (count? value) fun n ↦ { o with podTimeoutSeconds := n }
  | clusterDomain => .ok { o with clusterDomain := value }
  | logLevel => if isLogFilter value then .ok o else .error .refusedValue
  | logFormat => if isLogFormat value then .ok o else .error .refusedValue
  | configFile => set .invalidValue (path? value) fun _ ↦ o
  | responseTimeout => if isTimeLimit value then .ok o else .error .refusedValue
  | cluster | context | user | actingUser | actingGroup => .ok o

end Setting

/-! ## Showing options -/

/-- An optional value, which says so. -/
def showOption : Option String → String
  | some s => s!"Some({s})"
  | none => "None"

/-- A list in brackets. -/
def showList (items : List String) : String := "[" ++ ", ".intercalate items ++ "]"

/-- A family of policies. -/
def showMode : CatalogueMode → String
  | .rules .ingress => "Ingress"
  | .rules .egress => "Egress"
  | .targets .ingress => "VaryIngress"
  | .targets .egress => "VaryEgress"

/-- A protocol. -/
def showProtocol : Protocol → String
  | .tcp => "Tcp"
  | .udp => "Udp"
  | .sctp => "Sctp"

/-- A way to address destinations. -/
def showProbeMode : ProbeMode → String
  | .serviceName => "ServiceName"
  | .podAddress => "PodIp"

/-- A list of names. -/
def showNames (names : List String) : String := s!"Names({showList (names.map Text.quoted)})"

/-- Every option with the text of its value, in the order in which they are shown. -/
def Options.entries (o : Options) : List (String × String) :=
  [("mode", showOption (o.mode.map showMode)),
    ("allow_dns", toString o.allowDns),
    ("noisy", toString o.noisy),
    ("policy", showList (o.policyFiles.map Text.quoted)),
    ("namespaces", showNames o.namespaces),
    ("pods", showNames o.pods),
    ("port", toString o.port.toNat),
    ("protocol", showProtocol o.protocol),
    ("probe_port", showOption (o.probePort.map Text.quoted)),
    ("probe_protocol", showOption (o.probeProtocol.map Text.quoted)),
    ("probe_mode", showProbeMode o.probeMode),
    ("probe_timeout_secs", toString o.probeTimeoutSeconds.toNat),
    ("probe_concurrency", toString o.probeConcurrency.toNat),
    ("pod_timeout_secs", toString o.podTimeoutSeconds.toNat),
    ("cluster_domain", Text.quoted o.clusterDomain)]

/-- The options on one line. -/
def Options.render (o : Options) : String :=
  ", ".intercalate (o.entries.map fun (name, value) ↦ s!"{name}: {value}")

end CommandLine

end Reachability
