import Reachability.Address
import Reachability.Binary64
import Reachability.Catalogue
import Reachability.Cluster.Exec
import Reachability.Cluster.Policies
import Reachability.Cluster.Readiness
import Reachability.Cluster.Request
import Reachability.Cluster.Resources
import Reachability.CommandLine.Options
import Reachability.CommandLine.Pattern
import Reachability.CommandLine.Reading
import Reachability.CommandLine.Values
import Reachability.Comparison
import Reachability.Decision
import Reachability.Document.Conversion
import Reachability.Document.Decoding
import Reachability.Document.Encoding
import Reachability.Document.SelectorText
import Reachability.Document.Timestamp
import Reachability.Document.Types
import Reachability.Duration
import Reachability.Error
import Reachability.Flow
import Reachability.Job
import Reachability.Json.Numeral
import Reachability.Json.Reader
import Reachability.Json.Writer
import Reachability.Matrix
import Reachability.Network
import Reachability.Outcome
import Reachability.Policy
import Reachability.Port
import Reachability.Prediction
import Reachability.Probe
import Reachability.Selector
import Reachability.SortedMap
import Reachability.Table
import Reachability.Text.Alphanumeric
import Reachability.Text.Blank
import Reachability.Text.Decimal
import Reachability.Text.Quoted
import Reachability.Text.Shortest
import Reachability.Text.Unprintable
import Reachability.Topology
import Reachability.Tree
import Reachability.Verification
import Reachability.Yaml.Cursor
import Reachability.Yaml.Node
import Reachability.Yaml.Parser
import Reachability.Yaml.Reader
import Reachability.Yaml.Resolution
import Reachability.Yaml.Scalar
import Reachability.Yaml.Scanner
import Reachability.Yaml.Token
import Reachability.Yaml.Writer
import Reachability.Proofs.SortedMap
import Reachability.Proofs.Topology
import Reachability.Proofs.Decision
import Reachability.Proofs.Address
import Reachability.Proofs.Conversion
import Reachability.Proofs.Catalogue
import Reachability.Proofs.Acceptance
import Reachability.Proofs.Fidelity
import Reachability.Proofs.Batch
import Reachability.Proofs.Job
import Reachability.Proofs.ProbeSettings
import Reachability.Proofs.Prediction
import Reachability.Proofs.Command
import Reachability.Proofs.Comparison
import Reachability.Proofs.OuterJoin
import Reachability.Proofs.GroupedMatrix
import Reachability.Proofs.Verification
import Reachability.Proofs.Outcome
import Reachability.Proofs.Verdict
import Reachability.Proofs.Dns
import Reachability.Proofs.PortVariants
import Reachability.Proofs.PeerVariants
import Reachability.Proofs.Selector
import Reachability.Proofs.Additivity
import Reachability.Proofs.Application
import Reachability.Proofs.Rearrangement
import Reachability.Proofs.Refinement
import Reachability.Proofs.Interleaving
import Reachability.Proofs.Deadline
import Reachability.Proofs.Drawing
import Reachability.Proofs.Enumeration
import Reachability.Proofs.Grid
import Reachability.Proofs.Cellwise
import Reachability.Proofs.SinglePort
import Reachability.Proofs.Change
import Reachability.Proofs.Readiness
import Reachability.Proofs.Resources
import Reachability.Proofs.Serving
import Reachability.Proofs.Layout
import Reachability.Proofs.PlainTree
import Reachability.Proofs.JsonText
import Reachability.Proofs.SelectorText
import Reachability.Proofs.Yaml.Characters
import Reachability.Proofs.Yaml.Scalar
import Reachability.Proofs.Yaml.Block
import Reachability.Proofs.Yaml.Scanner
import Reachability.Proofs.Yaml.Leaf
import Reachability.Proofs.Yaml.Collection
import Reachability.Proofs.Yaml.Written
import Reachability.Proofs.Yaml.Parser
import Reachability.Proofs.Yaml.Value
import Reachability.Proofs.Yaml.Stream
import Reachability.Proofs.YamlText
