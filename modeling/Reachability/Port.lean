import Reachability.SortedMap
import Reachability.Text.Blank
import Reachability.Text.Decimal
import Reachability.Text.Quoted

/-!
# Ports

A service listens on a protocol and a number. Ports are ordered by protocol, in the order TCP, UDP,
SCTP, and then by number; this is the order in which a matrix lists them. A port reference is what a
user writes to pick a port of every workload: a number or a declared name.

## Main definitions

* `Protocol`, `ServicePort`: what a flow is addressed to, with the order of ports.
* `PortRef`: a reference to a port by number or by name, and `PortRef.parse`.
-/

namespace Reachability

/-! ## Protocols -/

/-- The transport protocols that a policy can tell apart. -/
inductive Protocol where
  | tcp
  | udp
  | sctp
deriving DecidableEq, Repr

namespace Protocol

/-- The position of a protocol in the order of ports. -/
def rank : Protocol → Nat
  | tcp => 0
  | udp => 1
  | sctp => 2

theorem rank_injective {p q : Protocol} (h : p.rank = q.rank) : p = q := by
  cases p <;> cases q <;> first | rfl | exact absurd h (by decide)

instance : Ord Protocol := ⟨compareOn rank⟩

instance : Std.TransOrd Protocol := inferInstanceAs (Std.TransCmp (compareOn rank))

instance : Std.LawfulEqOrd Protocol where
  compare_self := Std.ReflCmp.compare_self
  eq_of_compare h := rank_injective (Std.LawfulEqOrd.eq_of_compare h)

/-- The name of a protocol, as policies and tables write it. -/
def name : Protocol → String
  | tcp => "TCP"
  | udp => "UDP"
  | sctp => "SCTP"

/-- The name of a protocol in lower case, as it occurs in port names and commands. -/
def lowerName : Protocol → String
  | tcp => "tcp"
  | udp => "udp"
  | sctp => "sctp"

instance : ToString Protocol := ⟨name⟩

/-- The protocol with a given name, in any mixture of ASCII cases. -/
def parse? (s : String) : Option Protocol :=
  let lower := s.toList.map Char.toLower
  if lower = ['t', 'c', 'p'] then some tcp
  else if lower = ['u', 'd', 'p'] then some udp
  else if lower = ['s', 'c', 't', 'p'] then some sctp
  else none

/-- The protocol with a given name, or the complaint about the name. -/
def parse (s : String) : Except String Protocol :=
  match parse? s with
  | some p => .ok p
  | none => .error s!"invalid protocol: {Text.quoted s}"

end Protocol

/-! ## Service ports -/

/-- A port as it is probed and as it keys the cells of a matrix. -/
structure ServicePort where
  protocol : Protocol
  number : UInt16
deriving DecidableEq

namespace ServicePort

/-- Ports are ordered by protocol first. -/
instance : Ord ServicePort := ⟨compareLex (compareOn protocol) (compareOn number)⟩

instance : Std.TransOrd ServicePort :=
  inferInstanceAs (Std.TransCmp (compareLex (compareOn protocol) (compareOn number)))

instance : Std.LawfulEqOrd ServicePort :=
  lawfulEqCmp_compareLex fun a b hp hn ↦ by cases a; cases b; simp_all

instance : ToString ServicePort := ⟨fun p ↦ s!"{p.protocol}/{p.number.toNat}"⟩

end ServicePort

/-! ## References to ports -/

/-- What picks a port of a workload: its number, or the name that the workload declares for it. -/
inductive PortRef where
  | number (n : UInt16)
  | name (s : String)
deriving DecidableEq

namespace PortRef

instance : ToString PortRef where
  toString
    | number n => toString n.toNat
    | name s => s

/-- Reads a port reference, blanks around it aside. A text of digits only is a number and must be a
port that can be connected to; every other nonempty text is a name. -/
def parse (s : String) : Except String PortRef :=
  let t := Text.trim s.toList
  let invalid := s!"invalid port: {Text.quoted (String.ofList t)}"
  if t.isEmpty then .error invalid
  else match Text.decimal? t with
    | some n => if 0 < n ∧ n < 65536 then .ok (number n.toUInt16) else .error invalid
    | none => .ok (name (String.ofList t))

end PortRef

end Reachability
