import Mathlib.Tactic.MkIffOfInductiveProp
import Reachability.Proofs.Conversion

/-!
# Which documents are policies

Reading a document gives a policy or a complaint. When it gives a policy (`PolicyDocument.Valid`)
and what the policy then is (`PolicyDocument.StandsFor`) is said here without the reader, part by
part and without an order: the order in which a document is checked shows only in which of several
complaints is made.

The two predicates of a part are joined by `Reads`, and `Reads` is what is carried from the parts to
the whole. A part is read by a few checks one after the other (`Reads.bind`), and a field is a list
of parts (`Reads.mapM`), which may be absent (`Reads.mapM_option`).
-/

namespace Reachability

/-! ## Readers that accept exactly the valid -/

/-- The result is a value exactly if the input is valid, and then the value is a good one. -/
def Reads {ε α : Type} (valid : Prop) (good : α → Prop) : Except ε α → Prop
  | .ok a => valid ∧ good a
  | .error _ => ¬valid

namespace Reads

variable {ε α β : Type} {V W : Prop}

theorem mono {G G' : α → Prop} {x : Except ε α} (h : Reads V G x) (hvalid : V ↔ W)
    (hgood : ∀ a, G a → G' a) : Reads W G' x := by
  cases x with
  | error e => exact mt hvalid.mpr h
  | ok a => exact ⟨hvalid.mp h.1, hgood a h.2⟩

/-- What the first value is like may be used for the rest. -/
theorem bind {G : α → Prop} {H : β → Prop} {x : Except ε α} {f : α → Except ε β} (hx : Reads V G x)
    (hf : ∀ a, G a → Reads W H (f a)) : Reads (V ∧ W) H (x >>= f) := by
  cases x with
  | error e => exact fun h ↦ hx h.1
  | ok a =>
    have hrest := hf a hx.2
    rw [ok_bind]
    cases hfa : f a with
    | error e =>
      rw [hfa] at hrest
      exact fun h ↦ hrest h.2
    | ok b =>
      rw [hfa] at hrest
      exact ⟨⟨hx.1, hrest.1⟩, hrest.2⟩

/-- The last of several checks can no longer fail. -/
theorem map {G : α → Prop} {H : β → Prop} {x : Except ε α} {f : α → β} (hx : Reads V G x)
    (hf : ∀ a, G a → H (f a)) : Reads V H (x >>= fun a ↦ pure (f a)) := by
  cases x with
  | error e => exact hx
  | ok a => exact ⟨hx.1, hf a hx.2⟩

theorem refuse {G : α → Prop} (h : ¬V) (e : ε) : Reads V G (throw e : Except ε α) := h

theorem mapError {ε' : Type} {G : α → Prop} {x : Except ε α} (h : Reads V G x) (f : ε → ε') :
    Reads V G (x.mapError f) := by
  cases x with
  | error e => exact h
  | ok a => exact h

theorem exists_ok {G : α → Prop} {x : Except ε α} (h : Reads V G x) (hvalid : V) :
    ∃ a, x = .ok a ∧ G a := by
  cases x with
  | error e => exact absurd hvalid h
  | ok a => exact ⟨a, rfl, h.2⟩

theorem exists_ok_iff {G : α → Prop} {x : Except ε α} (h : Reads V G x) :
    (∃ a, x = .ok a) ↔ V := by
  cases x with
  | error e => exact iff_of_false (by simp) h
  | ok a => exact iff_of_true ⟨a, rfl⟩ h.1

section Lists

variable {f : α → Except ε β} {Valid : α → Prop} {Good : α → β → Prop}

theorem mapM (h : ∀ a, Reads (Valid a) (Good a) (f a)) (l : List α) :
    Reads (∀ a ∈ l, Valid a) (List.Forall₂ Good l) (l.mapM f) := by
  induction l with
  | nil => exact ⟨by simp, .nil⟩
  | cons a l ih =>
    rw [List.mapM_cons]
    rw [List.forall_mem_cons]
    exact (h a).bind fun b hb ↦ ih.map fun results hresults ↦ .cons hb hresults

theorem mapM_option (h : ∀ a, Reads (Valid a) (Good a) (f a)) (o : Option α) :
    Reads (∀ a ∈ o, Valid a) (Option.Rel Good o) (o.mapM f) := by
  cases o with
  | none => exact ⟨by simp, .none⟩
  | some a =>
    have ha := h a
    rw [Option.mapM_some]
    cases hfa : f a with
    | error e =>
      rw [hfa] at ha
      exact fun hvalid ↦ ha (hvalid a rfl)
    | ok b =>
      rw [hfa] at ha
      refine ⟨fun a' ha' ↦ ?_, .some ha.2⟩
      rw [← Option.some.inj ha']
      exact ha.1

end Lists

end Reads

/-! ## Selectors -/

/-- The operator is a known one. -/
def WireRequirement.Valid (r : WireRequirement) : Prop :=
  r.operator ∈ ["In", "NotIn", "Exists", "DoesNotExist"]

/-- The requirement states what the document writes. -/
structure WireRequirement.StandsFor (r : WireRequirement) (q : Requirement) : Prop where
  key : q.key = r.key
  operator : q.operator.name = r.operator
  values : ∀ v, q.values.contains v ↔ v ∈ r.values.getD []

/-- All operators are known. -/
def WireSelector.Valid (s : WireSelector) : Prop := ∀ r ∈ s.matchExpressions.getD [], r.Valid

/-- The selector has the same parts. -/
structure WireSelector.StandsFor (s : WireSelector) (q : Selector) : Prop where
  labels : q.matchLabels = s.matchLabels
  requirements : Option.Rel (List.Forall₂ WireRequirement.StandsFor) s.matchExpressions
    q.requirements

theorem Operator.reads_parse (s : String) :
    Reads (s ∈ ["In", "NotIn", "Exists", "DoesNotExist"]) (·.name = s) (parse s) := by
  have hnames : ["In", "NotIn", "Exists", "DoesNotExist"] =
      [anyOf, noneOf, present, absent].map name := rfl
  rw [parse, hnames, List.mem_map]
  cases hfind : parse? s with
  | some op =>
    have hname : op.name = s := by simpa using List.find?_some hfind
    exact ⟨⟨op, List.mem_of_find?_eq_some hfind, hname⟩, hname⟩
  | none =>
    rintro ⟨op, hop, hname⟩
    exact List.find?_eq_none.mp hfind op hop (by simpa using hname)

theorem Requirement.reads_ofWire (r : WireRequirement) : Reads r.Valid r.StandsFor (ofWire r) := by
  refine (Operator.reads_parse r.operator).map fun op hop ↦ ⟨rfl, hop, fun v ↦ ?_⟩
  rw [SortedSet.ofList, SortedMap.contains, SortedMap.isSome_get?_ofList]
  simp

theorem Selector.reads_ofWire (s : WireSelector) : Reads s.Valid s.StandsFor (ofWire s) := by
  have hparts := Reads.mapM_option (Reads.mapM Requirement.reads_ofWire) s.matchExpressions
  have hread : Reads _ s.StandsFor (ofWire s) :=
    hparts.map fun requirements hrequirements ↦ ⟨rfl, hrequirements⟩
  refine hread.mono ?_ fun _ h ↦ h
  rw [WireSelector.Valid]
  cases s.matchExpressions <;> simp

/-! ## Peers -/

/-- The text is a network, or else a plain address and stands for the network of that address. -/
def NamesNetwork (cidr : String) (net : Network) : Prop :=
  Network.parse? cidr = some net ∨
    Network.parse? cidr = none ∧ ∃ a, Address.parse? cidr = some a ∧ net = .host a

/-- The network and all its exceptions are networks or plain addresses. -/
def WireNetwork.Valid (n : WireNetwork) : Prop :=
  ∀ cidr ∈ n.cidr :: n.except.getD [],
    (Network.parse? cidr).isSome ∨ (Address.parse? cidr).isSome

/-- The same network with the same exceptions, in the same order. -/
structure WireNetwork.StandsFor (n : WireNetwork) (m : NetworkMatch) : Prop where
  network : NamesNetwork n.cidr m.network
  except : List.Forall₂ NamesNetwork (n.except.getD []) m.except

/-- A peer is either a network or it has a selector, and it is not both. -/
@[mk_iff]
structure WirePeer.Valid (p : WirePeer) : Prop where
  pods : ∀ s ∈ p.podSelector, s.Valid
  namespaces : ∀ s ∈ p.namespaceSelector, s.Valid
  network : ∀ n ∈ p.network, n.Valid ∧ p.podSelector = none ∧ p.namespaceSelector = none
  selects : p.network = none → p.podSelector ≠ none ∨ p.namespaceSelector ≠ none

/-- The peer that is meant in a namespace. Without a namespace selector that is the namespace
itself, and without a pod selector all pods are meant. -/
def WirePeer.StandsFor (ns : String) (p : WirePeer) : Peer → Prop
  | .network m => (∃ n ∈ p.network, n.StandsFor m) ∧ p.podSelector = none ∧
      p.namespaceSelector = none
  | .pods (.named name) pods => name = ns ∧ p.network = none ∧ p.namespaceSelector = none ∧
      ∃ s ∈ p.podSelector, s.StandsFor pods
  | .pods (.selected namespaces) pods => p.network = none ∧
      (∃ s ∈ p.namespaceSelector, s.StandsFor namespaces) ∧
      (p.podSelector = none ∧ pods = .everything ∨ ∃ s ∈ p.podSelector, s.StandsFor pods)

namespace Policy

theorem reads_networkOfWire (cidr : String) :
    Reads ((Network.parse? cidr).isSome ∨ (Address.parse? cidr).isSome) (NamesNetwork cidr)
      (networkOfWire cidr) := by
  rw [networkOfWire, Network.parseOrHost?]
  cases hnet : Network.parse? cidr with
  | some net => exact ⟨Or.inl rfl, Or.inl hnet⟩
  | none =>
    cases haddress : Address.parse? cidr with
    | some a => exact ⟨Or.inr rfl, Or.inr ⟨hnet, a, haddress, rfl⟩⟩
    | none => exact not_or.mpr ⟨by simp, by simp⟩

theorem reads_networkMatch (n : WireNetwork) :
    Reads n.Valid (fun p ↦ ∃ m, p = Peer.network m ∧ n.StandsFor m) (do
      let net ← networkOfWire n.cidr
      return Peer.network ⟨net, ← (n.except.getD []).mapM networkOfWire⟩) := by
  rw [WireNetwork.Valid, List.forall_mem_cons]
  refine (reads_networkOfWire n.cidr).bind fun net hnet ↦ ?_
  refine (Reads.mapM reads_networkOfWire _).map fun except hexcept ↦ ?_
  exact ⟨_, rfl, hnet, hexcept⟩

theorem reads_peerOfWire (ns : String) (p : WirePeer) :
    Reads p.Valid (p.StandsFor ns) (peerOfWire ns p) := by
  rw [WirePeer.valid_iff]
  obtain ⟨network, namespaceSelector, podSelector⟩ := p
  refine (Reads.mapM_option Selector.reads_ofWire podSelector).bind fun pods hpods ↦ ?_
  refine (Reads.mapM_option Selector.reads_ofWire namespaceSelector).bind fun namespaces hns ↦ ?_
  -- which parts are present no longer changes, so each combination is a case of its own
  cases network with
  | some n =>
    cases hpods with
    | some hpods => exact .refuse (by simp) _
    | none =>
      cases hns with
      | some hns => exact .refuse (by simp) _
      | none =>
        refine (reads_networkMatch n).mono (by simp) ?_
        rintro _ ⟨m, rfl, hm⟩
        exact ⟨⟨n, rfl, hm⟩, rfl, rfl⟩
  | none =>
    cases hpods with
    | @some s pods hpods =>
      cases hns with
      | none => exact ⟨by simp, rfl, rfl, rfl, s, rfl, hpods⟩
      | @some s' namespaces hns =>
        exact ⟨by simp, rfl, ⟨s', rfl, hns⟩, Or.inr ⟨s, rfl, hpods⟩⟩
    | none =>
      cases hns with
      | none => exact .refuse (by simp) _
      | @some s' namespaces hns => exact ⟨by simp, rfl, ⟨s', rfl, hns⟩, Or.inl ⟨rfl, rfl⟩⟩

end Policy

/-! ## Ports -/

/-- The number of a port that can be connected to. -/
def IsPort (n : Int) : Prop := 1 ≤ n ∧ n ≤ 65535

/-- The protocol is a known one in any mixture of ASCII cases, a range starts at a number, and
numbers are ports in the right order. -/
@[mk_iff]
structure WirePort.Valid (w : WirePort) : Prop where
  protocol : ∀ s ∈ w.protocol, s.toLower ∈ ["tcp", "udp", "sctp"]
  start : w.endPort ≠ none → ∃ n, w.port = some (.number n)
  numbers : ∀ n, w.port = some (.number n) → IsPort n ∧ ∀ last ∈ w.endPort, IsPort last ∧ n ≤ last

/-- The protocol that is meant if none is written is TCP. -/
def NamesProtocol (written : Option String) (p : Protocol) : Prop :=
  written.elim (p = .tcp) fun s ↦ s.toLower = p.lowerName

/-- The matcher for the same port or ports. -/
def WirePort.StandsFor (w : WirePort) : PortMatch → Prop
  | .protocol p => NamesProtocol w.protocol p ∧ w.port = none ∧ w.endPort = none
  | .number p first last => NamesProtocol w.protocol p ∧ w.port = some (.number first.toNat) ∧
      w.endPort = last.map fun n ↦ (n.toNat : Int)
  | .name p name => NamesProtocol w.protocol p ∧ w.port = some (.name name) ∧ w.endPort = none

theorem Protocol.parse?_eq_some_iff {s : String} {p : Protocol} :
    parse? s = some p ↔ s.toLower = p.lowerName := by
  have hlower : s.toLower.toList = s.toList.map Char.toLower := String.toList_map
  rw [← String.toList_inj, hlower, parse?]
  generalize s.toList.map Char.toLower = lower
  have htcp : Protocol.tcp.lowerName.toList = ['t', 'c', 'p'] := by decide
  have hudp : Protocol.udp.lowerName.toList = ['u', 'd', 'p'] := by decide
  have hsctp : Protocol.sctp.lowerName.toList = ['s', 'c', 't', 'p'] := by decide
  cases p <;> grind

theorem Protocol.reads_parse (s : String) :
    Reads (s.toLower ∈ ["tcp", "udp", "sctp"]) (fun p ↦ s.toLower = p.lowerName) (parse s) := by
  have hnames : ["tcp", "udp", "sctp"] = [tcp, udp, sctp].map lowerName := rfl
  rw [parse, hnames, List.mem_map]
  cases hparse : parse? s with
  | some p =>
    have hp : p ∈ [tcp, udp, sctp] := by cases p <;> decide
    have hname := parse?_eq_some_iff.mp hparse
    exact ⟨⟨p, hp, hname.symm⟩, hname⟩
  | none =>
    rintro ⟨p, -, hname⟩
    rw [parse?_eq_some_iff.mpr hname.symm] at hparse
    exact absurd hparse (by simp)

namespace Policy

theorem reads_portNumberOfWire (n : Int) :
    Reads (IsPort n) (fun m ↦ n = m.toNat ∧ m ≠ 0) (portNumberOfWire n) := by
  rw [portNumberOfWire]
  split
  · rename_i hn
    have hlt : n.toNat < 65536 := by omega
    have hval : n.toNat.toUInt16.toNat = n.toNat := UInt16.toNat_ofNat_of_lt' hlt
    refine ⟨⟨by omega, by omega⟩, by omega, fun hzero ↦ ?_⟩
    rw [hzero, UInt16.toNat_zero] at hval
    omega
  · rename_i hn
    exact fun h ↦ hn ⟨by have := h.1; omega, by have := h.2; omega⟩

/-- Numbers that are ports are compared as they are written. -/
theorem reads_range (protocol : Protocol) (n : Int) (endPort : Option Int) :
    Reads (IsPort n ∧ (∀ last ∈ endPort, IsPort last) ∧ ∀ last ∈ endPort, n ≤ last)
      (fun m ↦ m.Valid ∧ ∃ first last, m = .number protocol first last ∧ n = first.toNat ∧
        endPort = last.map fun n ↦ (n.toNat : Int)) (do
      let first ← portNumberOfWire n
      let last ← endPort.mapM portNumberOfWire
      if last.any (· < first) then throw "endPort must not be less than port"
      return PortMatch.number protocol first last) := by
  refine (reads_portNumberOfWire n).bind fun first hfirst ↦ ?_
  obtain ⟨rfl, hpos⟩ := hfirst
  refine (Reads.mapM_option reads_portNumberOfWire endPort).bind fun last hlast ↦ ?_
  cases hlast with
  | none => exact ⟨by simp, ⟨hpos, by simp⟩, first, none, rfl, rfl, rfl⟩
  | @some n' last hlast =>
    obtain ⟨rfl, -⟩ := hlast
    by_cases hlt : last < first
    · simp only [Option.any_some, hlt, decide_true, if_true]
      refine .refuse (fun h ↦ ?_) _
      have hle := h _ rfl
      rw [UInt16.lt_iff_toNat_lt] at hlt
      omega
    · -- both numbers are what is written, so their order is that of the document
      simp only [Option.any_some, hlt, decide_false, Bool.false_eq_true, if_false]
      have hle : first ≤ last := UInt16.not_lt.mp hlt
      refine ⟨?_, ⟨hpos, ?_⟩, first, some last, rfl, rfl, rfl⟩
      · intro n hn
        obtain rfl := Option.some.inj hn
        exact_mod_cast UInt16.le_iff_toNat_le.mp hle
      · intro n hn
        obtain rfl := Option.some.inj hn
        exact hle

theorem reads_portOfWire (w : WirePort) :
    Reads w.Valid (fun m ↦ w.StandsFor m ∧ m.Valid) (portOfWire w) := by
  rw [WirePort.valid_iff]
  obtain ⟨endPort, port, protocol⟩ := w
  refine (Reads.mapM_option Protocol.reads_parse protocol).bind fun parsed hparsed ↦ ?_
  have hnames : NamesProtocol protocol (parsed.getD .tcp) := by
    cases hparsed with
    | none => exact rfl
    | some h => exact h
  cases port with
  | none =>
    cases endPort with
    | none => exact ⟨by simp, ⟨hnames, rfl, rfl⟩, trivial⟩
    | some last => exact .refuse (by simp) _
  | some port =>
    cases port with
    | name name =>
      cases endPort with
      | none => exact ⟨by simp, ⟨hnames, rfl, rfl⟩, trivial⟩
      | some last => exact .refuse (by simp) _
    | number n =>
      refine (reads_range (parsed.getD .tcp) n endPort).mono ?_ ?_
      · simp [← forall_and]
      · rintro _ ⟨hvalid, first, last, rfl, rfl, rfl⟩
        exact ⟨⟨hnames, rfl, rfl⟩, hvalid⟩

end Policy

/-! ## Rules -/

/-- All peers and all ports are valid. -/
def WireRule.Valid (w : WireRule) : Prop :=
  (∀ p ∈ w.peers.getD [], p.Valid) ∧ ∀ p ∈ w.ports.getD [], p.Valid

/-- The same peers and the same ports, in the same order. -/
structure WireRule.StandsFor (ns : String) (w : WireRule) (r : Rule) : Prop where
  peers : List.Forall₂ (WirePeer.StandsFor ns) (w.peers.getD []) r.peers
  ports : List.Forall₂ WirePort.StandsFor (w.ports.getD []) r.ports

theorem Policy.reads_ruleOfWire (ns : String) (w : WireRule) :
    Reads w.Valid (fun r ↦ w.StandsFor ns r ∧ ∀ m ∈ r.ports, m.Valid) (ruleOfWire ns w) := by
  rw [WireRule.Valid]
  refine (Reads.mapM (reads_peerOfWire ns) _).bind fun peers hpeers ↦ ?_
  refine (Reads.mapM reads_portOfWire _).map fun ports hports ↦ ?_
  exact ⟨⟨hpeers, hports.imp fun _ _ h ↦ h.1⟩, forall_of_forall₂ (hports.imp fun _ _ h ↦ h.2)⟩

/-! ## Documents -/

namespace PolicyDocument

variable (d : PolicyDocument)

/-- What a document asks for. A document without a specification asks for nothing. -/
def request : WireSpec := d.spec.getD .empty

/-- The rules that a document lists for a direction. -/
def rules : Direction → List WireRule
  | .ingress => d.request.ingress.getD []
  | .egress => d.request.egress.getD []

/-- The policy types that a document lists. -/
def types : List String := d.request.policyTypes.getD []

/-- The document is complete and all of its parts are valid. -/
structure Valid : Prop where
  name : d.metadata.name ≠ none
  ns : d.metadata.ns ≠ none
  pods : d.request.podSelector.Valid
  rules : ∀ dir, ∀ r ∈ d.rules dir, r.Valid
  types : ∀ s ∈ d.types, s = "Ingress" ∨ s = "Egress"

/-- The directions that a document governs: those that it lists, and if it lists none, ingress
always and egress if there are rules for it. -/
def Governs (dir : Direction) : Prop :=
  dir.policyType ∈ d.types ∨ d.types = [] ∧ (dir = .ingress ∨ d.rules .egress ≠ [])

/-- The policy has the name, the target and the rules of the document. -/
structure StandsFor (p : Policy) : Prop where
  name : d.metadata.name = some p.name
  ns : d.metadata.ns = some p.target.ns
  pods : d.request.podSelector.StandsFor p.target.pods
  directions : ∀ dir, p.target.directions.contains dir ↔ d.Governs dir
  rules : ∀ dir, List.Forall₂ (WireRule.StandsFor p.target.ns) (d.rules dir) (p.rules dir)

variable {d}

/-- A listed policy type is the name of a direction, and without any there is ingress. -/
theorem Valid.exists_governs (h : d.Valid) : ∃ dir, d.Governs dir := by
  cases htypes : d.types with
  | nil => exact ⟨.ingress, Or.inr ⟨htypes, Or.inl rfl⟩⟩
  | cons s types =>
    have hs : s ∈ d.types := by simp [htypes]
    rcases h.types s hs with rfl | rfl
    · exact ⟨.ingress, Or.inl hs⟩
    · exact ⟨.egress, Or.inl hs⟩

/-- A peer that is picked by the name of a namespace is one without a namespace selector. -/
theorem StandsFor.name_eq {p : Policy} (h : d.StandsFor p) {dir : Direction} {r : Rule}
    (hr : r ∈ p.rules dir) {name : String} {pods : Selector}
    (hpeer : .pods (.named name) pods ∈ r.peers) : name = p.target.ns := by
  obtain ⟨w, -, hw⟩ := exists_of_forall₂ (h.rules dir) hr
  obtain ⟨v, -, hv⟩ := exists_of_forall₂ hw.peers hpeer
  exact hv.1

end PolicyDocument

theorem Direction.reads_ofPolicyType (s : String) :
    Reads (s = "Ingress" ∨ s = "Egress") (·.policyType = s) (ofPolicyType s) := by
  rw [ofPolicyType]
  split
  · rename_i h
    exact ⟨Or.inl h, h.symm⟩
  · rename_i hne
    split
    · rename_i h
      exact ⟨Or.inr h, h.symm⟩
    · rename_i hne'
      exact not_or.mpr ⟨hne, hne'⟩

namespace Policy

theorem contains_directionsOf {d : PolicyDocument} {types : List Direction} {egress : List Rule}
    {Good : WireRule → Rule → Prop}
    (htypes : List.Forall₂ (fun s dir ↦ dir.policyType = s) d.types types)
    (hegress : List.Forall₂ Good (d.rules .egress) egress) (dir : Direction) :
    (directionsOf types egress).contains dir ↔ d.Governs dir := by
  have hmap : types.map Direction.policyType = d.types := by
    have h := map_eq_of_forall₂ htypes
    rwa [List.map_id'] at h
  have hinj : ∀ dir', dir'.policyType = dir.policyType → dir' = dir := by
    intro dir' h
    cases dir <;> cases dir' <;> first | rfl | exact absurd h (by decide)
  have hmem : dir.policyType ∈ d.types ↔ dir ∈ types := by
    rw [← hmap, List.mem_map]
    exact ⟨fun ⟨dir', h, heq⟩ ↦ hinj dir' heq ▸ h, fun h ↦ ⟨dir, h, rfl⟩⟩
  rw [PolicyDocument.Governs, hmem, ← hmap, List.map_eq_nil_iff, directionsOf]
  cases types with
  | nil =>
    -- the default looks at the egress rules that were read, and there are as many as are listed
    have hne : d.rules .egress ≠ [] ↔ egress ≠ [] := by
      rw [← List.length_pos_iff, hegress.length_eq, List.length_pos_iff]
    rw [hne]
    cases dir <;> simp [Directions.contains]
  | cons dir' types => cases dir <;> simp [Directions.contains]

/-- Rules of a document, and the checked ports of the rules that they stand for. -/
theorem reads_rules (ns : String) (rules : List WireRule) :
    Reads (∀ r ∈ rules, r.Valid)
      (fun rs ↦ List.Forall₂ (WireRule.StandsFor ns) rules rs ∧ ∀ r ∈ rs, ∀ m ∈ r.ports, m.Valid)
      (rules.mapM (ruleOfWire ns)) :=
  (Reads.mapM (reads_ruleOfWire ns) rules).mono Iff.rfl fun _ h ↦
    ⟨h.imp fun _ _ h ↦ h.1, forall_of_forall₂ (h.imp fun _ _ h ↦ h.2)⟩

theorem reads_ofDocument (d : PolicyDocument) :
    Reads d.Valid (fun p ↦ d.StandsFor p ∧ p.PortsValid) (ofDocument d) := by
  rw [ofDocument]
  cases hname : d.metadata.name with
  | none => exact fun h ↦ h.name hname
  | some name =>
    cases hns : d.metadata.ns with
    | none => exact fun h ↦ h.ns hns
    | some ns =>
      -- the parts of `Valid` in the order in which they are read
      have hvalid : (d.request.podSelector.Valid ∧ (∀ r ∈ d.rules .ingress, r.Valid) ∧
          (∀ r ∈ d.rules .egress, r.Valid) ∧ ∀ s ∈ d.types, s = "Ingress" ∨ s = "Egress") ↔
          d.Valid := by
        constructor
        · rintro ⟨hpods, hingress, hegress, htypes⟩
          refine ⟨by simp [hname], by simp [hns], hpods, fun dir ↦ ?_, htypes⟩
          cases dir with
          | ingress => exact hingress
          | egress => exact hegress
        · intro h
          exact ⟨h.pods, h.rules .ingress, h.rules .egress, h.types⟩
      rw [← hvalid]
      refine .mapError ?_ _
      refine (Selector.reads_ofWire d.request.podSelector).bind fun pods hpods ↦ ?_
      refine (reads_rules ns (d.rules .ingress)).bind fun ingress hingress ↦ ?_
      refine (reads_rules ns (d.rules .egress)).bind fun egress hegress ↦ ?_
      refine (Reads.mapM Direction.reads_ofPolicyType d.types).map fun types htypes ↦ ?_
      have hdirections := contains_directionsOf htypes hegress.1
      refine ⟨⟨hname, hns, hpods, hdirections, fun dir ↦ ?_⟩, fun dir ↦ ?_⟩
      · cases dir with
        | ingress => exact hingress.1
        | egress => exact hegress.1
      · cases dir with
        | ingress => exact hingress.2
        | egress => exact hegress.2

/-! ## What is accepted -/

/-- A policy as documents give it: it governs a direction, no peer names another namespace, and no
number or range of ports is empty. -/
structure WellFormed (p : Policy) : Prop where
  governs : p.Governs
  named : ∀ dir, ∀ r ∈ p.rules dir, ∀ name pods, .pods (.named name) pods ∈ r.peers →
    name = p.target.ns
  ports : p.PortsValid

theorem ofDocument_eq_error {d : PolicyDocument} {e : Error} (h : ofDocument d = .error e) :
    ∃ id reason, e = .invalidPolicy id reason := by
  rw [ofDocument] at h
  split at h
  · exact ⟨_, _, (Except.error.inj h).symm⟩
  · exact ⟨_, _, (Except.error.inj h).symm⟩
  · rename_i name ns _ _
    cases hspec : ofSpec name ns (d.spec.getD .empty) with
    | ok p =>
      rw [hspec] at h
      exact absurd h (by simp [Except.mapError])
    | error reason =>
      rw [hspec] at h
      exact ⟨_, reason, (Except.error.inj h).symm⟩

/-- **Exactly the valid documents are policies.** Any other document is refused as an invalid
policy. A policy that was read stands for its document and is well formed. -/
theorem ofDocument_accepts (d : PolicyDocument) :
    ((∃ p, ofDocument d = .ok p) ↔ d.Valid) ∧
      (¬d.Valid → ∃ id reason, ofDocument d = .error (.invalidPolicy id reason)) ∧
      ∀ p, ofDocument d = .ok p → d.StandsFor p ∧ p.WellFormed := by
  have hreads := reads_ofDocument d
  cases hread : ofDocument d with
  | error e =>
    rw [hread] at hreads
    obtain ⟨id, reason, rfl⟩ := ofDocument_eq_error hread
    exact ⟨⟨fun ⟨p, hp⟩ ↦ absurd hp (by simp), fun h ↦ absurd h hreads⟩,
      fun _ ↦ ⟨id, reason, rfl⟩, fun p hp ↦ absurd hp (by simp)⟩
  | ok p =>
    rw [hread] at hreads
    obtain ⟨hvalid, hstands, hports⟩ := hreads
    refine ⟨⟨fun _ ↦ hvalid, fun _ ↦ ⟨p, rfl⟩⟩, fun h ↦ absurd hvalid h, fun q hq ↦ ?_⟩
    obtain rfl := Except.ok.inj hq
    obtain ⟨dir, hdir⟩ := hvalid.exists_governs
    exact ⟨hstands, ⟨dir, (hstands.directions dir).mpr hdir⟩,
      fun dir r hr name pods hpeer ↦ hstands.name_eq hr hpeer, hports⟩

/-- Asks for traffic from all pods of the namespace on a range of ports. -/
def rangeDocument (first last : Int) : PolicyDocument where
  metadata := .named "range" (some "x")
  spec := some { WireSpec.empty with
    ingress := some [⟨some [⟨none, none, some .empty⟩],
      some [⟨some last, some (.number first), some "Tcp"⟩]⟩] }

/-- A range is read in one order only, and what does not say so governs ingress alone. -/
theorem ofDocument_accepts_range :
    (∃ p, ofDocument (rangeDocument 80 90) = .ok p ∧ p.WellFormed ∧
        p.ingress = [⟨[.pods (.named "x") .everything], [.number .tcp 80 (some 90)]⟩] ∧
        p.target.directions = .only .ingress) ∧
      ∃ id reason, ofDocument (rangeDocument 90 80) = .error (.invalidPolicy id reason) := by
  obtain ⟨-, -, hgood⟩ := ofDocument_accepts (rangeDocument 80 90)
  obtain ⟨-, hrefused, -⟩ := ofDocument_accepts (rangeDocument 90 80)
  have hread : ofDocument (rangeDocument 80 90) = .ok ⟨"range", ⟨"x", .everything, .only .ingress⟩,
      [⟨[.pods (.named "x") .everything], [.number .tcp 80 (some 90)]⟩], []⟩ := by decide +kernel
  have hinvalid : ¬(rangeDocument 90 80).Valid := by
    intro h
    obtain ⟨-, hports⟩ := h.rules .ingress _ List.mem_cons_self
    obtain ⟨-, hlast⟩ := (hports _ List.mem_cons_self).numbers 90 rfl
    exact absurd (hlast 80 rfl).2 (by decide)
  exact ⟨⟨_, hread, (hgood _ hread).2, rfl, rfl⟩, hrefused hinvalid⟩

end Policy

end Reachability
