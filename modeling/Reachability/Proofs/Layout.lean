import Mathlib.Data.List.Forall2
import Reachability.Document.Conversion
import Reachability.Proofs.SortedMap

/-!
# Documents through trees

The tree of a document is read as that document again. Both text formats rest on this, so it is kept
apart from them: a text has to give back a tree, and the tree then gives back the document.

An absent field and a field that is null are read alike. A value is therefore recovered only if its
node is none of the nodes that stand for nothing (`Decoder.Recovers`), and this is what keeps an
absent list apart from an empty one.
-/

namespace Reachability

namespace Decoder

/-! ## Values that are there -/

/-- The node is read as the value, and as that of a field that is there. -/
def Recovers {α : Type} (read : Decoder α) (t : Tree) (a : α) : Prop :=
  nullable read t = some (some a)

section Recovers

variable {α : Type} {read : Decoder α}

theorem Recovers.eq_some {t : Tree} {a : α} (h : Recovers read t a) : read t = some a := by
  rw [Recovers] at h
  cases t
  case null => simp [nullable] at h
  case blank => simp [nullable] at h
  all_goals
    obtain ⟨b, hb, heq⟩ := Option.map_eq_some_iff.mp h
    rw [hb, heq]

theorem recovers_record {fs : List (String × Tree)} {a : α} (h : read (.record fs) = some a) :
    Recovers read (.record fs) a := congrArg (Option.map some) h

theorem recovers_text (s : String) : Recovers text (.text s) s := rfl

theorem recovers_int {bits : Nat} {n : Int}
    (h : -Int.pow 2 (bits - 1) ≤ n ∧ n < Int.pow 2 (bits - 1)) :
    Recovers (int bits) (.int n) n := by
  change Option.map some (if _ then some n else none) = some (some n)
  rw [if_pos h, Option.map_some]

/-- An optional value and what is written for it. -/
theorem rel_map_write {Writes : Tree → α → Prop} {write : α → Tree} {a : Option α}
    (h : ∀ b ∈ a, Writes (write b) b) : Option.Rel Writes (a.map write) a := by
  cases a with
  | none => exact .none
  | some b => exact .some (h b rfl)

theorem recovers_items {items : List Tree} {l : List α}
    (h : List.Forall₂ (Recovers read) items l) : Recovers (list read) (.list items) l := by
  have hitems : items.mapM read = some l := by
    induction h with
    | nil => rfl
    | cons ha _ ih =>
      rw [List.mapM_cons, ha.eq_some, ih]
      rfl
  exact congrArg (Option.map some) hitems

theorem recovers_list {write : α → Tree} {l : List α} (h : ∀ a ∈ l, Recovers read (write a) a) :
    Recovers (list read) (.list (l.map write)) l :=
  recovers_items (List.forall₂_map_left_iff.mpr (List.forall₂_same.mpr h))

/-- The values of a record of texts are the values of a map, in whatever order they come. -/
theorem recovers_entries {m : Labels} {entries : List (String × String)}
    (hperm : entries.Perm m.toList) :
    Recovers labels (.record (entries.map fun e ↦ (e.1, .text e.2))) m := by
  have hentries : (entries.map fun e ↦ (e.1, Tree.text e.2)).mapM
      (fun f ↦ do return (f.1, ← text f.2)) = some entries := by
    clear hperm
    induction entries with
    | nil => rfl
    | cons e entries ih =>
      rw [List.map_cons, List.mapM_cons, ih]
      rfl
  have hmap : labels (.record (entries.map fun e ↦ (e.1, .text e.2))) =
      some (SortedMap.ofList entries) := by
    rw [labels, map]
    exact congrArg (· >>= fun entries ↦ some (SortedMap.ofList entries)) hentries
  rw [SortedMap.ofList_perm hperm] at hmap
  exact recovers_record hmap

theorem recovers_labels (m : Labels) : Recovers labels (Encode.labels m) m :=
  recovers_entries (.refl _)

end Recovers

/-! ## Records -/

/-- The fields of a record that have a value. -/
def present (fs : List (String × Option Tree)) : List (String × Tree) :=
  fs.filterMap fun (name, value) ↦ value.map (name, ·)

theorem filter_present_eq_nil {fs : List (String × Option Tree)} {name : String}
    (h : name ∉ fs.map Prod.fst) : (present fs).filter (·.1 == name) = [] := by
  rw [List.filter_eq_nil_iff]
  intro f hf
  obtain ⟨⟨n, value⟩, hmem, hvalue⟩ := List.mem_filterMap.mp hf
  obtain ⟨t, -, rfl⟩ := Option.map_eq_some_iff.mp hvalue
  simp only [beq_iff_eq]
  rintro rfl
  exact h (List.mem_map_of_mem hmem)

/-- A field is found where it is written. -/
theorem filter_present {fs : List (String × Option Tree)} (hnames : (fs.map Prod.fst).Nodup)
    {name : String} {value : Option Tree} (h : (name, value) ∈ fs) :
    (present fs).filter (·.1 == name) = (value.map (name, ·)).toList := by
  induction fs with
  | nil => simp at h
  | cons f fs ih =>
    obtain ⟨hnot, hrest⟩ := List.nodup_cons.mp hnames
    obtain ⟨n, w⟩ := f
    have hsplit : present ((n, w) :: fs) = (w.map (n, ·)).toList ++ present fs := by
      cases w <;> rfl
    rw [hsplit, List.filter_append]
    rcases List.mem_cons.mp h with heq | h
    · obtain ⟨rfl, rfl⟩ := Prod.mk.inj heq
      rw [filter_present_eq_nil hnot, List.append_nil]
      cases value <;> simp
    · have hne : n ≠ name := by
        rintro rfl
        exact hnot (List.mem_map.mpr ⟨_, h, rfl⟩)
      rw [ih hrest h]
      cases w <;> simp [hne]

/-- And so it is if the fields are written in another order. -/
theorem filter_of_perm {fs : List (String × Option Tree)} (hnames : (fs.map Prod.fst).Nodup)
    {written : List (String × Tree)} (hperm : written.Perm (present fs)) {name : String}
    {value : Option Tree} (h : (name, value) ∈ fs) :
    written.filter (·.1 == name) = (value.map (name, ·)).toList := by
  have hfilter := hperm.filter (·.1 == name)
  rw [filter_present hnames h] at hfilter
  cases value with
  | none => exact List.perm_nil.mp hfilter
  | some t => exact List.perm_singleton.mp hfilter

section Fields

variable {fs : List (String × Option Tree)} (hnames : (fs.map Prod.fst).Nodup)
include hnames

/-- A field is read as the value of its node, if that is there, and else as absent. -/
theorem optional_of_perm {written : List (String × Tree)} (hperm : written.Perm (present fs))
    {α : Type} {read : Decoder α} {node : Option Tree} {a : Option α}
    (h : Option.Rel (Recovers read) node a) {name : String} (hmem : (name, node) ∈ fs) :
    optional written name read = some a := by
  rw [optional, last, filter_of_perm hnames hperm hmem]
  cases h with
  | none => rfl
  | @some t b hb =>
    have hread : nullable read t = some (some b) := hb
    simp [hread]

/-- A field is read as what it was written from, if that is there, and else as absent. -/
theorem optional_present {α : Type} {read : Decoder α} {write : α → Tree} {a : Option α}
    (h : ∀ b ∈ a, Recovers read (write b) b) {name : String} (hmem : (name, a.map write) ∈ fs) :
    optional (present fs) name read = some a :=
  optional_of_perm hnames (.refl _) (rel_map_write h) hmem

theorem constant_present {name expected : String} (hmem : (name, some (.text expected)) ∈ fs) :
    constant (present fs) name expected = some () := by
  rw [constant, last, filter_present hnames hmem]
  simp [text, Tree.untagged]

end Fields

/-! ## Selectors and peers -/

theorem recovers_texts (l : List String) : Recovers (list text) (Encode.texts l) l :=
  recovers_list fun s _ ↦ recovers_text s

/-- A requirement is read from its fields, which may come in any order. -/
theorem requirement_of_perm {r : WireRequirement} {written : List (String × Tree)}
    (hperm : written.Perm (present [("key", some (.text r.key)),
      ("operator", some (.text r.operator)), ("values", r.values.map Encode.texts)])) :
    requirement (.record written) = some r := by
  have hkey : optional written "key" text = some (some r.key) :=
    optional_of_perm (by simp) hperm (.some (recovers_text _)) (.head _)
  have hoperator : optional written "operator" text = some (some r.operator) :=
    optional_of_perm (by simp) hperm (.some (recovers_text _)) (.tail _ (.head _))
  have hvalues : optional written "values" (list text) = some r.values :=
    optional_of_perm (by simp) hperm (rel_map_write fun l _ ↦ recovers_texts l)
      (.tail _ (.tail _ (.head _)))
  simp only [requirement, fields, Tree.untagged, Option.bind_eq_bind, Option.bind_some, hkey,
    hoperator, hvalues, Option.getD_some]
  rfl

theorem recovers_requirement (r : WireRequirement) :
    Recovers requirement (Encode.requirement r) r := recovers_record (requirement_of_perm (.refl _))

/-- A selector is read from its parts, which may come in any order. -/
theorem selector_of_perm {s : WireSelector} {expressions matchLabels : Option Tree}
    (hexpressions : Option.Rel (Recovers (list requirement)) expressions s.matchExpressions)
    (hlabels : Option.Rel (Recovers labels) matchLabels s.matchLabels)
    {written : List (String × Tree)}
    (hperm : written.Perm (present [("matchExpressions", expressions),
      ("matchLabels", matchLabels)])) : selector (.record written) = some s := by
  have hreadExpressions : optional written "matchExpressions" (list requirement) =
      some s.matchExpressions := optional_of_perm (by simp) hperm hexpressions (.head _)
  have hreadLabels : optional written "matchLabels" labels = some s.matchLabels :=
    optional_of_perm (by simp) hperm hlabels (.tail _ (.head _))
  simp only [selector, fields, Tree.untagged, Option.bind_eq_bind, Option.bind_some,
    hreadExpressions, hreadLabels]
  rfl

theorem recovers_selector (s : WireSelector) : Recovers selector (Encode.selector s) s := by
  refine recovers_record (selector_of_perm ?_ ?_ (.refl _))
  · exact rel_map_write fun rs _ ↦ recovers_list fun r _ ↦ recovers_requirement r
  · exact rel_map_write fun m _ ↦ recovers_labels m

theorem recovers_network (n : WireNetwork) : Recovers network (Encode.network n) n := by
  obtain ⟨fs, hfs⟩ : ∃ fs, fs = [("cidr", some (.text n.cidr)),
    ("except", n.except.map Encode.texts)] := ⟨_, rfl⟩
  have hnames : (fs.map Prod.fst).Nodup := by simp [hfs]
  have hcidr : optional (present fs) "cidr" text = some (some n.cidr) :=
    optional_present hnames (fun s _ ↦ recovers_text s) (by simp [hfs])
  have hexcept : optional (present fs) "except" (list text) = some n.except :=
    optional_present hnames (fun l _ ↦ recovers_texts l) (by simp [hfs])
  have hrecord : Encode.network n = .record (present fs) := by rw [hfs]; rfl
  rw [hrecord]
  refine recovers_record ?_
  simp only [network, fields, Tree.untagged, Option.bind_eq_bind, Option.bind_some, hcidr, hexcept,
    Option.getD_some]
  rfl

theorem recovers_peer (p : WirePeer) : Recovers peer (Encode.peer p) p := by
  obtain ⟨fs, hfs⟩ : ∃ fs, fs = [("ipBlock", p.network.map Encode.network),
    ("namespaceSelector", p.namespaceSelector.map Encode.selector),
    ("podSelector", p.podSelector.map Encode.selector)] := ⟨_, rfl⟩
  have hnames : (fs.map Prod.fst).Nodup := by simp [hfs]
  have hnetwork : optional (present fs) "ipBlock" network = some p.network :=
    optional_present hnames (fun n _ ↦ recovers_network n) (by simp [hfs])
  have hnamespaces : optional (present fs) "namespaceSelector" selector =
      some p.namespaceSelector :=
    optional_present hnames (fun s _ ↦ recovers_selector s) (by simp [hfs])
  have hpods : optional (present fs) "podSelector" selector = some p.podSelector :=
    optional_present hnames (fun s _ ↦ recovers_selector s) (by simp [hfs])
  have hrecord : Encode.peer p = .record (present fs) := by rw [hfs]; rfl
  rw [hrecord]
  refine recovers_record ?_
  simp only [peer, fields, Tree.untagged, Option.bind_eq_bind, Option.bind_some, hnetwork,
    hnamespaces, hpods]
  rfl

end Decoder

/-! ## Ports

A number of a port is read if it fits in 32 bits. Those of policies do. -/

/-- The number is not negative and fits in 32 bits with a sign. -/
def IsSmall (n : Int) : Prop := 0 ≤ n ∧ n < Int.pow 2 31

/-- The numbers of a port can be read. -/
def WirePort.Fits (p : WirePort) : Prop :=
  (∀ n ∈ p.endPort, IsSmall n) ∧ ∀ n, p.port = some (.number n) → IsSmall n

/-- The numbers of the ports of a rule can be read. -/
def WireRule.Fits (r : WireRule) : Prop := ∀ ps ∈ r.ports, ∀ p ∈ ps, p.Fits

/-- The numbers of the ports of a specification can be read. -/
def WireSpec.Fits (s : WireSpec) : Prop :=
  (∀ rs ∈ s.egress, ∀ r ∈ rs, r.Fits) ∧ ∀ rs ∈ s.ingress, ∀ r ∈ rs, r.Fits

namespace Decoder

theorem recovers_portNumber {n : Int} (h : IsSmall n) : Recovers (int 32) (.int n) n := by
  obtain ⟨hpos, hlt⟩ := h
  have hpow : 0 ≤ Int.pow 2 (32 - 1) := by decide
  exact recovers_int ⟨by omega, hlt⟩

theorem recovers_portRef {p : WirePortRef} (h : ∀ n, p = .number n → IsSmall n) :
    Recovers portRef (Encode.portRef p) p := by
  cases p with
  | name s => rfl
  | number n =>
    have hn := (recovers_portNumber (h n rfl)).eq_some
    exact congrArg (fun x ↦ Option.map some (Option.map WirePortRef.number x)) hn

theorem recovers_port {p : WirePort} (h : p.Fits) : Recovers port (Encode.port p) p := by
  obtain ⟨fs, hfs⟩ : ∃ fs, fs = [("endPort", p.endPort.map .int),
    ("port", p.port.map Encode.portRef), ("protocol", p.protocol.map .text)] := ⟨_, rfl⟩
  have hnames : (fs.map Prod.fst).Nodup := by simp [hfs]
  have hend : optional (present fs) "endPort" (int 32) = some p.endPort :=
    optional_present hnames (fun n hn ↦ recovers_portNumber (h.1 n hn)) (by simp [hfs])
  have hport : optional (present fs) "port" portRef = some p.port :=
    optional_present hnames (fun r hr ↦ recovers_portRef fun n hn ↦
      h.2 n (by rw [← hn]; exact hr)) (by simp [hfs])
  have hprotocol : optional (present fs) "protocol" text = some p.protocol :=
    optional_present hnames (fun s _ ↦ recovers_text s) (by simp [hfs])
  have hrecord : Encode.port p = .record (present fs) := by rw [hfs]; rfl
  rw [hrecord]
  refine recovers_record ?_
  simp only [port, fields, Tree.untagged, Option.bind_eq_bind, Option.bind_some, hend, hport,
    hprotocol]
  rfl

/-! ## Rules and specifications -/

theorem recovers_ports {ps : List WirePort} (h : ∀ p ∈ ps, p.Fits) :
    Recovers (list port) (.list (ps.map Encode.port)) ps :=
  recovers_list fun p hp ↦ recovers_port (h p hp)

theorem recovers_peers (ps : List WirePeer) :
    Recovers (list peer) (.list (ps.map Encode.peer)) ps := recovers_list fun p _ ↦ recovers_peer p

/-- A rule, with its peers under a name that comes first or last. -/
theorem rule_present {fs : List (String × Option Tree)} (hnames : (fs.map Prod.fst).Nodup)
    {r : WireRule} (h : r.Fits) {peers : String}
    (hpeers : (peers, r.peers.map fun ps ↦ .list (ps.map Encode.peer)) ∈ fs)
    (hports : ("ports", r.ports.map fun ps ↦ .list (ps.map Encode.port)) ∈ fs) :
    rule peers (.record (present fs)) = some r := by
  have hreadPeers : optional (present fs) peers (list peer) = some r.peers :=
    optional_present hnames (fun ps _ ↦ recovers_peers ps) hpeers
  have hreadPorts : optional (present fs) "ports" (list port) = some r.ports :=
    optional_present hnames (fun ps hps ↦ recovers_ports (h ps hps)) hports
  simp only [rule, fields, Tree.untagged, Option.bind_eq_bind, Option.bind_some, hreadPeers,
    hreadPorts]
  rfl

theorem recovers_ingressRule {r : WireRule} (h : r.Fits) :
    Recovers (rule "from") (Encode.ingressRule r) r :=
  recovers_record (rule_present (by simp) h (.head _) (.tail _ (.head _)))

theorem recovers_egressRule {r : WireRule} (h : r.Fits) :
    Recovers (rule "to") (Encode.egressRule r) r :=
  recovers_record (rule_present (by simp) h (.tail _ (.head _)) (.head _))

theorem recovers_spec {s : WireSpec} (h : s.Fits) : Recovers spec (Encode.spec s) s := by
  obtain ⟨fs, hfs⟩ : ∃ fs, fs = [
    ("egress", s.egress.map fun rs ↦ .list (rs.map Encode.egressRule)),
    ("ingress", s.ingress.map fun rs ↦ .list (rs.map Encode.ingressRule)),
    ("podSelector", some (Encode.selector s.podSelector)),
    ("policyTypes", s.policyTypes.map Encode.texts)] := ⟨_, rfl⟩
  have hnames : (fs.map Prod.fst).Nodup := by simp [hfs]
  have hegress : optional (present fs) "egress" (list (rule "to")) = some s.egress :=
    optional_present hnames
      (fun rs hrs ↦ recovers_list fun r hr ↦ recovers_egressRule (h.1 rs hrs r hr)) (by simp [hfs])
  have hingress : optional (present fs) "ingress" (list (rule "from")) = some s.ingress :=
    optional_present hnames
      (fun rs hrs ↦ recovers_list fun r hr ↦ recovers_ingressRule (h.2 rs hrs r hr)) (by simp [hfs])
  have hpods : optional (present fs) "podSelector" selector = some (some s.podSelector) :=
    optional_present hnames (fun s _ ↦ recovers_selector s) (by simp [hfs])
  have htypes : optional (present fs) "policyTypes" (list text) = some s.policyTypes :=
    optional_present hnames (fun l _ ↦ recovers_texts l) (by simp [hfs])
  have hrecord : Encode.spec s = .record (present fs) := by rw [hfs]; rfl
  rw [hrecord]
  refine recovers_record ?_
  simp only [spec, fields, Tree.untagged, Option.bind_eq_bind, Option.bind_some, hegress, hingress,
    hpods, htypes, Option.getD_some]
  rfl

theorem recovers_metadata (name ns : String) :
    Recovers metadata (Encode.metadata (.named name (some ns))) (.named name (some ns)) := rfl

end Decoder

/-! ## Documents -/

/-- A document with just a name and a namespace beside its specification, which can be read. -/
def PolicyDocument.Simple (d : PolicyDocument) : Prop :=
  (∃ name ns, d.metadata = .named name (some ns)) ∧ ∀ s ∈ d.spec, s.Fits

theorem Decoder.policyDocument_toFields {d : PolicyDocument} (h : d.Simple) :
    policyDocument (.record d.toFields) = some d := by
  obtain ⟨⟨name, ns, hnamed⟩, hspec⟩ := h
  obtain ⟨fs, hfs⟩ : ∃ fs, fs = [("apiVersion", some (.text policyApiVersion)),
    ("kind", some (.text policyKind)), ("metadata", some (Encode.metadata d.metadata)),
    ("spec", d.spec.map Encode.spec)] := ⟨_, rfl⟩
  have hnames : (fs.map Prod.fst).Nodup := by simp [hfs]
  have hversion : constant (present fs) "apiVersion" policyApiVersion = some () :=
    constant_present hnames (by simp [hfs])
  have hkind : constant (present fs) "kind" policyKind = some () :=
    constant_present hnames (by simp [hfs])
  have hmetadata : optional (present fs) "metadata" metadata = some (some d.metadata) :=
    optional_present hnames (fun m hm ↦ by
      obtain rfl := Option.some.inj hm
      rw [hnamed]
      exact recovers_metadata name ns) (by simp [hfs])
  have hreadSpec : optional (present fs) "spec" spec = some d.spec :=
    optional_present hnames (fun s hs ↦ recovers_spec (hspec s hs)) (by simp [hfs])
  have hrecord : d.toFields = present fs := by
    rw [hfs, PolicyDocument.toFields]
    cases d.spec <;> rfl
  rw [hrecord]
  simp only [policyDocument, fields, Tree.untagged, Option.bind_eq_bind, Option.bind_some, hversion,
    hkind, hmetadata, hreadSpec, Option.getD_some]
  rfl

theorem PortMatch.fits_portToWire (m : PortMatch) : (Policy.portToWire m).Fits := by
  have hsmall : ∀ n : UInt16, IsSmall n.toNat := by
    intro n
    have hlt : n.toNat < 65536 := n.toNat_lt
    have hpow : Int.pow 2 31 = 2147483648 := rfl
    exact ⟨by omega, by omega⟩
  cases m with
  | protocol p => exact ⟨by simp [Policy.portToWire], by simp [Policy.portToWire]⟩
  | name p name => exact ⟨by simp [Policy.portToWire], by simp [Policy.portToWire]⟩
  | number p first last =>
    constructor
    · intro n hn
      obtain ⟨l, -, rfl⟩ := Option.map_eq_some_iff.mp hn
      exact hsmall l
    · intro n hn
      obtain rfl := WirePortRef.number.inj (Option.some.inj hn)
      exact hsmall first

namespace Policy

theorem mem_of_mem_nonempty {α : Type} {l l' : List α} (h : l' ∈ nonempty l) : l' = l := by
  rw [nonempty] at h
  split at h
  · exact absurd h (by simp)
  · exact (Option.some.inj h).symm

theorem fits_ruleToWire (ns : String) (r : Rule) : (ruleToWire ns r).Fits := by
  intro ps hps p hp
  rw [mem_of_mem_nonempty hps] at hp
  obtain ⟨m, -, rfl⟩ := List.mem_map.mp hp
  exact m.fits_portToWire

theorem simple_toDocument (p : Policy) : p.toDocument.Simple := by
  have hrules : ∀ {l : List Rule} {rs}, rs ∈ nonempty (l.map (ruleToWire p.target.ns)) →
      ∀ r ∈ rs, r.Fits := by
    intro l rs hrs r hr
    rw [mem_of_mem_nonempty hrs] at hr
    obtain ⟨rule, -, rfl⟩ := List.mem_map.mp hr
    exact fits_ruleToWire p.target.ns rule
  refine ⟨⟨p.name, p.target.ns, rfl⟩, fun s hs ↦ ?_⟩
  obtain rfl := Option.some.inj hs
  exact ⟨fun rs hrs ↦ hrules hrs, fun rs hrs ↦ hrules hrs⟩

end Policy

end Reachability
