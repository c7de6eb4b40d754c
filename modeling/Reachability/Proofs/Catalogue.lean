import Mathlib.Data.List.Nodup
import Reachability.Catalogue
import Reachability.Proofs.Conversion

/-!
# The policies of the catalogue

Each family of the catalogue is a list of entries, of which every one becomes a policy in the same
way (`Catalogue.policies_eq_map`). What the policies of a family have in common is therefore said
once, of `Catalogue.ofEntry`, and the entries are only looked at one by one where they differ: in
their names, in their peers and in their ports.

The peers are chosen such that a document can express them as they are, and the only number of a
port that a document may refuse is that of the typical port. So the policies come back from their
documents, except for those that mention the typical port by its number, if that number is zero.
-/

namespace Reachability

/-- The direction that the policies of a family are about. -/
def CatalogueMode.direction : CatalogueMode → Direction
  | rules d => d
  | targets d => d

/-! ## Documents of policies -/

namespace Policy

/-- The policy comes back from its document as it was. -/
def RoundTrips (p : Policy) : Prop := ofDocument p.toDocument = .ok p

/-- The document of the policy is refused. -/
def Refused (p : Policy) : Prop :=
  ∃ reason, ofDocument p.toDocument = .error (.invalidPolicy p.id reason)

theorem norm_eq_self {p : Policy} (h : ∀ d, ∀ r ∈ p.rules d, r.norm p.target.ns = r) :
    p.norm = p := by
  have hrules : ∀ d, (p.rules d).map (·.norm p.target.ns) = p.rules d := fun d ↦
    (List.map_congr_left (h d)).trans (List.map_id _)
  rw [norm, show p.ingress.map _ = _ from hrules .ingress,
    show p.egress.map _ = _ from hrules .egress]
  rfl

theorem roundTrips_iff {p : Policy} (hgoverns : p.Governs) (hnorm : p.norm = p) :
    p.RoundTrips ↔ p.PortsValid := by
  rw [RoundTrips, ofDocument_toDocument_eq hgoverns, hnorm, ← complaint?_eq_none_iff]
  cases p.complaint? with
  | none => exact iff_of_true rfl rfl
  | some reason => simp [readResult, Except.mapError]

theorem refused_iff {p : Policy} (hgoverns : p.Governs) : p.Refused ↔ ¬p.PortsValid := by
  rw [Refused, ofDocument_toDocument_eq hgoverns, ← complaint?_eq_none_iff]
  cases p.complaint? with
  | none => simp [readResult, Except.mapError]
  | some reason => exact iff_of_true ⟨reason, rfl⟩ (by simp)

end Policy

namespace Catalogue

variable (c : Catalogue)

/-! ## Entries -/

/-- What tells a policy from the others of its family. -/
structure Entry where
  name : String
  ns : String
  pods : Selector
  rules : List Rule

/-- An entry for the typical target. -/
def typicalEntry (name : String) (rules : List Rule) : Entry :=
  ⟨name, c.typicalNamespace, typicalTarget, rules⟩

/-- The entry for a variant of the peer. -/
def peerEntry (v : String × Peer) : Entry := c.typicalEntry s!"peer-{v.1}" [⟨[v.2], []⟩]

/-- The entry for a variant of the port. -/
def portEntry (v : String × PortMatch) : Entry := c.typicalEntry s!"port-{v.1}" [⟨[], [v.2]⟩]

/-- The entry for a variant of the target in a namespace. -/
def targetEntry (ns : String) (v : String × Selector) : Entry :=
  ⟨s!"{ns}-{v.1}", ns, v.2, [⟨[typicalPeer], [c.typicalPort]⟩]⟩

/-- The entries of a family. -/
def entries : CatalogueMode → List Entry
  | .rules _ => [c.typicalEntry "deny-all" [], c.typicalEntry "allow-all" [.allowAll]] ++
      c.peers.map c.peerEntry ++ c.ports.map c.portEntry
  | .targets _ => c.namespaces.flatMap fun ns ↦ targets.map (c.targetEntry ns)

/-- The policy of an entry. -/
def ofEntry (d : Direction) (e : Entry) : Policy := c.policy e.name e.ns e.pods d e.rules

/-- The name of the policy of an entry with a given name. -/
def policyName (d : Direction) (name : String) : String := s!"{d}-{name}"

/-- The rules that every policy for a direction has beside those of its entry. -/
def commonRules : Direction → List Rule
  | .ingress => []
  | .egress => if c.allowDns then [dnsRule] else []

section OfEntry

variable (d : Direction) (e : Entry)

theorem name_ofEntry : (c.ofEntry d e).name = policyName d e.name := by
  cases d <;> rfl

theorem target_ofEntry : (c.ofEntry d e).target = ⟨e.ns, e.pods, .only d⟩ := by
  cases d <;> rfl

theorem rules_ofEntry : (c.ofEntry d e).rules d = e.rules ++ c.commonRules d := by
  cases d with
  | ingress => exact (List.append_nil e.rules).symm
  | egress =>
    rw [commonRules]
    cases hdns : c.allowDns <;> simp [ofEntry, policy, Policy.rules, hdns]

theorem rules_ofEntry_of_ne {d' : Direction} (h : d' ≠ d) : (c.ofEntry d e).rules d' = [] := by
  cases d <;> cases d' <;> first | rfl | exact absurd rfl h

end OfEntry

theorem policies_eq_map (mode : CatalogueMode) :
    c.policies mode = (c.entries mode).map (c.ofEntry mode.direction) := by
  cases mode with
  | rules d =>
    rw [policies, ruleVariants, entries, List.map_append, List.map_append, List.map_map,
      List.map_map]
    rfl
  | targets d =>
    simp only [policies, targetVariants, entries, List.map_flatMap, List.map_map]
    rfl

theorem mem_policies_iff {mode : CatalogueMode} {p : Policy} :
    p ∈ c.policies mode ↔ ∃ e ∈ c.entries mode, c.ofEntry mode.direction e = p := by
  rw [policies_eq_map, List.mem_map]

/-- An entry for a rule is one for all traffic or for none, for a peer, or for a port. -/
theorem mem_entries_rules_iff {d : Direction} {e : Entry} :
    e ∈ c.entries (.rules d) ↔ e = c.typicalEntry "deny-all" [] ∨
      e = c.typicalEntry "allow-all" [.allowAll] ∨ (∃ v ∈ c.peers, c.peerEntry v = e) ∨
      ∃ v ∈ c.ports, c.portEntry v = e := by
  simp only [entries, List.mem_append, List.mem_cons, List.not_mem_nil, or_false, List.mem_map,
    or_assoc]

theorem mem_entries_targets_iff {d : Direction} {e : Entry} :
    e ∈ c.entries (.targets d) ↔ ∃ ns ∈ c.namespaces, ∃ v ∈ targets, c.targetEntry ns v = e := by
  simp only [entries, List.mem_flatMap, List.mem_map]

/-! ## Names -/

/-- The names of the variants of peers, if there is another namespace. -/
def peerNames : List String :=
  ["same-namespace-pod-b", "same-namespace-all", "all-namespaces-pod-b"] ++
    ["other-namespace", "other-namespace-pod-c"] ++ ["ip", "ip-except"]

/-- The names of the variants of ports. -/
def portNames : List String :=
  ["numbered", "named", "other-number", "protocol-only", "undeclared-name", "range"]

/-- What is written after a text and a dash can be told from the whole. -/
theorem dashed_injective (text : String) :
    Function.Injective fun name : String ↦ s!"{text}-{name}" := by
  intro name name' heq
  have hchars := congrArg String.toList heq
  exact String.toList_inj.mp (by simpa [toString] using hchars)

theorem policyName_injective (d : Direction) : Function.Injective (policyName d) :=
  dashed_injective d.name

theorem names_peers_sublist : (c.peers.map Prod.fst).Sublist peerNames := by
  rw [peers, List.map_append, List.map_append]
  refine ((List.Sublist.refl _).append ?_).append (.refl _)
  split
  · exact .refl _
  · exact List.nil_sublist _

theorem names_ports : c.ports.map Prod.fst = portNames := rfl

theorem nodup_names (d : Direction) : ((c.entries (.rules d)).map (·.name)).Nodup := by
  have hall : (["deny-all", "allow-all"] ++ peerNames.map (s!"peer-{·}") ++
      portNames.map (s!"port-{·}")).Nodup := by decide
  have hpeers := c.names_peers_sublist.map (s!"peer-{·}")
  refine hall.sublist ?_
  rw [← c.names_ports]
  simpa [entries, typicalEntry, peerEntry, portEntry, Function.comp_def] using hpeers

/-- The namespace and the name that tell the policies of a cluster apart. -/
def keys (mode : CatalogueMode) : List (String × String) :=
  (c.policies mode).map fun p ↦ (p.target.ns, p.name)

theorem keys_eq (mode : CatalogueMode) :
    c.keys mode = ((c.entries mode).map fun e ↦ (e.ns, e.name)).map
      fun k ↦ (k.1, policyName mode.direction k.2) := by
  rw [keys, policies_eq_map, List.map_map, List.map_map]
  refine List.map_congr_left fun e _ ↦ ?_
  simp only [Function.comp_apply, target_ofEntry, name_ofEntry]

theorem nodup_keys_iff (mode : CatalogueMode) :
    (c.keys mode).Nodup ↔ ((c.entries mode).map fun e ↦ (e.ns, e.name)).Nodup := by
  rw [keys_eq]
  refine List.nodup_map_iff ?_
  rintro ⟨ns, name⟩ ⟨ns', name'⟩ heq
  obtain ⟨rfl, htext⟩ := Prod.mk.inj heq
  exact congrArg (Prod.mk ns) (policyName_injective _ htext)

theorem nodup_keys_rules (d : Direction) : (c.keys (.rules d)).Nodup := by
  rw [nodup_keys_iff]
  refine .of_map Prod.snd ?_
  rw [List.map_map]
  exact c.nodup_names d

/-- Names in a namespace differ, because the variants of targets do. -/
theorem nodup_keys_namespace (ns : String) :
    (targets.map fun v ↦ (ns, s!"{ns}-{v.1}")).Nodup := by
  have hnames : (targets.map Prod.fst).Nodup := by decide
  have hinj : Function.Injective fun name : String ↦ (ns, s!"{ns}-{name}") := by
    intro name name' heq
    exact dashed_injective ns (Prod.mk.inj heq).2
  have hkeys := hnames.map hinj
  rwa [List.map_map] at hkeys

theorem nodup_keys_targets_iff (d : Direction) :
    (c.keys (.targets d)).Nodup ↔ c.namespaces.Nodup := by
  have hkeys : (c.entries (.targets d)).map (fun e ↦ (e.ns, e.name)) =
      c.namespaces.flatMap fun ns ↦ targets.map fun v ↦ (ns, s!"{ns}-{v.1}") := by
    simp only [entries, List.map_flatMap, List.map_map]
    rfl
  rw [nodup_keys_iff, hkeys, List.nodup_flatMap, and_iff_right fun ns _ ↦ nodup_keys_namespace ns]
  refine List.Pairwise.iff fun ns ns' ↦ ?_
  constructor
  · -- no namespace is without policies, so a repeated one repeats some
    rintro hdisjoint rfl
    exact hdisjoint (List.mem_map.mpr ⟨_, List.mem_cons_self, rfl⟩)
      (List.mem_map.mpr ⟨_, List.mem_cons_self, rfl⟩)
  · intro hne k hk hk'
    obtain ⟨v, -, rfl⟩ := List.mem_map.mp hk
    obtain ⟨v', -, heq⟩ := List.mem_map.mp hk'
    exact hne (Prod.mk.inj heq).1.symm

/-! ## Canonical forms -/

theorem norm_of_mem_peers {v : String × Peer} (h : v ∈ c.peers) :
    v.2.norm c.typicalNamespace = v.2 := by
  have hlabel : ∀ key value, (Selector.ofLabel key value).norm = .ofLabel key value :=
    fun _ _ ↦ rfl
  have hnamed : ∀ pods, (Peer.pods (.named c.typicalNamespace) pods).norm c.typicalNamespace =
      .pods (.named c.typicalNamespace) pods := fun _ ↦ if_pos rfl
  simp only [peers, List.mem_append, List.mem_cons, List.not_mem_nil, or_false] at h
  rcases h with ((rfl | rfl | rfl) | h) | rfl | rfl
  · exact hnamed _
  · exact hnamed _
  · rfl
  · split at h
    · simp only [List.mem_cons, List.not_mem_nil, or_false] at h
      rcases h with rfl | rfl <;> rfl
    · exact absurd h List.not_mem_nil
  · rfl
  · rfl

/-- A number beside the typical one is a port, and so are the ends of the range around it. -/
theorem valid_of_mem_ports {v : String × PortMatch} (h : v ∈ c.ports) :
    v.2.Valid ↔ (v.1 = "numbered" → c.port.number ≠ 0) := by
  simp only [ports, List.mem_cons, List.not_mem_nil, or_false] at h
  rcases h with rfl | rfl | rfl | rfl | rfl | rfl
  · simp [PortMatch.Valid]
  · simp [PortMatch.Valid]
  · refine iff_of_true ⟨?_, by simp⟩ (by simp)
    grind
  · simp [PortMatch.Valid]
  · simp [PortMatch.Valid]
  · refine iff_of_true ⟨?_, fun last hlast ↦ ?_⟩ (by simp)
    · grind
    · obtain rfl := Option.some.inj hlast
      grind

/-- What holds of the rule for DNS holds of all rules of a policy if it holds of those of its
entry. -/
theorem forall_rules_ofEntry {P : Rule → Prop} (hdns : P dnsRule) {d : Direction} {e : Entry} :
    (∀ d', ∀ r ∈ (c.ofEntry d e).rules d', P r) ↔ ∀ r ∈ e.rules, P r := by
  have hcommon : ∀ r ∈ c.commonRules d, P r := by
    intro r hr
    cases d with
    | ingress => exact absurd hr List.not_mem_nil
    | egress =>
      rw [commonRules] at hr
      split at hr
      · exact List.mem_singleton.mp hr ▸ hdns
      · exact absurd hr List.not_mem_nil
  constructor
  · intro h r hr
    refine h d r ?_
    rw [rules_ofEntry]
    exact List.mem_append_left _ hr
  · intro h d' r hr
    by_cases hd : d' = d
    · rw [hd, rules_ofEntry] at hr
      exact (List.mem_append.mp hr).elim (h r) (hcommon r)
    · rw [rules_ofEntry_of_ne c d e hd] at hr
      exact absurd hr List.not_mem_nil

theorem norm_of_mem_entries {mode : CatalogueMode} {e : Entry} (he : e ∈ c.entries mode) :
    ∀ r ∈ e.rules, r.norm e.ns = r := by
  cases mode with
  | rules d =>
    rcases c.mem_entries_rules_iff.mp he with rfl | rfl | ⟨v, hv, rfl⟩ | ⟨v, hv, rfl⟩
    · exact fun r hr ↦ absurd hr List.not_mem_nil
    · exact List.forall_mem_singleton.mpr rfl
    · refine List.forall_mem_singleton.mpr ?_
      exact congrArg (fun p ↦ (⟨[p], []⟩ : Rule)) (c.norm_of_mem_peers hv)
    · exact List.forall_mem_singleton.mpr rfl
  | targets d =>
    obtain ⟨ns, -, v, -, rfl⟩ := c.mem_entries_targets_iff.mp he
    exact List.forall_mem_singleton.mpr rfl

/-! ## Ports of entries -/

theorem valid_of_mem_entries_rules {d : Direction} {e : Entry} (he : e ∈ c.entries (.rules d)) :
    (∀ r ∈ e.rules, ∀ m ∈ r.ports, m.Valid) ↔
      (e.name = "port-numbered" → c.port.number ≠ 0) := by
  rcases c.mem_entries_rules_iff.mp he with rfl | rfl | ⟨v, hv, rfl⟩ | ⟨v, hv, rfl⟩
  · exact iff_of_true (fun r hr ↦ absurd hr List.not_mem_nil) (by simp [typicalEntry])
  · refine iff_of_true (List.forall_mem_singleton.mpr ?_) (by simp [typicalEntry])
    exact fun m hm ↦ absurd hm List.not_mem_nil
  · refine iff_of_true (List.forall_mem_singleton.mpr ?_) fun hname ↦ ?_
    · exact fun m hm ↦ absurd hm List.not_mem_nil
    · have hchars := congrArg String.toList hname
      simp [peerEntry, typicalEntry, toString] at hchars
  · have hname : (c.portEntry v).name = "port-numbered" ↔ v.1 = "numbered" :=
      ⟨fun h ↦ dashed_injective "port" h, fun h ↦ by rw [portEntry, h]; rfl⟩
    rw [hname, ← c.valid_of_mem_ports hv]
    simp [portEntry, typicalEntry]

theorem valid_of_mem_entries_targets {d : Direction} {e : Entry}
    (he : e ∈ c.entries (.targets d)) :
    (∀ r ∈ e.rules, ∀ m ∈ r.ports, m.Valid) ↔ c.port.number ≠ 0 := by
  obtain ⟨ns, -, v, -, rfl⟩ := c.mem_entries_targets_iff.mp he
  simp [targetEntry, typicalPort, PortMatch.Valid]

theorem contains_ofEntry_iff (d : Direction) (e : Entry) (d' : Direction) :
    (c.ofEntry d e).target.directions.contains d' ↔ d' = d := by
  rw [target_ofEntry]
  cases d <;> cases d' <;> simp [Directions.only, Directions.contains]

theorem governs_ofEntry (d : Direction) (e : Entry) : (c.ofEntry d e).Governs :=
  ⟨d, (c.contains_ofEntry_iff d e d).mpr rfl⟩

theorem norm_ofEntry {mode : CatalogueMode} {e : Entry} (he : e ∈ c.entries mode) :
    (c.ofEntry mode.direction e).norm = c.ofEntry mode.direction e := by
  refine Policy.norm_eq_self ?_
  rw [target_ofEntry]
  exact (c.forall_rules_ofEntry (P := fun r ↦ r.norm e.ns = r) rfl).mpr (c.norm_of_mem_entries he)

theorem portsValid_ofEntry_iff (d : Direction) (e : Entry) :
    (c.ofEntry d e).PortsValid ↔ ∀ r ∈ e.rules, ∀ m ∈ r.ports, m.Valid := by
  refine c.forall_rules_ofEntry (P := fun r ↦ ∀ m ∈ r.ports, m.Valid) fun m hm ↦ ?_
  rw [dnsRule, List.mem_cons, List.mem_singleton] at hm
  rcases hm with rfl | rfl <;> exact ⟨by decide, by simp⟩

/-- **The catalogue is valid and free of collisions.** Its policies govern the direction of their
family and no other. With a typical port that is not zero all of them come back from their
documents. With port zero the documents that are refused are those that mention it by its number:
one in each family of rules, and all in the families of targets. No two policies of a family of
rules have the same name, and policies for several targets only if a namespace is repeated. -/
theorem policies_valid :
    (∀ mode, ∀ p ∈ c.policies mode, ∀ d,
      p.target.directions.contains d ↔ d = mode.direction) ∧
    (c.port.number ≠ 0 → ∀ mode, ∀ p ∈ c.policies mode, p.RoundTrips) ∧
    (c.port.number = 0 → ∀ d,
      (∃ p ∈ c.policies (.rules d), p.name = policyName d "port-numbered") ∧
      (∀ p ∈ c.policies (.rules d), (p.Refused ↔ p.name = policyName d "port-numbered") ∧
        (p.RoundTrips ↔ p.name ≠ policyName d "port-numbered")) ∧
      ∀ p ∈ c.policies (.targets d), p.Refused) ∧
    ∀ d, (c.keys (.rules d)).Nodup ∧ ((c.keys (.targets d)).Nodup ↔ c.namespaces.Nodup) := by
  refine ⟨?_, ?_, ?_, fun d ↦ ⟨c.nodup_keys_rules d, c.nodup_keys_targets_iff d⟩⟩
  · intro mode p hp d
    obtain ⟨e, -, rfl⟩ := c.mem_policies_iff.mp hp
    exact c.contains_ofEntry_iff _ e d
  · intro hport mode p hp
    obtain ⟨e, he, rfl⟩ := c.mem_policies_iff.mp hp
    rw [Policy.roundTrips_iff (c.governs_ofEntry _ e) (c.norm_ofEntry he), portsValid_ofEntry_iff]
    cases mode with
    | rules d => exact (c.valid_of_mem_entries_rules he).mpr fun _ ↦ hport
    | targets d => exact (c.valid_of_mem_entries_targets he).mpr hport
  · intro hport d
    refine ⟨?_, ?_, ?_⟩
    · have hentry : c.portEntry ("numbered", c.typicalPort) ∈ c.entries (.rules d) :=
        c.mem_entries_rules_iff.mpr
          (Or.inr (Or.inr (Or.inr ⟨_, List.mem_cons_self, rfl⟩)))
      exact ⟨_, c.mem_policies_iff.mpr ⟨_, hentry, rfl⟩, c.name_ofEntry _ _⟩
    · intro p hp
      obtain ⟨e, he, rfl⟩ := c.mem_policies_iff.mp hp
      have hgoverns := c.governs_ofEntry d e
      have hports : (c.ofEntry d e).PortsValid ↔ e.name ≠ "port-numbered" := by
        rw [portsValid_ofEntry_iff, c.valid_of_mem_entries_rules he, hport]
        simp
      have hname : (c.ofEntry d e).name = policyName d "port-numbered" ↔
          e.name = "port-numbered" := by
        rw [name_ofEntry, (policyName_injective d).eq_iff]
      constructor
      · exact ((Policy.refused_iff hgoverns).trans (not_congr hports)).trans
          (not_not.trans hname.symm)
      · exact ((Policy.roundTrips_iff hgoverns (c.norm_ofEntry he)).trans hports).trans
          (not_congr hname.symm)
    · intro p hp
      obtain ⟨e, he, rfl⟩ := c.mem_policies_iff.mp hp
      rw [Policy.refused_iff (c.governs_ofEntry _ e), portsValid_ofEntry_iff,
        c.valid_of_mem_entries_targets he]
      exact not_not_intro hport

/-- A catalogue for two namespaces that allows DNS. -/
def someCatalogue : Catalogue := ⟨["x", "y"], .v4 0x0A000009#32, ⟨.tcp, 80⟩, true⟩

/-- The policy for another namespace comes back. The policies for port zero on a target do not, and
a repeated namespace repeats them. -/
theorem policies_valid_someCatalogue :
    Policy.RoundTrips ⟨"egress-peer-other-namespace", ⟨"x", typicalTarget, .only .egress⟩, [],
        [⟨[.pods (.selected (.ofLabel "ns" "y")) .everything], []⟩, dnsRule]⟩ ∧
      Policy.Refused ⟨"ingress-y-all", ⟨"y", .everything, .only .ingress⟩,
        [⟨[typicalPeer], [.number .sctp 0 none]⟩], []⟩ ∧
      ¬(keys { someCatalogue with namespaces := ["x", "x"] } (.targets .ingress)).Nodup := by
  obtain ⟨-, hvalid, -, -⟩ := someCatalogue.policies_valid
  obtain ⟨-, -, hzero, -⟩ := policies_valid { someCatalogue with port := ⟨.sctp, 0⟩ }
  obtain ⟨-, -, -, hkeys⟩ := policies_valid { someCatalogue with namespaces := ["x", "x"] }
  refine ⟨hvalid (by decide) (.rules .egress) _ (by decide +kernel),
    (hzero rfl .ingress).2.2 _ (by decide +kernel), ?_⟩
  rw [(hkeys .ingress).2]
  decide

end Catalogue

end Reachability
