import Reachability.Proofs.Verdict

/-!
# Missing facts

Two kinds of facts may be missing from a topology: the address of a workload, and a port that a rule
asks for by its name. Without the address no decision is made, and without the port the outcome is
unknown. In both cases what is there already is conservative: supplying missing facts fills the gaps
and changes nothing else.

Traffic refines other traffic if all that is known of the other is known of it. A rule that is not
stuck says the same about both as far as peers go, and about ports it may at most come to know what
it could not tell before. Hence an outcome that is not unknown stays (`Decides.settles`), and if
only addresses are supplied the whole decision stays (`Decides.located`).
-/

namespace Reachability

/-! ## Knowing more -/

/-- Every named port of the first workload is one of the second, with the same number. -/
def Workload.PortsKept (w w' : Workload) : Prop :=
  ∀ n p number, w.resolveNamed n p = some number → w'.resolveNamed n p = some number

/-- Containers that come after those of a workload take none of its named ports away. -/
theorem Workload.portsKept_append (w : Workload) (more : List Container) :
    w.PortsKept { w with containers := w.containers ++ more } := by
  intro n p number h
  obtain ⟨port, hfind, rfl⟩ := Option.map_eq_some_iff.mp h
  rw [resolveNamed, ports, List.flatMap_append, List.find?_append,
    show (w.containers.flatMap (·.ports)).find? _ = some port from hfind]
  rfl

/-- The same workload, with the address and the named ports that are known of the first one. -/
structure Workload.Refines (w w' : Workload) : Prop where
  key : w'.key = w.key
  labels : w'.labels = w.labels
  address : ∀ a, w.address = some a → w'.address = some a
  ports : w.PortsKept w'

/-- The same endpoint, with a workload of which as much is known. -/
structure Endpoint.Refines (e e' : Endpoint) : Prop where
  workload : e.workload.Refines e'.workload
  namespaceLabels : e'.namespaceLabels = e.namespaceLabels

/-- The same traffic, with ends of which as much is known. -/
structure Traffic.Refines (s s' : Traffic) : Prop where
  source : s.source.Refines s'.source
  destination : s.destination.Refines s'.destination
  port : s'.port = s.port

theorem Workload.Refines.refl (w : Workload) : w.Refines w where
  key := rfl
  labels := rfl
  address _ := id
  ports _ _ _ := id

theorem Endpoint.Refines.refl (e : Endpoint) : e.Refines e := ⟨.refl e.workload, rfl⟩

namespace Traffic.Refines

variable {s s' : Traffic}

theorem localEnd (h : s.Refines s') (d : Direction) : (s.localEnd d).Refines (s'.localEnd d) := by
  cases d with
  | ingress => exact h.destination
  | egress => exact h.source

theorem peerEnd (h : s.Refines s') (d : Direction) : (s.peerEnd d).Refines (s'.peerEnd d) := by
  cases d with
  | ingress => exact h.source
  | egress => exact h.destination

theorem inForce_eq (h : s.Refines s') (policies : List Policy) (d : Direction) :
    inForce policies d s' = inForce policies d s :=
  List.filter_congr fun p _ ↦
    p.governs_congr (h.localEnd d).workload.key (h.localEnd d).workload.labels d

theorem rulesInForce_eq (h : s.Refines s') (policies : List Policy) (d : Direction) :
    rulesInForce policies d s' = rulesInForce policies d s := by
  rw [rulesInForce, rulesInForce, h.inForce_eq]

end Traffic.Refines

/-! ## What rules say -/

section Peers

variable {e e' : Endpoint}

theorem Peer.Matches.not_needsAddress {p : Peer} (h : p.Matches e) : ¬p.NeedsAddress e := by
  cases p with
  | pods namespaces selector => exact id
  | network net =>
    obtain ⟨a, ha, -⟩ := h
    rw [NeedsAddress, ha]
    exact Option.some_ne_none a

theorem Endpoint.Refines.needsAddress (h : e.Refines e') {p : Peer} (hp : p.NeedsAddress e') :
    p.NeedsAddress e := by
  cases p with
  | pods namespaces selector => exact hp
  | network net =>
    rw [Peer.NeedsAddress, Option.eq_none_iff_forall_ne_some]
    intro a ha
    exact Option.some_ne_none a ((h.workload.address a ha).symm.trans hp)

/-- A peer that can be decided is decided as before. -/
theorem Endpoint.Refines.matches_iff (h : e.Refines e') {p : Peer} (hp : ¬p.NeedsAddress e) :
    p.Matches e' ↔ p.Matches e := by
  cases p with
  | pods namespaces selector =>
    have hadmits : namespaces.admits e' = namespaces.admits e := by
      cases namespaces with
      | named name => rw [NamespaceMatch.admits, NamespaceMatch.admits, h.workload.key]
      | selected selector => rw [NamespaceMatch.admits, NamespaceMatch.admits, h.namespaceLabels]
    rw [Peer.Matches, Peer.Matches, hadmits, h.workload.labels]
  | network net =>
    obtain ⟨a, ha⟩ := Option.ne_none_iff_exists'.mp hp
    rw [Peer.Matches, Peer.Matches, ha, h.workload.address a ha]

theorem Endpoint.Refines.matches (h : e.Refines e') {p : Peer} (hp : p.Matches e) : p.Matches e' :=
  (h.matches_iff hp.not_needsAddress).mpr hp

theorem Endpoint.Refines.stuck (h : e.Refines e') {r : Rule} (hr : r.Stuck e') : r.Stuck e :=
  Meets.weaken hr (fun _ _ hp ↦ Or.inl (mt h.matches hp)) fun _ _ hp ↦ h.needsAddress hp

theorem Endpoint.Refines.peerMatches (h : e.Refines e') {r : Rule} (hr : r.PeerMatches e) :
    r.PeerMatches e' :=
  hr.imp_right fun ⟨p, hp, hmatches⟩ ↦ ⟨p, hp, h.matches hmatches⟩

/-- A rule that is not stuck is about no other peers than before. -/
theorem Endpoint.Refines.peerMatches_of_not_stuck (h : e.Refines e') {r : Rule} (hr : ¬r.Stuck e)
    (hpeer : r.PeerMatches e') : r.PeerMatches e := by
  refine hpeer.imp_right fun ⟨p, hp, hmatches⟩ ↦ ?_
  by_contra hnone
  -- no peer picked the endpoint before, so the walk came to the one that does now
  have hneeds : p.NeedsAddress e := by
    by_contra hlocated
    exact hnone ⟨p, hp, (h.matches_iff hlocated).mp hmatches⟩
  obtain ⟨before, after, hsplit⟩ := List.append_of_mem hp
  refine hr ⟨before, p, after, hsplit, fun q hq hq' ↦ hnone ⟨q, ?_, hq'⟩, hneeds⟩
  simp [hsplit, hq]

end Peers

namespace Workload.PortsKept

variable {w w' : Workload} {port : ServicePort} {m : PortMatch} {r : Rule}

theorem covers (h : w.PortsKept w') (hm : m.Covers port w) : m.Covers port w' := by
  cases m with
  | protocol p => exact hm
  | number p first last => exact hm
  | name p n => exact ⟨hm.1, h n p _ hm.2⟩

theorem dangles (h : w.PortsKept w') (hm : m.Dangles port w') : m.Dangles port w := by
  cases m with
  | protocol p => exact hm
  | number p first last => exact hm
  | name p n =>
    refine ⟨hm.1, PortMatch.resolveNamed_eq_none_iff.mp ?_⟩
    rw [Option.eq_none_iff_forall_ne_some]
    intro number hresolved
    have hnone := PortMatch.resolveNamed_eq_none_iff.mpr hm.2
    exact Option.some_ne_none _ ((h n p number hresolved).symm.trans hnone)

/-- A matcher that comes to cover a port could not tell before, if it did not cover it. -/
theorem covers_or_dangles (h : w.PortsKept w') (hm : m.Covers port w') :
    m.Covers port w ∨ m.Dangles port w := by
  cases m with
  | protocol p => exact Or.inl hm
  | number p first last => exact Or.inl hm
  | name p n =>
    cases hresolved : w.resolveNamed n p with
    | none => exact Or.inr ⟨hm.1, PortMatch.resolveNamed_eq_none_iff.mp hresolved⟩
    | some number =>
      exact Or.inl ⟨hm.1, hresolved.trans ((h n p number hresolved).symm.trans hm.2)⟩

theorem coversPort (h : w.PortsKept w') (hr : r.CoversPort port w) : r.CoversPort port w' :=
  hr.imp_right fun ⟨m, hm, hcovers⟩ ↦ ⟨m, hm, h.covers hcovers⟩

theorem coversPort_or_portUndecided (h : w.PortsKept w') (hr : r.CoversPort port w') :
    r.CoversPort port w ∨ r.PortUndecided port w := by
  by_cases hbefore : r.CoversPort port w
  · exact Or.inl hbefore
  · obtain ⟨hports, hnone⟩ := not_or.mp hbefore
    obtain ⟨m, hm, hcovers⟩ := hr.resolve_left hports
    refine Or.inr ⟨fun m hm hcovers ↦ hnone ⟨m, hm, hcovers⟩, m, hm, ?_⟩
    exact (h.covers_or_dangles hcovers).resolve_left fun hcovers ↦ hnone ⟨m, hm, hcovers⟩

theorem portUndecided (h : w.PortsKept w') (hr : r.PortUndecided port w') :
    r.PortUndecided port w := by
  obtain ⟨hnone, m, hm, hdangles⟩ := hr
  exact ⟨fun m hm hcovers ↦ hnone m hm (h.covers hcovers), m, hm, h.dangles hdangles⟩

end Workload.PortsKept

namespace Traffic.Refines

variable {s s' : Traffic} {d : Direction} {r : Rule}

theorem allowsIn (h : s.Refines s') (hr : r.AllowsIn d s) : r.AllowsIn d s' := by
  refine ⟨(h.peerEnd d).peerMatches hr.1, ?_⟩
  rw [h.port]
  exact h.destination.workload.ports.coversPort hr.2

theorem allowsIn_or_undecidedIn (h : s.Refines s') (free : ¬r.Stuck (s.peerEnd d))
    (hr : r.AllowsIn d s') : r.AllowsIn d s ∨ r.UndecidedIn d s := by
  have hpeer := (h.peerEnd d).peerMatches_of_not_stuck free hr.1
  have hport := h.destination.workload.ports.coversPort_or_portUndecided hr.2
  rw [h.port] at hport
  exact hport.imp (And.intro hpeer) (And.intro hpeer)

theorem undecidedIn (h : s.Refines s') (free : ¬r.Stuck (s.peerEnd d)) (hr : r.UndecidedIn d s') :
    r.UndecidedIn d s := by
  have hport := h.destination.workload.ports.portUndecided hr.2
  rw [h.port] at hport
  exact ⟨(h.peerEnd d).peerMatches_of_not_stuck free hr.1, hport⟩

/-- What was not passed over and is now was stuck before. -/
theorem passedOver_or_stuck (h : s.Refines s') (hr : r.PassedOver d s') :
    r.PassedOver d s ∨ r.Stuck (s.peerEnd d) := by
  by_cases hstuck : r.Stuck (s.peerEnd d)
  · exact Or.inr hstuck
  · exact Or.inl ⟨hstuck, mt h.allowsIn hr.2⟩

end Traffic.Refines

/-! ## Outcomes that are known stay -/

section Decides

variable {policies : List Policy} {d : Direction} {s s' : Traffic} {a : Decision}

/-- The walk over the rules of these policies comes to a rule that is stuck. -/
def GetsStuck (policies : List Policy) (d : Direction) (traffic : Traffic) : Prop :=
  Meets (fun p : Policy ↦ ∀ r ∈ p.rules d, r.PassedOver d traffic)
    (fun p ↦ Meets (fun r : Rule ↦ r.PassedOver d traffic) (fun r ↦ r.Stuck (traffic.peerEnd d))
      (p.rules d)) policies

theorem exists_decides_error_iff :
    (∃ e, Decides policies d s (.error e)) ↔ GetsStuck (inForce policies d s) d s := by
  constructor
  · rintro ⟨e, h⟩
    cases h with
    | @missingAddress p r reached stuck =>
      obtain ⟨before, after, earlier, later, hsplit, hrules, hbefore, hearlier⟩ := reached
      exact ⟨before, p, after, hsplit, hbefore, earlier, r, later, hrules, hearlier, stuck⟩
  · rintro ⟨before, p, after, hsplit, hbefore, earlier, r, later, hrules, hearlier, stuck⟩
    exact ⟨_, .missingAddress ⟨before, after, earlier, later, hsplit, hrules, hbefore, hearlier⟩
      stuck⟩

/-- A walk that gets stuck got stuck before, though perhaps earlier. -/
theorem Traffic.Refines.getsStuck (h : s.Refines s') (hstuck : GetsStuck policies d s') :
    GetsStuck policies d s := by
  refine Meets.weaken hstuck (fun p _ hpassed ↦ ?_) fun p _ hstops ↦ ?_
  · -- a rule of a policy that is passed over now may have been the one that was stuck
    refine (forall_or_meets_not (fun r : Rule ↦ r.PassedOver d s) (p.rules d)).imp_right ?_
    intro hstops
    exact hstops.weaken (fun _ _ ↦ Or.inl) fun r hr hnot ↦
      (h.passedOver_or_stuck (hpassed r hr)).resolve_left hnot
  · exact hstops.weaken (fun _ _ ↦ h.passedOver_or_stuck) fun _ _ ↦ (h.peerEnd d).stuck

/-- Unless the traffic is allowed, all rules have been tried, and none is stuck. -/
theorem Decides.not_stuck (h : Decides policies d s (.ok a)) (hnot : a.outcome ≠ .allowed)
    {r : Rule} (hr : r ∈ rulesInForce policies d s) : ¬r.Stuck (s.peerEnd d) := by
  obtain ⟨p, hp, hrule⟩ := List.mem_flatMap.mp hr
  cases h with
  | untargeted none => exact absurd rfl hnot
  | allowed reached free allows => exact absurd rfl hnot
  | unresolved passed undecided => exact (passed p hp r hrule).1
  | noRules some denies =>
    exact absurd (Policy.rules_eq_nil_of_deniesAll (denies p hp)) (List.ne_nil_of_mem hrule)
  | noMatchingRule passed decided rules => exact (passed p hp r hrule).1

/-- **An outcome that is not unknown stays.** Where a decision is made, a decision is made when more
is known, and it has the same outcome unless the outcome was unknown. -/
theorem Decides.settles (hs : s.Refines s') (ha : Decides policies d s (.ok a)) :
    ∃ b, Decides policies d s' (.ok b) ∧ a.outcome.Settles b.outcome := by
  have hdecides := decides_decideBy policies d s'
  cases hresult : PolicyIndex.decideBy (inForce policies d s') d s' with
  | error e =>
    -- the walk would have got stuck before, but a decision was made
    rw [hresult] at hdecides
    have hstuck := exists_decides_error_iff.mp ⟨e, hdecides⟩
    rw [hs.inForce_eq] at hstuck
    obtain ⟨e', herror⟩ := exists_decides_error_iff.mpr (hs.getsStuck hstuck)
    exact absurd (ha.unique herror) (by simp)
  | ok b =>
    rw [hresult] at hdecides
    refine ⟨b, hdecides, fun hknown ↦ ?_⟩
    cases ho : a.outcome with
    | unknown => exact absurd ho hknown
    | allowed =>
      rw [hdecides.outcome_eq_allowed_iff, hs.inForce_eq, hs.rulesInForce_eq]
      exact (ha.outcome_eq_allowed_iff.mp ho).imp_right fun ⟨r, hr, hallows⟩ ↦
        ⟨r, hr, hs.allowsIn hallows⟩
    | denied =>
      rw [hdecides.outcome_eq_denied_iff, hs.inForce_eq, hs.rulesInForce_eq]
      -- all rules were tried in vain, and so none was stuck
      obtain ⟨hsome, hnone⟩ := ha.outcome_eq_denied_iff.mp ho
      refine ⟨hsome, fun r hr ↦ ?_⟩
      have free := ha.not_stuck (by simp [ho]) hr
      obtain ⟨hallows, hundecided⟩ := hnone r hr
      exact ⟨fun h ↦ (hs.allowsIn_or_undecidedIn free h).elim hallows hundecided,
        fun h ↦ hundecided (hs.undecidedIn free h)⟩

/-! ## Addresses change no decision -/

section Located

variable (hs : s.Refines s')
  (hports : s'.destination.workload.PortsKept s.destination.workload)

include hs hports

theorem Rule.PassedOver.located {r : Rule} (hr : r.PassedOver d s) : r.PassedOver d s' := by
  refine ⟨mt (hs.peerEnd d).stuck hr.1, fun hallows ↦ hr.2 ?_⟩
  have hport := hports.coversPort hallows.2
  rw [hs.port] at hport
  exact ⟨(hs.peerEnd d).peerMatches_of_not_stuck hr.1 hallows.1, hport⟩

theorem Rule.UndecidedIn.located {r : Rule} (hr : r.UndecidedIn d s) : r.UndecidedIn d s' := by
  have hport := hports.portUndecided hr.2
  rw [← hs.port] at hport
  exact ⟨(hs.peerEnd d).peerMatches hr.1, hport⟩

theorem Reached.located {p : Policy} {r : Rule} (h : Reached policies d s p r) :
    Reached policies d s' p r := by
  obtain ⟨before, after, earlier, later, hsplit, hrules, hbefore, hearlier⟩ := h
  exact ⟨before, after, earlier, later, hsplit, hrules,
    fun q hq r hr ↦ (hbefore q hq r hr).located hs hports,
    fun r hr ↦ (hearlier r hr).located hs hports⟩

/-- **A decision that is made without an address stays.** If the destination declares no more ports,
then a decision that is made is made when more is known. -/
theorem Decides.located (ha : Decides policies d s (.ok a)) : Decides policies d s' (.ok a) := by
  have hforce := hs.inForce_eq policies d
  cases ha with
  | untargeted none => exact .untargeted (hforce.trans none)
  | @allowed p r reached free allows =>
    rw [← hforce] at reached
    exact .allowed (reached.located hs hports) (mt (hs.peerEnd d).stuck free) (hs.allowsIn allows)
  | unresolved passed undecided =>
    rw [← hforce] at passed undecided
    obtain ⟨p, hp, r, hr, hund⟩ := undecided
    exact .unresolved (fun p hp r hr ↦ (passed p hp r hr).located hs hports)
      ⟨p, hp, r, hr, hund.located hs hports⟩
  | noRules some denies =>
    rw [← hforce] at some denies
    exact .noRules some denies
  | noMatchingRule passed decided rules =>
    rw [← hforce] at passed decided rules
    exact .noMatchingRule (fun p hp r hr ↦ (passed p hp r hr).located hs hports)
      (fun p hp r hr hund ↦ decided p hp r hr (hs.undecidedIn (passed p hp r hr).1 hund)) rules

end Located

end Decides

/-! ## Topologies -/

namespace Topology

variable {t t' u u' : Topology}

/-- Every endpoint of the first topology is one of the second, where as much is known of it. -/
def Refines (t t' : Topology) : Prop :=
  ∀ key e, t.endpoint key = .ok e → ∃ e', t'.endpoint key = .ok e' ∧ e.Refines e'

/-- Every endpoint of the first topology is one of the second, except that one workload may have
other containers there, which keep its named ports. -/
structure DeclaresMore (t t' : Topology) (key : WorkloadKey) : Prop where
  others : ∀ k e, k ≠ key → t.endpoint k = .ok e → t'.endpoint k = .ok e
  self : ∀ e, t.endpoint key = .ok e → ∃ containers,
    t'.endpoint key = .ok { e with workload := { e.workload with containers := containers } } ∧
      e.workload.PortsKept { e.workload with containers := containers }

theorem DeclaresMore.refines {key : WorkloadKey} (h : t.DeclaresMore t' key) : t.Refines t' := by
  intro k e he
  by_cases hk : k = key
  · subst hk
    obtain ⟨containers, he', hports⟩ := h.self e he
    exact ⟨_, he', ⟨rfl, rfl, fun _ ↦ id, hports⟩, rfl⟩
  · exact ⟨e, h.others k e hk he, .refl e⟩

/-- Every endpoint of the first topology is one of the second, where it may have an address that it
lacks in the first. -/
def Located (t t' : Topology) : Prop :=
  ∀ key e, t.endpoint key = .ok e →
    ∃ e', t'.endpoint key = .ok e' ∧ e.Refines e' ∧ e'.workload.PortsKept e.workload

theorem Located.refl (t : Topology) : t.Located t :=
  fun _ e he ↦ ⟨e, he, .refl e, fun _ _ _ ↦ id⟩

theorem Located.refines (h : t.Located t') : t.Refines t' := by
  intro key e he
  obtain ⟨e', he', hrefines, -⟩ := h key e he
  exact ⟨e', he', hrefines⟩

theorem endpoint_setAddress {key : WorkloadKey} {a : Address} (h : t.setAddress key a = .ok t')
    {k : WorkloadKey} {e : Endpoint} (he : t.endpoint k = .ok e) :
    t'.endpoint k = .ok (if k = key then
      { e with workload := { e.workload with address := some a } } else e) := by
  obtain ⟨ns, w, hns, hw, rfl⟩ := setAddress_eq_ok h
  obtain ⟨ns', hns', hw', hlabels⟩ := endpoint_eq_ok_iff.mp he
  rw [endpoint_eq_ok_iff]
  by_cases hsame : k.ns = key.ns
  · -- the namespace is the one that is written
    obtain rfl := Option.some.inj (hns.symm.trans (hsame ▸ hns'))
    rw [hsame, SortedMap.get?_insert_self]
    refine ⟨_, rfl, ?_⟩
    by_cases hname : k.name = key.name
    · have hk : k = key := by
        cases k
        cases key
        simp_all
      obtain rfl := Option.some.inj (hw.symm.trans (hname ▸ hw'))
      rw [if_pos hk, hname]
      exact ⟨SortedMap.get?_insert_self _ _ _, hlabels⟩
    · rw [if_neg fun hk ↦ hname (congrArg WorkloadKey.name hk)]
      exact ⟨(SortedMap.get?_insert_of_ne _ hname _).trans hw', hlabels⟩
  · rw [if_neg fun hk ↦ hsame (congrArg WorkloadKey.ns hk)]
    exact ⟨ns', (SortedMap.get?_insert_of_ne _ hsame _).trans hns', hw', hlabels⟩

theorem Located.setAddress {key : WorkloadKey} {a : Address} (h : t.Located u)
    (unknown : ∀ w, t.workload? key = some w → w.address = none)
    (hset : u.setAddress key a = .ok u') : t.Located u' := by
  intro k e he
  obtain ⟨e', he', hrefines, hports⟩ := h k e he
  refine ⟨_, endpoint_setAddress hset he', ?_⟩
  split
  · rename_i hk
    obtain ⟨ns, hns, hw, -⟩ := endpoint_eq_ok_iff.mp he
    have hnone := unknown _ (hk ▸ workload?_eq_some_iff.mpr ⟨ns, hns, hw⟩)
    have haddress : ∀ b, e.workload.address = some b → some a = some b := fun b hb ↦
      absurd (hnone.symm.trans hb) (Option.some_ne_none b).symm
    exact ⟨⟨⟨hrefines.workload.key, hrefines.workload.labels, haddress, hrefines.workload.ports⟩,
      hrefines.namespaceLabels⟩, hports⟩
  · exact ⟨hrefines, hports⟩

theorem Located.assign {addresses : List (WorkloadKey × Address)} (h : t.Located u)
    (unknown : ∀ e ∈ addresses, ∀ w, t.workload? e.1 = some w → w.address = none)
    (hassign : u.assign addresses = .ok u') : t.Located u' := by
  induction addresses generalizing u with
  | nil =>
    obtain rfl := Except.ok.inj hassign
    exact h
  | cons e addresses ih =>
    obtain ⟨s, hset, hrest⟩ := assign_cons_eq_ok_iff.mp hassign
    obtain ⟨hfirst, hothers⟩ := List.forall_mem_cons.mp unknown
    exact ih (h.setAddress hfirst hset) hothers hrest

variable {flow : Flow} {traffic traffic' : Traffic}

theorem Refines.exists_traffic (h : t.Refines t') (hof : Traffic.of t flow = .ok traffic) :
    ∃ traffic', Traffic.of t' flow = .ok traffic' ∧ traffic.Refines traffic' := by
  obtain ⟨hsource, hdestination, hport⟩ := Traffic.of_eq_ok_iff.mp hof
  obtain ⟨source, hsource', hsourceRefines⟩ := h _ _ hsource
  obtain ⟨destination, hdestination', hdestinationRefines⟩ := h _ _ hdestination
  exact ⟨⟨source, destination, flow.port⟩, Traffic.of_eq_ok_iff.mpr ⟨hsource', hdestination', rfl⟩,
    hsourceRefines, hdestinationRefines, hport.symm⟩

theorem Located.portsKept (h : t.Located t') (hof : Traffic.of t flow = .ok traffic)
    (hof' : Traffic.of t' flow = .ok traffic') :
    traffic'.destination.workload.PortsKept traffic.destination.workload := by
  obtain ⟨-, hdestination, -⟩ := Traffic.of_eq_ok_iff.mp hof
  obtain ⟨-, hdestination', -⟩ := Traffic.of_eq_ok_iff.mp hof'
  obtain ⟨e', he', -, hports⟩ := h _ _ hdestination
  obtain rfl := Except.ok.inj (hdestination'.symm.trans he')
  exact hports

end Topology

/-! ## Indexes over either topology -/

namespace PolicyIndex

variable {t t' u : Topology} {flow : Flow} {traffic traffic' : Traffic}

/-- The index of a topology serves the traffic of another one too, if the local ends have the keys
and the labels of workloads of the first. -/
theorem serves_build_of_mem (ht : t.Keyed) (policies : List Policy)
    (h : ∀ d, ∃ w ∈ t.workloads, (traffic.localEnd d).workload.key = w.key ∧
      (traffic.localEnd d).workload.labels = w.labels) :
    (build t policies).Serves policies traffic := by
  intro d result
  obtain ⟨w, hw, hkey, hlabels⟩ := h d
  rw [decides_iff, decide_build_of_mem ht policies hw hkey hlabels]

/-- Where one topology refines the other, an index over either serves the traffic of both. -/
theorem serves_of_refines (ht : t.Keyed) (ht' : t'.Keyed) (policies : List Policy)
    (hof : Traffic.of t flow = .ok traffic) (hof' : Traffic.of t' flow = .ok traffic')
    (h : traffic.Refines traffic') (hu : u ∈ [t, t']) :
    (build u policies).Serves policies traffic ∧ (build u policies).Serves policies traffic' := by
  simp only [List.mem_cons, List.not_mem_nil, or_false] at hu
  rcases hu with rfl | rfl
  · refine ⟨serves_build ht policies hof, serves_build_of_mem ht policies fun d ↦ ?_⟩
    obtain ⟨⟨key, hlocal⟩, -⟩ := Traffic.exists_endpoint hof d
    exact ⟨_, (ht.mem_workloads_of_endpoint hlocal).1, (h.localEnd d).workload.key,
      (h.localEnd d).workload.labels⟩
  · refine ⟨serves_build_of_mem ht' policies fun d ↦ ?_, serves_build ht' policies hof'⟩
    obtain ⟨⟨key, hlocal⟩, -⟩ := Traffic.exists_endpoint hof' d
    exact ⟨_, (ht'.mem_workloads_of_endpoint hlocal).1, (h.localEnd d).workload.key.symm,
      (h.localEnd d).workload.labels.symm⟩

variable {policies : List Policy} {index index' : PolicyIndex}

theorem Serves.settles (h : index.Serves policies traffic) (h' : index'.Serves policies traffic')
    (hs : traffic.Refines traffic') {d : Direction} {a : Decision}
    (ha : index.decide d traffic = .ok a) :
    ∃ b, index'.decide d traffic' = .ok b ∧ a.outcome.Settles b.outcome := by
  obtain ⟨b, hb, hsettles⟩ := ((h d _).mp ha).settles hs
  exact ⟨b, (h' d _).mpr hb, hsettles⟩

theorem Serves.settles_evaluate (h : index.Serves policies traffic)
    (h' : index'.Serves policies traffic') (hs : traffic.Refines traffic') {o : Outcome}
    (ho : index.evaluate traffic = .ok o) :
    ∃ o', index'.evaluate traffic' = .ok o' ∧ o.Settles o' := by
  obtain ⟨e, he, heq⟩ := bind_eq_ok_iff.mp ho
  obtain rfl := Except.ok.inj heq
  have hdecide := PolicyIndex.explain_eq_ok_iff.mp he
  obtain ⟨egress, hegress, hegressSettles⟩ := h.settles h' hs (hdecide .egress)
  obtain ⟨ingress, hingress, hingressSettles⟩ := h.settles h' hs (hdecide .ingress)
  refine ⟨Explanation.outcome ⟨egress, ingress⟩, ?_, hegressSettles.and hingressSettles⟩
  rw [evaluate, explain, hegress, hingress]
  rfl

end PolicyIndex

open PolicyIndex

/-- **Supplying missing facts only fills gaps.** If the destination of a flow declares more ports
and keeps its named ones, then an outcome that is not unknown stays, for each direction and for the
flow as a whole. If workloads without an address get one, then every decision that is made stays.
Both hold whichever of the two topologies the policies were indexed over. -/
theorem decide_build_refined {t : Topology} (ht : t.Built) (policies : List Policy) {flow : Flow}
    {traffic : Traffic} (hof : Traffic.of t flow = .ok traffic) :
    (∀ t' : Topology, t'.Built → t.DeclaresMore t' flow.destination →
      ∃ traffic', Traffic.of t' flow = .ok traffic' ∧ ∀ u ∈ [t, t'], ∀ u' ∈ [t, t'],
        (∀ d a, (build u policies).decide d traffic = .ok a →
          ∃ b, (build u' policies).decide d traffic' = .ok b ∧ a.outcome.Settles b.outcome) ∧
        ∀ o, (build u policies).evaluate traffic = .ok o →
          ∃ o', (build u' policies).evaluate traffic' = .ok o' ∧ o.Settles o') ∧
    ∀ (addresses : List (WorkloadKey × Address)) (t' : Topology),
      t.assign addresses = .ok t' →
      (∀ e ∈ addresses, ∀ w, t.workload? e.1 = some w → w.address = none) →
      ∃ traffic', Traffic.of t' flow = .ok traffic' ∧ ∀ u ∈ [t, t'], ∀ u' ∈ [t, t'],
        (∀ d a, (build u policies).decide d traffic = .ok a →
          (build u' policies).decide d traffic' = .ok a) ∧
        ∀ e, (build u policies).explain traffic = .ok e →
          (build u' policies).explain traffic' = .ok e := by
  refine ⟨fun t' ht' hmore ↦ ?_, fun addresses t' hassign unknown ↦ ?_⟩
  · -- more ports: outcomes settle
    obtain ⟨traffic', hof', hs⟩ := hmore.refines.exists_traffic hof
    refine ⟨traffic', hof', fun u hu u' hu' ↦ ?_⟩
    have hserves := (serves_of_refines ht.keyed ht'.keyed policies hof hof' hs hu).1
    have hserves' := (serves_of_refines ht.keyed ht'.keyed policies hof hof' hs hu').2
    exact ⟨fun d a ↦ hserves.settles hserves' hs, fun o ↦ hserves.settles_evaluate hserves' hs⟩
  · -- more addresses: the destination declares the same ports, and decisions stay
    have hlocated := (Topology.Located.refl t).assign unknown hassign
    obtain ⟨traffic', hof', hs⟩ := hlocated.refines.exists_traffic hof
    have hports := hlocated.portsKept hof hof'
    refine ⟨traffic', hof', fun u hu u' hu' ↦ ?_⟩
    have ht' := (ht.assign hassign).keyed
    have hserves := (serves_of_refines ht.keyed ht' policies hof hof' hs hu).1
    have hserves' := (serves_of_refines ht.keyed ht' policies hof hof' hs hu').2
    have hkept : ∀ d a, Decides policies d traffic (.ok a) → Decides policies d traffic' (.ok a) :=
      fun d a ha ↦ ha.located hs hports
    refine ⟨fun d a ha ↦ (hserves' d _).mpr (hkept d a ((hserves d _).mp ha)), fun e he ↦ ?_⟩
    exact hserves'.explain_eq_ok_iff.mpr fun d ↦ hkept d _ (hserves.explain_eq_ok_iff.mp he d)

/-- Receives on two ports that it asks for by name, and sends to a single address. -/
def namedPortsPolicy : Policy where
  name := "named"
  target := ⟨"x", .everything, ⟨true, true⟩⟩
  ingress := [⟨[], [.name .tcp "serve-81-tcp"]⟩, ⟨[], [.name .tcp "serve-80-tcp"]⟩]
  egress := [⟨[.network ⟨.host (.v4 0x0A000001#32), []⟩], []⟩]

/-- A pod that serves some ports and has no address yet. -/
def Topology.solo (ports : List ServicePort) : Topology := .conventional ["x"] ["a"] ports

/-- The pod of `solo` calls itself. -/
def soloFlow : Flow := ⟨⟨"x", "a"⟩, ⟨"x", "a"⟩, ⟨.tcp, 80⟩⟩

/-- The pod of `solo` as an endpoint. -/
def soloEndpoint (ports : List ServicePort) : Endpoint where
  workload := { Topology.pairPod "a" with containers := ports.map .serving }
  namespaceLabels := (Namespace.new "x" (SortedMap.ofList [("ns", "x")])).labels

theorem declaresMore_solo :
    (Topology.solo [⟨.tcp, 80⟩]).DeclaresMore (.solo [⟨.tcp, 80⟩, ⟨.tcp, 81⟩]) ⟨"x", "a"⟩ where
  others := by
    intro k e hk he
    have hkeys : ∀ w ∈ (Topology.solo [⟨.tcp, 80⟩]).workloads, w.key = ⟨"x", "a"⟩ := by
      decide +kernel
    have hkeyed : (Topology.solo [⟨.tcp, 80⟩]).Keyed := .conventional ["x"] ["a"] [⟨.tcp, 80⟩]
    obtain ⟨hmem, rfl⟩ := hkeyed.mem_workloads_of_endpoint he
    exact absurd (hkeys _ hmem) hk
  self := by
    have hbefore : (Topology.solo [⟨.tcp, 80⟩]).endpoint ⟨"x", "a"⟩ =
        .ok (soloEndpoint [⟨.tcp, 80⟩]) := by decide +kernel
    have hafter : (Topology.solo [⟨.tcp, 80⟩, ⟨.tcp, 81⟩]).endpoint ⟨"x", "a"⟩ =
        .ok (soloEndpoint [⟨.tcp, 80⟩, ⟨.tcp, 81⟩]) := by decide +kernel
    intro e he
    obtain rfl := Except.ok.inj (hbefore.symm.trans he)
    exact ⟨_, hafter, Workload.portsKept_append _ [.serving ⟨.tcp, 81⟩]⟩

/-- What the pod receives from itself it receives when it serves another port as well, and when it
gets the address for want of which it could not decide to send. -/
theorem decide_build_refined_solo :
    (∃ traffic decision, Traffic.of (.solo [⟨.tcp, 80⟩, ⟨.tcp, 81⟩]) soloFlow = .ok traffic ∧
      (build (.solo [⟨.tcp, 80⟩, ⟨.tcp, 81⟩]) [namedPortsPolicy]).decide .ingress traffic =
        .ok decision ∧
      decision.outcome = .allowed) ∧
    ∃ running traffic,
      (Topology.solo [⟨.tcp, 80⟩]).assign [(⟨"x", "a"⟩, .v4 0x0A000001#32)] = .ok running ∧
      Traffic.of running soloFlow = .ok traffic ∧
      (build (.solo [⟨.tcp, 80⟩]) [namedPortsPolicy]).decide .ingress traffic =
        .ok ⟨.allowed, .allowedBy "x/named"⟩ := by
  have hingress : (do
      (build (.solo [⟨.tcp, 80⟩]) [namedPortsPolicy]).decide .ingress
        (← Traffic.of (.solo [⟨.tcp, 80⟩]) soloFlow)) =
      .ok ⟨.allowed, .allowedBy "x/named"⟩ := by decide +kernel
  obtain ⟨traffic, hof, hdecide⟩ := bind_eq_ok_iff.mp hingress
  have hbuilt : (Topology.solo [⟨.tcp, 80⟩]).Built := .conventional ["x"] ["a"] [⟨.tcp, 80⟩]
  obtain ⟨hports, haddresses⟩ := decide_build_refined hbuilt [namedPortsPolicy] hof
  constructor
  · obtain ⟨traffic', hof', hsame⟩ :=
      hports _ (.conventional ["x"] ["a"] [⟨.tcp, 80⟩, ⟨.tcp, 81⟩]) declaresMore_solo
    obtain ⟨hdecisions, -⟩ :=
      hsame _ List.mem_cons_self _ (List.mem_cons_of_mem _ List.mem_cons_self)
    obtain ⟨decision, hdecision, hsettles⟩ := hdecisions _ _ hdecide
    exact ⟨traffic', decision, hof', hdecision, hsettles (by decide)⟩
  · have hnone : ∀ w ∈ (Topology.solo [⟨.tcp, 80⟩]).workloads, w.address = none := by
      decide +kernel
    have hassign : ∃ running, (Topology.solo [⟨.tcp, 80⟩]).assign
        [(⟨"x", "a"⟩, .v4 0x0A000001#32)] = .ok running := ⟨_, rfl⟩
    obtain ⟨running, hassign⟩ := hassign
    obtain ⟨traffic', hof', hsame⟩ := haddresses _ running hassign fun e _ w hw ↦
      hnone w (Topology.mem_workloads_iff_exists.mpr ⟨e.1, hw⟩)
    obtain ⟨hdecisions, -⟩ := hsame _ List.mem_cons_self _ List.mem_cons_self
    exact ⟨running, traffic', hassign, hof', hdecisions _ _ hdecide⟩

end Reachability
