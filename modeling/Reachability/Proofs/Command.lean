import Reachability.Proofs.Address
import Reachability.Proofs.Resources

/-!
# Commands of probes

The command of a job tells what it connects to, although names may hold any character. A target is
read from its end: after its last colon there are digits only. So is the host of a service: once the
domain is taken off, what follows the last dot is the namespace, if namespaces have no dots, and the
rest is the service name, from which the name of the namespace can be taken off in turn.

Brackets do not make two hosts alike. They are put around a host that has a colon, and a host that
looks like another one in brackets has that colon too.
-/

namespace Reachability

/-- Texts that end alike after a last separator are alike before it. -/
theorem eq_of_append_cons_eq {α : Type} {c : α} {l l' r r' : List α} (hr : c ∉ r) (hr' : c ∉ r')
    (h : l ++ c :: r = l' ++ c :: r') : l = l' ∧ r = r' := by
  rcases List.append_eq_append_iff.mp h with ⟨mid, hl', hrest⟩ | ⟨mid, hl, hrest⟩
  · cases mid with
    | nil => exact ⟨by simpa using hl'.symm, (List.cons.inj hrest).2⟩
    | cons d mid =>
      obtain ⟨-, rfl⟩ := List.cons.inj hrest
      exact absurd (List.mem_append_right mid List.mem_cons_self) hr
  · cases mid with
    | nil => exact ⟨by simpa using hl, (List.cons.inj hrest).2.symm⟩
    | cons d mid =>
      obtain ⟨-, rfl⟩ := List.cons.inj hrest
      exact absurd (List.mem_append_right mid List.mem_cons_self) hr'

/-! ## Targets -/

namespace Job

/-- A host as it stands in a target. -/
def writtenHost (host : List Char) : List Char :=
  if ':' ∈ host then '[' :: (host ++ [']']) else host

theorem toList_target (j : Job) : j.target.toList =
    writtenHost j.host.toList ++ ':' :: Nat.toDigits 10 j.port.number.toNat := by
  rw [target, writtenHost]
  split <;> simp [toString, Nat.repr]

theorem writtenHost_injective {host host' : List Char} (h : writtenHost host = writtenHost host') :
    host = host' := by
  rw [writtenHost, writtenHost] at h
  split at h <;> split at h
  case isTrue.isTrue =>
    exact List.append_cancel_right (List.cons.inj h).2
  case isTrue.isFalse hcolon hnone =>
    exact absurd (h ▸ List.mem_cons_of_mem '[' (List.mem_append_left _ hcolon)) hnone
  case isFalse.isTrue hnone hcolon =>
    exact absurd (h ▸ List.mem_cons_of_mem '[' (List.mem_append_left _ hcolon)) hnone
  case isFalse.isFalse => exact h

theorem eq_of_target_eq {j j' : Job} (h : j.target = j'.target) :
    j.host = j'.host ∧ j.port.number = j'.port.number := by
  have hchars := congrArg String.toList h
  rw [toList_target, toList_target] at hchars
  have hcolon : ∀ n, ':' ∉ Nat.toDigits 10 n :=
    Text.not_mem_toDigits (by decide) (by decide) (by decide)
  obtain ⟨hhost, hdigits⟩ := eq_of_append_cons_eq (hcolon _) (hcolon _) hchars
  exact ⟨String.toList_inj.mp (writtenHost_injective hhost),
    UInt16.toNat_inj.mp (Text.toDigits_injective hdigits)⟩

end Job

/-! ## Hosts -/

theorem Address.toString_injective {a a' : Address} (h : toString a = toString a') : a = a' := by
  have hread := AddressGrammar.plain.read_toString a
  rw [h, AddressGrammar.plain.read_toString a', Option.some.injEq] at hread
  exact hread.symm

theorem Workload.requireAddress_eq_ok_iff {w : Workload} {a : Address} :
    w.requireAddress = .ok a ↔ w.address = some a := by
  rw [requireAddress]
  cases w.address <;> simp

namespace JobBuilder

variable {b : JobBuilder} {t : Topology} {config : ProbeConfig}

theorem toList_serviceHost (w : Workload) : (b.serviceHost w).toList =
    ("s-".toList ++ (w.key.ns.toList ++ '-' :: w.key.name.toList) ++ '.' :: w.key.ns.toList) ++
      (".svc.".toList ++ b.clusterDomain.toList) := by
  simp [serviceHost, serviceName, toString]

/-- Services are told apart by their hosts, whatever the names of workloads. -/
theorem key_eq_of_serviceHost_eq {v w : Workload} (hv : '.' ∉ v.key.ns.toList)
    (hw : '.' ∉ w.key.ns.toList) (h : b.serviceHost v = b.serviceHost w) : v.key = w.key := by
  have hchars := congrArg String.toList h
  rw [toList_serviceHost, toList_serviceHost, List.append_cancel_right_eq] at hchars
  obtain ⟨hservice, hns⟩ := eq_of_append_cons_eq hv hw hchars
  rw [hns, List.append_cancel_left_eq, List.append_cancel_left_eq, List.cons.injEq] at hservice
  calc v.key = ⟨v.key.ns, v.key.name⟩ := rfl
    _ = w.key := by rw [String.toList_inj.mp hns, String.toList_inj.mp hservice.2]

/-- A job is for a workload, by the host of that workload. -/
theorem exists_host_of_mem {expected : Option Matrix} {js : Jobs}
    (hjs : b.build t config expected = .ok js) {j : Job} (hj : j ∈ js.valid) :
    ∃ w ∈ t.workloads, j.destination = .of w ∧ b.host config.mode w = .ok j.host := by
  obtain ⟨js', henumerate, hexpected⟩ := build_eq_ok hjs
  obtain ⟨hvalid, -⟩ := enumerate_eq_ok henumerate
  obtain ⟨j', hj', o, rfl⟩ := exists_of_forall₂ hexpected hj
  obtain ⟨e, he, hmakes⟩ := exists_of_forall₂ hvalid hj'
  obtain ⟨pair, hpair, hask⟩ := List.mem_flatMap.mp he
  obtain ⟨p, -, rfl⟩ := List.mem_map.mp hask
  exact ⟨pair.2, (mem_pairs_iff.mp hpair).2, hmakes.destination, hmakes.host⟩

end JobBuilder

/-! ## Commands -/

theorem Protocol.lowerName_injective {p q : Protocol} (h : p.lowerName = q.lowerName) : p = q := by
  cases p <;> cases q <;> first | rfl | exact absurd h (by decide)

theorem Job.eq_of_command_eq {j j' : Job} (h : j.command = j'.command) :
    j.host = j'.host ∧ j.port = j'.port := by
  simp only [command, List.cons.injEq, true_and, and_true] at h
  obtain ⟨htarget, -, hprotocol⟩ := h
  obtain ⟨hhost, hnumber⟩ := eq_of_target_eq htarget
  have hname : j.port.protocol.lowerName = j'.port.protocol.lowerName := by
    have hchars := congrArg String.toList hprotocol
    exact String.toList_inj.mp (by simpa [toString] using hchars)
  refine ⟨hhost, ?_⟩
  calc j.port = ⟨j.port.protocol, j.port.number⟩ := rfl
    _ = j'.port := by rw [Protocol.lowerName_injective hname, hnumber]

/-- **Different probes run different commands.** A target tells the host and the port, for any host.
So two jobs of one build that have the same command are for the same port, and they are for the same
workload or, where workloads are addressed by their addresses, for the same address. -/
theorem command_tells_destination :
    (∀ j j' : Job, j.target = j'.target → j.host = j'.host ∧ j.port.number = j'.port.number) ∧
      ∀ (b : JobBuilder) (t : Topology) (config : ProbeConfig) (expected : Option Matrix)
        (js : Jobs),
        t.Built → (∀ n ∈ t.namespaces.values, '.' ∉ n.name.toList) →
        b.build t config expected = .ok js → ∀ j ∈ js.valid, ∀ j' ∈ js.valid,
        j.command = j'.command → j.port = j'.port ∧
          (config.mode = .serviceName → j.destination = j'.destination) ∧
          (config.mode = .podAddress →
            ∃ a, j.destination.address = some a ∧ j'.destination.address = some a) := by
  refine ⟨fun j j' ↦ Job.eq_of_target_eq, ?_⟩
  intro b t config expected js ht hdots hjs j hj j' hj' hcommand
  obtain ⟨hhost, hport⟩ := Job.eq_of_command_eq hcommand
  obtain ⟨v, hv, hdestination, hvhost⟩ := JobBuilder.exists_host_of_mem hjs hj
  obtain ⟨w, hw, hdestination', hwhost⟩ := JobBuilder.exists_host_of_mem hjs hj'
  have hundotted : ∀ u ∈ t.workloads, '.' ∉ u.key.ns.toList := by
    intro u hu
    obtain ⟨n, hn, hname⟩ := ht.keyed.exists_namespace hu
    exact hname ▸ hdots n hn
  rw [← hhost] at hwhost
  refine ⟨hport, fun hmode ↦ ?_, fun hmode ↦ ?_⟩
  · rw [hmode] at hvhost hwhost
    have hservices : b.serviceHost v = b.serviceHost w :=
      (Except.ok.inj hvhost).trans (Except.ok.inj hwhost).symm
    have hkey := JobBuilder.key_eq_of_serviceHost_eq (hundotted v hv) (hundotted w hw) hservices
    rw [hdestination, hdestination', ht.keyed.eq_of_key_eq hv hw hkey]
  · rw [hmode] at hvhost hwhost
    obtain ⟨a, hva, hahost⟩ := bind_eq_ok_iff.mp hvhost
    obtain ⟨c, hwc, hchost⟩ := bind_eq_ok_iff.mp hwhost
    obtain rfl : a = c :=
      Address.toString_injective ((Except.ok.inj hahost).trans (Except.ok.inj hchost).symm)
    rw [Workload.requireAddress_eq_ok_iff] at hva hwc
    exact ⟨a, by rw [hdestination, ← hva]; rfl, by rw [hdestination', ← hwc]; rfl⟩

/-- Two namespaces and two pods whose services share a name. -/
def dashed : Topology := .conventional ["x", "x-x"] ["a", "x-a"] [⟨.tcp, 80⟩]

/-- Jobs from two sources to one destination have the same command. That services share a name does
not matter. -/
theorem command_tells_destination_dashed :
    (∃ v ∈ dashed.workloads, ∃ w ∈ dashed.workloads, v ≠ w ∧ serviceName v = serviceName w) ∧
      dashed.Built ∧ (∀ n ∈ dashed.namespaces.values, '.' ∉ n.name.toList) ∧
      ∃ js, someBuilder.build dashed ⟨.all, .serviceName⟩ none = .ok js ∧
        ∃ j ∈ js.valid, ∃ j' ∈ js.valid, j.source ≠ j'.source ∧ j.command = j'.command ∧
          j.port = j'.port ∧ j.destination = j'.destination := by
  have hbuilt : dashed.Built := .conventional ["x", "x-x"] ["a", "x-a"] [⟨.tcp, 80⟩]
  have hdots : ∀ n ∈ dashed.namespaces.values, '.' ∉ n.name.toList := by decide +kernel
  have hsame : (someBuilder.build dashed ⟨.all, .serviceName⟩ none).map (fun js ↦
      decide (∃ j ∈ js.valid, ∃ j' ∈ js.valid, j.source ≠ j'.source ∧ j.command = j'.command)) =
        .ok true := by decide +kernel
  refine ⟨by decide +kernel, hbuilt, hdots, ?_⟩
  cases hbuild : someBuilder.build dashed ⟨.all, .serviceName⟩ none with
  | error e =>
    rw [hbuild] at hsame
    exact absurd hsame (by simp [Except.map])
  | ok js =>
    rw [hbuild] at hsame
    obtain ⟨j, hj, j', hj', hsource, hcommand⟩ := of_decide_eq_true (Except.ok.inj hsame)
    obtain ⟨hport, hservice, -⟩ :=
      command_tells_destination.2 _ _ _ _ _ hbuilt hdots hbuild j hj j' hj' hcommand
    exact ⟨js, rfl, j, hj, j', hj', hsource, hcommand, hport, hservice rfl⟩

end Reachability
