import Mathlib.Data.Finset.Basic
import Mathlib.Data.Finset.Lattice.Lemmas
import Vpn1.Lib.Sessions

/-! The `ufw` rules of `install.sh` and `firewall-ufw.sh`, the record of those that are vpn1's own,
and their removal by `uninstall.sh`. Whether a rule is removed again depends on the run that was the
first to allow it. -/

namespace Vpn1.Deploy.Firewall

open Traced Session

/-- What `preflight_validate_port` admits. -/
abbrev Port := { n : Nat // 1 ≤ n ∧ n ≤ 65535 }

/-- An allow rule, as `ufw status` lists it. -/
inductive Rule
  | tcp (port : Port)
  | udp (port : Port)
  -- an application profile, or a rule of any other form
  | named (name : String)
  deriving DecidableEq

def port80 : Port := ⟨80, by decide⟩

def port443 : Port := ⟨443, by decide⟩

def sshPort : Port := ⟨22, by decide⟩

inductive Backend
  | firewalld
  | ufw
  deriving DecidableEq, Repr

/-- `firewall-owned.env`. -/
structure Record where
  firewallBackend : Backend
  subscriptionPort : Port
  owned443Tcp : Bool
  owned443Udp : Bool
  ownedSubscriptionTcp : Bool
  deriving DecidableEq

structure Ufw where
  rules : Finset Rule
  record : Option Record

section Scripts

/-- Adding a rule that is there changes nothing. -/
def allow (r : Rule) : Session Ufw Unit :=
  step fun s => { s with rules := insert r s.rules }

def deleteAllow (r : Rule) : Session Ufw Unit :=
  step fun s => { s with rules := s.rules.erase r }

/-- `true` if the rule was added here. -/
def firewallOpenPort80Temp : Session Ufw Bool := do
  let s ← Prog.look id
  if .tcp port80 ∈ s.rules then pure false
  else
    allow (.tcp port80)
    pure true

def firewallClosePort80Temp : Session Ufw Unit := deleteAllow (.tcp port80)

/-- The part of a certificate request that concerns the firewall; nothing is opened while another
program has the port. -/
def attemptAutomaticCertbot (portFree : Bool) : Session Ufw Unit := do
  if portFree then
    let openedPort80 ← firewallOpenPort80Temp
    if openedPort80 then firewallClosePort80Temp else pure ()
  else pure ()

/-- What a run of the installer finds: the port of `sshd`, whether `ufw` knows the profile
`OpenSSH`, and for each certificate it requests whether port 80 is free. -/
structure Setup where
  ssh : Port
  openSshProfile : Bool
  requests : List Bool

def Setup.sshRules (setup : Setup) : List Rule :=
  (if setup.openSshProfile then .named "OpenSSH" else .tcp sshPort) ::
    if setup.ssh = sshPort then [] else [.tcp setup.ssh]

/-- A rule that is missing is added, and is then vpn1's own. -/
def allowOwned (r : Rule) (owned : Bool) : Session Ufw Bool := do
  let s ← Prog.look id
  if r ∈ s.rules then pure owned
  else
    allow r
    pure true

/-- A record of another backend counts as none. -/
def ownedBefore (record : Option Record) : Bool × Bool × Bool :=
  match record with
  | some r =>
    if r.firewallBackend = .ufw then (r.owned443Tcp, r.owned443Udp, r.ownedSubscriptionTcp)
    else (false, false, false)
  | none => (false, false, false)

def firewallUfw (setup : Setup) (subscriptionPort : Port) : Session Ufw Unit := do
  let s ← Prog.look id
  let (owned443Tcp, owned443Udp, ownedSubscriptionTcp) := ownedBefore s.record
  Prog.forEach allow setup.sshRules
  let owned443Tcp ← allowOwned (.tcp port443) owned443Tcp
  let owned443Udp ← allowOwned (.udp port443) owned443Udp
  let ownedSubscriptionTcp ← allowOwned (.tcp subscriptionPort) ownedSubscriptionTcp
  step fun s => { s with
    record := some ⟨.ufw, subscriptionPort, owned443Tcp, owned443Udp, ownedSubscriptionTcp⟩ }

/-- The port is the same in all runs: `deployment.toml` commits it before the firewall is touched. -/
def install (subscriptionPort : Port) (setup : Setup) : Session Ufw Unit := do
  Prog.forEach attemptAutomaticCertbot setup.requests
  firewallUfw setup subscriptionPort

def deleteOwned (owned : Bool) (r : Rule) : Session Ufw Unit :=
  if owned then deleteAllow r else pure ()

def removeRules (record : Record) : Session Ufw Unit := do
  deleteOwned record.owned443Tcp (.tcp port443)
  deleteOwned record.owned443Udp (.udp port443)
  deleteOwned record.ownedSubscriptionTcp (.tcp record.subscriptionPort)
  let s ← Prog.look id
  if .tcp port80 ∈ s.rules then deleteAllow (.tcp port80) else pure ()

/-- The checks of the record itself pass for every record that the installer writes. -/
def uninstall : Session Ufw Unit := do
  let s ← Prog.look id
  match s.record with
  | some record =>
    if record.firewallBackend = .ufw then removeRules record else pure ()
    step fun s => { s with record := none }
  | none => pure ()

end Scripts

section Rules

variable {pre : Finset Rule} {port : Port} {s t : Ufw} {r : Rule}

def vpnRules (port : Port) : List Rule := [.tcp port443, .udp port443, .tcp port]

def Record.Owns (record : Record) (r : Rule) : Prop :=
  (record.owned443Tcp ∧ r = .tcp port443) ∨ (record.owned443Udp ∧ r = .udp port443) ∨
    (record.ownedSubscriptionTcp ∧ r = .tcp record.subscriptionPort)

def Ufw.Owned (s : Ufw) (r : Rule) : Prop := ∃ record, s.record = some record ∧ record.Owns r

def Ufw.grow (s : Ufw) (rules : List Rule) : Ufw := { s with rules := s.rules ∪ rules.toFinset }

@[simp] theorem Ufw.mem_grow {rules : List Rule} :
    r ∈ (s.grow rules).rules ↔ r ∈ s.rules ∨ r ∈ rules := by
  simp [Ufw.grow]

@[simp] theorem Ufw.grow_nil (s : Ufw) : s.grow [] = s := by
  simp [Ufw.grow]

theorem Ufw.grow_append (s : Ufw) (a b : List Rule) : s.grow (a ++ b) = (s.grow a).grow b := by
  simp [Ufw.grow]

theorem Ufw.grow_singleton (s : Ufw) (r : Rule) :
    s.grow [r] = { s with rules := insert r s.rules } := by
  simp [Ufw.grow]

theorem Ufw.grow_of_mem (h : r ∈ s.rules) : s.grow [r] = s := by
  rw [Ufw.grow_singleton, Finset.insert_eq_of_mem h]

theorem attemptAutomaticCertbot_wp (portFree : Bool) :
    Wp (attemptAutomaticCertbot portFree) s (fun _ t => ∃ opened : Bool,
      t = s.grow (if opened then [.tcp port80] else [])) (fun res t => res = .ok () ∧ t = s) := by
  unfold attemptAutomaticCertbot
  cases portFree with
  | false => simp
  | true =>
    unfold firewallOpenPort80Temp firewallClosePort80Temp Firewall.allow deleteAllow step
    by_cases hopen : Rule.tcp port80 ∈ s.rules
    · simp [hopen]
    · have hclosed : (insert (Rule.tcp port80) s.rules).erase (.tcp port80) = s.rules :=
        Finset.erase_insert hopen
      simp only [if_true, wp_bind, wp_look, id, hopen, if_false, wp_move, wp_pure, hclosed]
      exact ⟨⟨true, (s.grow_singleton _).symm⟩, ⟨false, s.grow_nil.symm⟩, trivial, trivial⟩

theorem allow_wp (rules : List Rule) :
    Wp (Prog.forEach allow rules) s (fun _ t => ∃ allowed, allowed <+: rules ∧ t = s.grow allowed)
      (fun res t => res = .ok () ∧ t = s.grow rules) := by
  induction rules generalizing s with
  | nil => simp [Prog.forEach]
  | cons r rules ih =>
    have hcons (l : List Rule) : (s.grow [r]).grow l = s.grow (r :: l) := (s.grow_append [r] l).symm
    rw [Prog.forEach, wp_bind, allow, wp_step, ← s.grow_singleton]
    refine ⟨⟨[r], by simp, rfl⟩, ih.mono ?_ ?_⟩
    · rintro _ t ⟨allowed, hprefix, rfl⟩
      exact ⟨r :: allowed, List.cons_prefix_cons.mpr ⟨rfl, hprefix⟩, hcons allowed⟩
    · rintro res t ⟨hres, rfl⟩
      exact ⟨hres, hcons rules⟩

theorem allowOwned_wp (r : Rule) (owned : Bool) :
    Wp (allowOwned r owned) s (fun _ t => t = s.grow [r])
      (fun res t => res = .ok (owned || decide (r ∉ s.rules)) ∧ t = s.grow [r]) := by
  unfold allowOwned Firewall.allow step
  by_cases hthere : r ∈ s.rules
  · simp [hthere, Ufw.grow_of_mem hthere]
  · simp [hthere, Ufw.grow_singleton]

def Setup.commands (setup : Setup) (port : Port) : List Rule := setup.sshRules ++ vpnRules port

/-- The record that is written: what was on record before, and what is new among the rules. -/
def newRecord (port : Port) (rules : Finset Rule) (owned : Bool × Bool × Bool) : Record :=
  ⟨.ufw, port, owned.1 || decide (.tcp port443 ∉ rules),
    owned.2.1 || decide (.udp port443 ∉ insert (.tcp port443) rules),
    owned.2.2 || decide (.tcp port ∉ insert (.udp port443) (insert (.tcp port443) rules))⟩

def Ufw.installed (s : Ufw) (port : Port) (setup : Setup) : Ufw :=
  ⟨(s.grow (setup.commands port)).rules,
    some (newRecord port (s.grow setup.sshRules).rules (ownedBefore s.record))⟩

theorem firewallUfw_wp (setup : Setup) :
    Wp (firewallUfw setup port) s
      (fun _ t => (∃ allowed, allowed <+: setup.commands port ∧ t = s.grow allowed) ∨
        t = s.installed port setup)
      (fun res t => res = .ok () ∧ t = s.installed port setup) := by
  have hssh {allowed : List Rule} (h : allowed <+: setup.sshRules) :
      allowed <+: setup.commands port := h.trans (List.prefix_append _ _)
  have hvpn {a : List Rule} (h : a <+: vpnRules port) :
      setup.sshRules ++ a <+: setup.commands port := List.prefix_append_right_inj _ |>.mpr h
  unfold firewallUfw
  rw [wp_bind, wp_look]
  simp only [id]
  rw [wp_bind]
  refine (allow_wp setup.sshRules).mono (fun _ t ⟨allowed, h, ht⟩ => .inl ⟨allowed, hssh h, ht⟩) ?_
  rintro _ _ ⟨rfl, rfl⟩
  dsimp only
  rw [wp_bind]
  refine (allowOwned_wp _ _).mono
    (fun _ t ht => .inl ⟨_, hvpn (a := [.tcp port443]) (by simp [vpnRules]), ?_⟩) ?_
  · rw [ht, s.grow_append]
  rintro _ _ ⟨rfl, rfl⟩
  dsimp only
  rw [wp_bind]
  refine (allowOwned_wp _ _).mono
    (fun _ t ht => .inl ⟨_, hvpn (a := [.tcp port443, .udp port443]) (by simp [vpnRules]), ?_⟩) ?_
  · rw [ht, s.grow_append, ← Ufw.grow_append]
    rfl
  rintro _ _ ⟨rfl, rfl⟩
  dsimp only
  rw [wp_bind]
  refine (allowOwned_wp _ _).mono
    (fun _ t ht => .inl ⟨_, hvpn (a := vpnRules port) (List.prefix_refl _), ?_⟩) ?_
  · rw [ht, s.grow_append, ← Ufw.grow_append, ← Ufw.grow_append]
    rfl
  rintro _ _ ⟨rfl, rfl⟩
  have hlast : (⟨((((s.grow setup.sshRules).grow [.tcp port443]).grow [.udp port443]).grow
      [.tcp port]).rules, some (newRecord port (s.grow setup.sshRules).rules
        (ownedBefore s.record))⟩ : Ufw) = s.installed port setup := by
    rw [Ufw.installed, Setup.commands, s.grow_append, ← Ufw.grow_append, ← Ufw.grow_append]
    rfl
  have hrecord : newRecord port (s.grow setup.sshRules).rules (ownedBefore s.record) =
      ⟨.ufw, port, (ownedBefore s.record).1 || decide (.tcp port443 ∉ (s.grow setup.sshRules).rules),
        (ownedBefore s.record).2.1 ||
          decide (.udp port443 ∉ ((s.grow setup.sshRules).grow [.tcp port443]).rules),
        (ownedBefore s.record).2.2 || decide (.tcp port ∉
          (((s.grow setup.sshRules).grow [.tcp port443]).grow [.udp port443]).rules)⟩ := by
    simp only [newRecord, Ufw.grow_singleton]
  rw [hrecord] at hlast
  exact wp_step.mpr ⟨.inr hlast, rfl, hlast⟩

/-- Every state that a run of the installer leaves when it is killed, and the one at its end. -/
theorem install_wp (setup : Setup) :
    Wp (install port setup) s
      (fun _ t => (∃ opened : Bool, t = s.grow (if opened then [.tcp port80] else [])) ∨
        (∃ allowed, allowed <+: setup.commands port ∧ t = s.grow allowed) ∨
        t = s.installed port setup)
      (fun res t => res = .ok () ∧ t = s.installed port setup) := by
  have hrequests : Wp (Prog.forEach attemptAutomaticCertbot setup.requests) s
      (fun _ t => ∃ opened : Bool, t = s.grow (if opened then [.tcp port80] else []))
      (fun res t => res = .ok () ∧ t = s) := by
    refine wp_forEach setup.requests rfl fun portFree _ t ht => ?_
    rw [ht]
    exact attemptAutomaticCertbot_wp portFree
  unfold install
  rw [wp_bind]
  refine hrequests.mono (fun _ _ h => .inl h) ?_
  rintro _ t ⟨rfl, rfl⟩
  exact (firewallUfw_wp setup).mono (fun _ _ h => .inr h) fun _ _ h => h

private theorem install_final (setup : Setup) :
    (install port setup s).final = s.installed port setup :=
  (install_wp setup).2.2

end Rules

section Runs

variable {pre : Finset Rule} {port : Port} {s t : Ufw} {r : Rule}

/-- How far a run gets: it is killed during its certificate requests, with port 80 opened or not,
or after some of the rules of the firewall stage, or it moves the record into place. -/
inductive Stop
  | inRequests (opened : Bool)
  | inFirewall (allowed : List Rule)
  | done
  deriving DecidableEq

structure InstallRun where
  setup : Setup
  stop : Stop

namespace InstallRun

def Leaves (run : InstallRun) (port : Port) (s t : Ufw) : Prop :=
  match run.stop with
  | .inRequests opened => t = s.grow (if opened then [.tcp port80] else [])
  | .inFirewall allowed => allowed <+: run.setup.commands port ∧ t = s.grow allowed
  | .done => t = (install port run.setup s).final

/-- The run gets as far as allowing `r`, or finds it allowed there. -/
def allows (run : InstallRun) (port : Port) (r : Rule) : Bool :=
  match run.stop with
  | .inRequests opened => opened && r == .tcp port80
  | .inFirewall allowed => decide (r ∈ allowed)
  | .done => decide (r ∈ run.setup.commands port)

/-- The run puts `r` on record if it is the first to allow it: it writes the record, and `r` is not
allowed for SSH. -/
def records (run : InstallRun) (r : Rule) : Bool :=
  decide (run.stop = .done) && decide (r ∉ run.setup.sshRules)

end InstallRun

/-- Runs of the installer, each as the host is at the time, with how far they get. -/
inductive Runs (port : Port) (pre : Finset Rule) : List InstallRun → Ufw → Prop
  | start : Runs port pre [] ⟨pre, none⟩
  | ran {runs : List InstallRun} {s t : Ufw} (before : Runs port pre runs s) (run : InstallRun)
      (hstate : t ∈ (install port run.setup).states s) (hleaves : run.Leaves port s t) :
      Runs port pre (runs ++ [run]) t

private theorem exists_stop (setup : Setup) (ht : t ∈ (install port setup).states s) :
    ∃ stop, (InstallRun.mk setup stop).Leaves port s t := by
  have hstates : (∃ opened : Bool, t = s.grow (if opened then [.tcp port80] else [])) ∨
      (∃ allowed, allowed <+: setup.commands port ∧ t = s.grow allowed) ∨
      t = s.installed port setup :=
    ((install_wp setup).mono (fun _ _ h => h) fun _ _ h => .inr (.inr h.2)).of_mem_states
      (.inl ⟨false, s.grow_nil.symm⟩) (fun _ _ h => h) ht
  rcases hstates with ⟨opened, h⟩ | ⟨allowed, h⟩ | h
  · exact ⟨.inRequests opened, h⟩
  · exact ⟨.inFirewall allowed, h⟩
  · exact ⟨.done, h.trans (install_final setup).symm⟩

/-- What the runs say about a host: a rule is there if it was before or some run allowed it, and on
record if the first of these runs recorded it. -/
structure Tracked (pre : Finset Rule) (port : Port) (runs : List InstallRun) (s : Ufw) : Prop where
  rules : ∀ r, r ∈ s.rules ↔ r ∈ pre ∨ (runs.find? (·.allows port r)).isSome = true
  record : s.record.isSome = true ↔ ∃ run ∈ runs, run.stop = .done
  ufw : ∀ record, s.record = some record → record.firewallBackend = .ufw ∧
    record.subscriptionPort = port
  before : ∀ r ∈ pre, ¬ s.Owned r
  owned : ∀ r ∉ pre, s.Owned r ↔ ∃ run, runs.find? (·.allows port r) = some run ∧
    run.records r = true

theorem newRecord_owns_iff {rules : Finset Rule} {owned : Bool × Bool × Bool} :
    (newRecord port rules owned).Owns r ↔
      (Record.mk .ufw port owned.1 owned.2.1 owned.2.2).Owns r ∨ r ∈ vpnRules port ∧ r ∉ rules := by
  obtain ⟨tcp, udp, sub⟩ := owned
  by_cases htcp : r = .tcp port443
  · subst htcp
    by_cases hport : port = port443
    · subst hport
      simp [Record.Owns, newRecord, vpnRules, or_right_comm]
    · have hne : Rule.tcp port443 ≠ .tcp port := fun h => hport (Rule.tcp.inj h).symm
      simp [Record.Owns, newRecord, vpnRules, hne]
  · by_cases hudp : r = .udp port443
    · subst hudp
      simp [Record.Owns, newRecord, vpnRules]
    · by_cases hsub : r = .tcp port
      · subst hsub
        simp [Record.Owns, newRecord, vpnRules, htcp]
      · simp [Record.Owns, newRecord, vpnRules, htcp, hudp, hsub]

namespace Tracked

variable {runs : List InstallRun} (hs : Tracked pre port runs s)
include hs

private theorem owned_iff_ownedBefore : s.Owned r ↔ (Record.mk .ufw port (ownedBefore s.record).1
    (ownedBefore s.record).2.1 (ownedBefore s.record).2.2).Owns r := by
  cases hrecord : s.record with
  | none => simp [Ufw.Owned, hrecord, ownedBefore, Record.Owns]
  | some record =>
    obtain ⟨hbackend, hport⟩ := hs.ufw record hrecord
    simp [Ufw.Owned, hrecord, ownedBefore, hbackend, Record.Owns, hport]

theorem grow {run : InstallRun} {allowed : List Rule} (hstop : run.stop ≠ .done)
    (hallows : ∀ r, run.allows port r = decide (r ∈ allowed)) :
    Tracked pre port (runs ++ [run]) (s.grow allowed) where
  rules r := by
    rw [Ufw.mem_grow, hs.rules r, List.find?_append, List.find?_singleton, hallows]
    by_cases hr : r ∈ allowed
    · simp [hr]
    · simp [hr]
  record := by
    rw [show (s.grow allowed).record = s.record from rfl, hs.record]
    simp [List.mem_append, or_and_right, exists_or, hstop]
  ufw := hs.ufw
  before := hs.before
  owned r hr := by
    have hnot : run.records r = false := by simp [InstallRun.records, hstop]
    have hsame : (s.grow allowed).Owned r ↔ s.Owned r := Iff.rfl
    rw [hsame, hs.owned r hr, List.find?_append, List.find?_singleton]
    cases runs.find? (·.allows port r) with
    | some first => simp
    | none => simp [hnot]

/-- A run to its end records what it is the first to allow. -/
theorem installed {run : InstallRun} (hstop : run.stop = .done) :
    Tracked pre port (runs ++ [run]) (s.installed port run.setup) := by
  have hallows (r : Rule) : run.allows port r = decide (r ∈ run.setup.commands port) := by
    simp [InstallRun.allows, hstop]
  have howned (r : Rule) : (s.installed port run.setup).Owned r ↔
      s.Owned r ∨ r ∈ vpnRules port ∧ r ∉ s.rules ∧ r ∉ run.setup.sshRules := by
    rw [hs.owned_iff_ownedBefore, Ufw.Owned, Ufw.installed]
    simp only [Option.some.injEq, exists_eq_left', newRecord_owns_iff, Ufw.mem_grow, not_or]
  constructor
  · intro r
    rw [Ufw.installed, Ufw.mem_grow, hs.rules r, List.find?_append, List.find?_singleton, hallows]
    by_cases hr : r ∈ run.setup.commands port
    · simp [hr]
    · simp [hr]
  · simp [Ufw.installed, hstop, List.mem_append, or_and_right, exists_or]
  · intro record hrecord
    rw [← Option.some.inj hrecord]
    exact ⟨rfl, rfl⟩
  · intro r hr hown
    rcases (howned r).mp hown with hold | ⟨-, hnot, -⟩
    · exact hs.before r hr hold
    · exact hnot ((hs.rules r).mpr (.inl hr))
  · intro r hr
    have hrules := hs.rules r
    rw [howned, hs.owned r hr, List.find?_append, List.find?_singleton, hallows]
    cases hfind : runs.find? (·.allows port r) with
    | some first =>
      -- an earlier run was first, and what it did stands
      have hthere : r ∈ s.rules := hrules.mpr (.inr (by rw [hfind]; rfl))
      simp [hthere]
    | none =>
      have hmissing : r ∉ s.rules := by
        rw [hrules, hfind]
        simp [hr]
      by_cases hssh : r ∈ run.setup.sshRules
      · simp [hmissing, hssh, InstallRun.records]
      · by_cases hvpn : r ∈ vpnRules port
        · simp [hmissing, hssh, hvpn, InstallRun.records, hstop, Setup.commands]
        · simp [hmissing, hssh, hvpn, Setup.commands]

theorem leaves {run : InstallRun} (ht : run.Leaves port s t) :
    Tracked pre port (runs ++ [run]) t := by
  obtain ⟨setup, stop⟩ := run
  cases stop with
  | inRequests opened =>
    rw [show t = _ from ht]
    refine hs.grow (by simp) fun r => ?_
    cases opened with
    | false => simp [InstallRun.allows]
    | true => simp [InstallRun.allows, Bool.beq_eq_decide_eq]
  | inFirewall allowed =>
    rw [show t = _ from ht.2]
    exact hs.grow (by simp) fun r => rfl
  | done =>
    rw [show t = _ from ht, install_final]
    exact hs.installed rfl

end Tracked

theorem Runs.tracked {runs : List InstallRun} (h : Runs port pre runs s) :
    Tracked pre port runs s := by
  induction h with
  | start => exact ⟨by simp, by simp, by simp, by simp [Ufw.Owned], by simp [Ufw.Owned]⟩
  | ran before run hstate hleaves ih => exact ih.leaves hleaves

end Runs

section Removal

variable {pre : Finset Rule} {port : Port} {s : Ufw} {r : Rule}

theorem deleteOwned_wp (owned : Bool) (r : Rule) :
    Wp (deleteOwned owned r) s (fun _ _ => True) (fun res t => res = .ok () ∧
      ∀ x, x ∈ t.rules ↔ x ∈ s.rules ∧ ¬ (owned = true ∧ x = r)) := by
  unfold deleteOwned deleteAllow step
  cases owned with
  | false => simp
  | true => simp [and_comm]

theorem removeRules_wp (record : Record) :
    Wp (removeRules record) s (fun _ _ => True) (fun res t => res = .ok () ∧
      ∀ x, x ∈ t.rules ↔ x ∈ s.rules ∧ ¬ (record.Owns x ∨ x = .tcp port80)) := by
  unfold removeRules
  rw [wp_bind]
  refine (deleteOwned_wp _ _).mono (fun _ _ _ => trivial) ?_
  rintro _ t ⟨rfl, ht⟩
  dsimp only
  rw [wp_bind]
  refine (deleteOwned_wp _ _).mono (fun _ _ _ => trivial) ?_
  rintro _ u ⟨rfl, hu⟩
  dsimp only
  rw [wp_bind]
  refine (deleteOwned_wp _ _).mono (fun _ _ _ => trivial) ?_
  rintro _ v ⟨rfl, hv⟩
  have hmem : ∀ x, x ∈ v.rules ↔ x ∈ s.rules ∧ ¬ record.Owns x := by
    intro x
    rw [hv, hu, ht, Record.Owns, not_or, not_or, and_assoc, and_assoc]
  dsimp only
  rw [wp_bind, wp_look]
  by_cases hopen : Rule.tcp port80 ∈ v.rules
  · simp only [id, hopen, if_true, deleteAllow, step, wp_move, Finset.mem_erase, hmem, not_or,
      true_and]
    intro x
    rw [and_comm, and_assoc]
  · simp only [id, hopen, if_false, wp_pure, true_and]
    intro x
    rw [hmem, not_or]
    refine and_congr_right fun hx => (and_iff_left_of_imp ?_).symm
    rintro hnot rfl
    exact hopen ((hmem _).mpr ⟨hx, hnot⟩)

theorem mem_uninstall_iff (hufw : ∀ record, s.record = some record → record.firewallBackend = .ufw) :
    r ∈ (uninstall s).final.rules ↔
      r ∈ s.rules ∧ ¬ (s.Owned r ∨ s.record.isSome = true ∧ r = .tcp port80) := by
  have hwp : Wp uninstall s (fun _ _ => True) (fun _ t => r ∈ t.rules ↔
      r ∈ s.rules ∧ ¬ (s.Owned r ∨ s.record.isSome = true ∧ r = .tcp port80)) := by
    unfold uninstall Ufw.Owned
    rw [wp_bind, wp_look]
    cases hrecord : s.record with
    | none => simp [hrecord]
    | some record =>
      simp only [id, hrecord, hufw record hrecord, if_true, wp_bind]
      refine (removeRules_wp record).mono (fun _ _ _ => trivial) ?_
      rintro _ t ⟨rfl, ht⟩
      simpa [step] using ht r
  exact hwp.2

def before (rules : Finset Rule) : Ufw := ⟨rules, none⟩

def Installs (port : Port) (_ : Ufw) (p : Session Ufw Unit) : Prop := ∃ setup, p = install port setup

private theorem runs_of_history (h : History (Installs port) (before pre) s) :
    ∃ runs, Runs port pre runs s := by
  induction h with
  | start => exact ⟨[], .start⟩
  | @ran s t p _ hmay ht ih =>
    obtain ⟨runs, hruns⟩ := ih
    obtain ⟨setup, rfl⟩ := hmay
    obtain ⟨stop, hleaves⟩ := exists_stop setup ht
    exact ⟨runs ++ [⟨setup, stop⟩], .ran hruns ⟨setup, stop⟩ ht hleaves⟩

/-- No rule that was there is lost, and none of vpn1's that was not there remains. -/
def RulesSurvive (pre : Finset Rule) (port : Port) (s : Ufw) : Prop :=
  pre ⊆ s.rules ∧ ∀ r ∈ vpnRules port, r ∉ pre → r ∉ s.rules

/-- Port 80 was not open before vpn1, unless no run gets to its record; and of the rules that were
not there, each is recorded by the first run that allows it. For port 80 any record does. -/
structure Harmless (pre : Finset Rule) (port : Port) (runs : List InstallRun) : Prop where
  http : (∃ run ∈ runs, run.stop = .done) → .tcp port80 ∉ pre
  first : ∀ r ∈ vpnRules port, r ∉ pre → (r = .tcp port80 ∧ ∃ run ∈ runs, run.stop = .done) ∨
    ∀ run, runs.find? (·.allows port r) = some run → run.records r = true

/-- After any runs of the installer, killed anywhere, the rules survive the uninstaller exactly if the
runs were harmless. -/
theorem rulesSurvive_iff (hrun : History (Installs port) (before pre) s) :
    (∃ runs, Runs port pre runs s) ∧ ∀ runs, Runs port pre runs s →
      (RulesSurvive pre port (uninstall s).final ↔ Harmless pre port runs) := by
  refine ⟨runs_of_history hrun, fun runs hruns => ?_⟩
  have hs := hruns.tracked
  have hmem (r : Rule) := mem_uninstall_iff (r := r) fun record h => (hs.ufw record h).1
  have hkept : pre ⊆ (uninstall s).final.rules ↔
      ((∃ run ∈ runs, run.stop = .done) → .tcp port80 ∉ pre) := by
    rw [← hs.record]
    constructor
    · intro hsub hsome hpre
      exact ((hmem _).mp (hsub hpre)).2 (.inr ⟨hsome, rfl⟩)
    · intro hhttp r hr
      refine (hmem r).mpr ⟨(hs.rules r).mpr (.inl hr), ?_⟩
      rintro (hown | ⟨hsome, rfl⟩)
      · exact hs.before r hr hown
      · exact hhttp hsome hr
  have hgone (r : Rule) (hr : r ∉ pre) : r ∉ (uninstall s).final.rules ↔
      (r = .tcp port80 ∧ ∃ run ∈ runs, run.stop = .done) ∨
        ∀ run, runs.find? (·.allows port r) = some run → run.records r = true := by
    rw [hmem, hs.rules r, hs.owned r hr, ← hs.record]
    cases runs.find? (·.allows port r) with
    | none => simp [hr]
    | some run => cases hrecords : run.records r <;> simp [hrecords, and_comm]
  rw [RulesSurvive, hkept]
  constructor
  · rintro ⟨hhttp, hrest⟩
    exact ⟨hhttp, fun r hvpn hr => (hgone r hr).mp (hrest r hvpn hr)⟩
  · rintro ⟨hhttp, hfirst⟩
    exact ⟨hhttp, fun r hvpn hr => (hgone r hr).mpr (hfirst r hvpn hr)⟩

/-- A rule that was there before is kept, those that are added are removed. -/
theorem ownRule_survives :
    RulesSurvive {.tcp port443} ⟨8443, by decide⟩ (uninstall
      ((install ⟨8443, by decide⟩ ⟨sshPort, true, [true]⟩) (before {.tcp port443})).final).final :=
  ((rulesSurvive_iff (.final .start ⟨_, rfl⟩)).2 [⟨⟨sshPort, true, [true]⟩, .done⟩]
    (.ran .start _ (final_mem_states _ _) rfl)).mpr ⟨by decide, by decide⟩

/-- A rule for port 80 does not survive. -/
theorem httpRule_removed :
    ¬ ∀ (pre : Finset Rule) (port : Port) (s : Ufw), History (Installs port) (before pre) s →
      RulesSurvive pre port (uninstall s).final := by
  intro hall
  have hlost := (hall {.tcp port80} ⟨8443, by decide⟩ _
    (.final .start ⟨⟨sshPort, true, [true]⟩, rfl⟩)).1
  revert hlost
  decide

end Removal

end Vpn1.Deploy.Firewall
