import Vpn1.Admin.Tokens
import Vpn1.Deploy.StateLock
import Vpn1.Lib.Serial

/-! `vpn-admin` processes that run at the same time on one host. A command that changes state holds
the state lock from before it loads anything until its process ends, in whatever way it ends. -/

namespace Vpn1.Admin

open Compat Serial Traced

/-- The commands of the command line that a user command is one of. -/
def UserCommand.commands : UserCommand → Deploy.UserCommands
  | .create .. => .create
  | .setEnabled _ true => .enable
  | .setEnabled _ false => .disable
  | .rotateVless .. => .rotateVless
  | .rotateHysteria .. => .rotateHysteria
  | .rotateCredentials .. => .rotateCredentials
  | .remove _ => .remove

def Command.commands : Command → Deploy.Commands
  | .init .. => .init
  | .hysteriaObfsRotate .. => .hysteriaObfsRotate
  | .restore .. => .restore
  | .renderConfig .. => .renderConfig
  | .configMigrate .. => .config .migrate
  | .user cmd _ => .user cmd.commands
  | .userRotateToken .. => .user .rotateToken

/-- A `vpn-admin` process: its command and what it is started with. -/
abbrev Job := Command × Invocation

variable {ι : Type} (site : Site) (jobs : ι → Job)

def process (i : ι) : Prog Host Event Empty Outcome := (jobs i).1.run site (jobs i).2

/-- `main` takes the lock for a command that mutates state. -/
def takesLock (i : ι) : Bool := Deploy.commandMutatesState (jobs i).1.commands

/-- The command of a process and its message, if it has given one. -/
def stepOf (σ : System ι Host Outcome) (i : ι) : Step := ((jobs i).1, (σ.phase i).message)

variable {site} {jobs}

theorem Command.mutatesState (cmd : Command) :
    Deploy.commandMutatesState cmd.commands = true := by
  cases cmd with
  | user cmd a =>
    cases cmd with
    | setEnabled id enabled => cases enabled <;> rfl
    | _ => rfl
  | _ => rfl

theorem History.append {h m t : Host} {before after : List Step}
    (hbefore : History site h before m) (hafter : History site m after t) :
    History site h (before ++ after) t := by
  induction hbefore with
  | nil => exact hafter
  | ended inv hend _ ih => exact .ended inv hend (ih hafter)
  | killed inv hs _ ih => exact .killed inv hs (ih hafter)
  | elsewhere hs _ ih => exact .elsewhere hs (ih hafter)

private theorem history_of_log {first t : Host} {entries : List (ι × Option Outcome)}
    (hlog : Log (process site jobs) first entries t) :
    History site first (entries.map fun e => ((jobs e.1).1, e.2)) t := by
  induction hlog with
  | nil => exact .nil
  | @ended entries s i outcome _ hresult ih =>
    rw [List.map_append]
    exact ih.append (.ended (jobs i).2 hresult .nil)
  | @killed entries s t i _ ht ih =>
    rw [List.map_append]
    exact ih.append (.killed (jobs i).2 ht .nil)

/-- However processes interleave and wherever they are killed, there is one order of those that took
the lock of which the accounts are the outcome: the committed commands, each applied to what the one
before it left. -/
theorem concurrent_commands_serialize [DecidableEq ι] {first : Host} {users : List CompatUser}
    {σ τ : System ι Host Outcome} (hbooks : Books first users)
    (hjobs : ∀ i, (jobs i).1.onAccounts = true)
    (hrun : Reaches (process site jobs) (takesLock jobs) (start first) σ)
    (hlater : Reaches (process site jobs) (takesLock jobs) σ τ) :
    ∃ (before after : List ι) (cmds : List Command) (final : List CompatUser),
      (before ++ after).Nodup ∧
      (∀ i outcome, σ.phase i = .ended (some outcome) → i ∈ before) ∧
      (∀ i outcome, τ.phase i = .ended (some outcome) → i ∈ before ++ after) ∧
      (∀ i ∈ after, ∀ message, σ.phase i ≠ .ended message) ∧
      Commits ((before ++ after).map (stepOf jobs τ)) cmds ∧
      replay users cmds = .ok final ∧ Books τ.shared final := by
  have hlocks : ∀ i, takesLock jobs i = true := fun i => (jobs i).1.mutatesState
  obtain ⟨before, s, hσ, -⟩ := (ordered_start first).run hlocks hrun
  rw [List.nil_append] at hσ
  obtain ⟨after, s', hτ, hafter⟩ := hσ.run hlocks hlater
  obtain ⟨running, hnodup, hruns, hlog⟩ := hτ.exists_log
  rw [List.append_assoc] at hnodup hlog
  have hist := history_of_log hlog
  rw [entries, List.map_map] at hist
  have hsteps : ∀ step ∈ (before ++ (after ++ running)).map (stepOf jobs τ),
      step.1.onAccounts = true := by
    intro step hstep
    obtain ⟨i, -, rfl⟩ := List.mem_map.mp hstep
    exact hjobs i
  obtain ⟨cmds, final, hcommits, hreplay, hfinal⟩ := hist.replays hbooks hsteps
  refine ⟨before, after ++ running, cmds, final, hnodup, hσ.complete, ?_, ?_, hcommits, hreplay,
    hfinal⟩
  · intro i outcome hi
    rw [← List.append_assoc]
    exact List.mem_append_left _ (hτ.complete i outcome hi)
  · intro i hi message hended
    rcases List.mem_append.mp hi with hi | hi
    · exact hafter i hi message hended
    · -- Who still runs at the end had not ended before.
      have hstill := Reaches.ended hlater hended
      have hrunning := hruns i hi
      rw [hstill] at hrunning
      cases hrunning

section Sample

def twoJobs : Bool → Job
  | true => (secondUser, ⟨1, false⟩)
  | false => (newToken, ⟨2, false⟩)

/-- The host once the second user is there, with the other process still at the lock. -/
def secondUserAdded : System Bool Host Outcome :=
  ⟨(process sampleSite twoJobs true accountsHost).final,
    Function.update (fun _ => .waiting) true (.ended (some .ok))⟩

def bothDone : System Bool Host Outcome :=
  ⟨revokedHost, Function.update secondUserAdded.phase false (.ended (some .ok))⟩

private theorem secondUserAdded_reached :
    Reaches (process sampleSite twoJobs) (takesLock twoJobs) (start accountsHost)
      secondUserAdded := by
  have hresult : (process sampleSite twoJobs true accountsHost).result = .ok .ok := by
    decide +kernel
  exact Reaches.whole rfl (fun _ => rfl) hresult

private theorem bothDone_reached :
    Reaches (process sampleSite twoJobs) (takesLock twoJobs) secondUserAdded bothDone := by
  have hresult : (process sampleSite twoJobs false secondUserAdded.shared).result = .ok .ok := by
    decide +kernel
  have hfree : ∀ j, (secondUserAdded.phase j).runs = false := by
    intro j
    cases j <;> rfl
  exact Reaches.whole rfl hfree hresult

theorem bothDone_serialize :
    ∃ (before after : List Bool) (cmds : List Command) (final : List CompatUser),
      (before ++ after).Nodup ∧
      (∀ i outcome, secondUserAdded.phase i = .ended (some outcome) → i ∈ before) ∧
      (∀ i outcome, bothDone.phase i = .ended (some outcome) → i ∈ before ++ after) ∧
      (∀ i ∈ after, ∀ message, secondUserAdded.phase i ≠ .ended message) ∧
      Commits ((before ++ after).map (stepOf twoJobs bothDone)) cmds ∧
      replay [activeUser] cmds = .ok final ∧ Books bothDone.shared final :=
  concurrent_commands_serialize accountsHost_books (by decide) secondUserAdded_reached
    bothDone_reached

end Sample

end Vpn1.Admin
