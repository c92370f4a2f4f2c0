import Mathlib.Data.List.Nodup
import Vpn1.Admin.Accounts

/-! Subscription tokens over whole histories of commands: the service answers from the table of
accounts that the commands describe, and a revoked token stays revoked. -/

namespace Vpn1.Admin

open Compat Traced

section Table

abbrev Table := String → Option CompatUser

def Table.change (T : Table) (id : String) (f : CompatUser → CompatUser) : Table :=
  Function.update T id ((T id).map f)

/-- What the user commands are for. -/
def UserCommand.onTable (T : Table) : UserCommand → Table
  | .create draws name uuid password tokenHash createdAt expiresAt =>
    match draws.find? fun id => (T id).isNone with
    | none => T
    | some id =>
      Function.update T id (some ⟨id, name, true, uuid, password, tokenHash, createdAt, expiresAt⟩)
  | .setEnabled id enabled => T.change id fun u => { u with enabled := enabled }
  | .rotateVless id uuid => T.change id fun u => { u with vlessUuid := uuid }
  | .rotateHysteria id password => T.change id fun u => { u with hysteria2Password := password }
  | .rotateCredentials id uuid password =>
    T.change id fun u => { u with vlessUuid := uuid, hysteria2Password := password }
  | .remove id => Function.update T id none

def Command.onTable (T : Table) : Command → Table
  | .user cmd _ => cmd.onTable T
  | .userRotateToken id tokenHash _ _ =>
    T.change id fun u => { u with subscriptionTokenHashHex := tokenHash }
  | _ => T

def Command.issues : Command → Option String
  | .user (.create _ _ _ _ tokenHash _ _) _ => some tokenHash
  | .userRotateToken _ tokenHash _ _ => some tokenHash
  | _ => none

def tableOf (users : List CompatUser) : Table := fun id => users.find? (·.id == id)

/-- The ids that a store holds and the hashes it holds are all different. -/
structure Distinct (users : List CompatUser) : Prop where
  ids : (users.map (·.id)).Nodup
  hashes : (users.map (·.subscriptionTokenHashHex)).Nodup

variable {users next : List CompatUser} {cmd : Command} {u v : CompatUser}

theorem Distinct.eq_of_id (hd : Distinct users) (hu : u ∈ users) (hv : v ∈ users)
    (hid : u.id = v.id) : u = v :=
  List.inj_on_of_nodup_map hd.ids hu hv hid

theorem Distinct.eq_of_hash (hd : Distinct users) (hu : u ∈ users) (hv : v ∈ users)
    (hhash : u.subscriptionTokenHashHex = v.subscriptionTokenHashHex) : u = v :=
  List.inj_on_of_nodup_map hd.hashes hu hv hhash

/-- One change to the accounts: what it does to the list, to the table, and whose token it is. -/
inductive Edit (users : List CompatUser) (cmd : Command) : List CompatUser → Prop
  | nothing (htable : ∀ T, cmd.onTable T = T) : Edit users cmd users
  | added (u : CompatUser) (hid : ∀ v ∈ users, v.id ≠ u.id)
      (hissues : cmd.issues = some u.subscriptionTokenHashHex)
      (htable : cmd.onTable (tableOf users) = Function.update (tableOf users) u.id (some u)) :
      Edit users cmd (users ++ [u])
  | changed (id : String) (f : CompatUser → CompatUser) (hid : ∀ u, (f u).id = u.id)
      (hhash : (∀ u, (f u).subscriptionTokenHashHex = u.subscriptionTokenHashHex) ∨
        ∀ u, cmd.issues = some (f u).subscriptionTokenHashHex)
      (htable : ∀ T, cmd.onTable T = T.change id f) :
      Edit users cmd (users.map fun u => if u.id = id then f u else u)
  | removed (id : String) (htable : ∀ T, cmd.onTable T = Function.update T id none) :
      Edit users cmd (users.filter (·.id != id))

private theorem modifyUser_eq_map {id : String} {f : CompatUser → CompatUser}
    (hids : (users.map (·.id)).Nodup) (hmodify : modifyUser id f users = .ok next) :
    next = users.map fun u => if u.id = id then f u else u := by
  induction users generalizing next with
  | nil => simp [modifyUser] at hmodify
  | cons v users ih =>
    rw [List.map_cons, List.nodup_cons] at hids
    rw [modifyUser] at hmodify
    rw [List.map_cons]
    split_ifs at hmodify ⊢ with hv
    · have hrest : users.map (fun u => if u.id = id then f u else u) = users := by
        refine (List.map_congr_left fun u hu => if_neg fun hid => ?_).trans (List.map_id _)
        exact hids.1 (List.mem_map.mpr ⟨u, hu, hid.trans hv.symm⟩)
      rw [hrest]
      exact (Except.ok.inj hmodify).symm
    · cases hm : modifyUser id f users with
      | error e => simp [hm, Except.map] at hmodify
      | ok rest =>
        rw [hm] at hmodify
        rw [← ih hids.2 hm]
        exact (Except.ok.inj hmodify).symm

theorem Command.edit (hd : Distinct users) (hmutate : cmd.mutate users = .ok next) :
    Edit users cmd next := by
  have hmodified : ∀ {id : String} {f : CompatUser → CompatUser},
      modifyUser id f users = .ok next → (∀ u, (f u).id = u.id) →
      ((∀ u, (f u).subscriptionTokenHashHex = u.subscriptionTokenHashHex) ∨
        ∀ u, cmd.issues = some (f u).subscriptionTokenHashHex) →
      (∀ T, cmd.onTable T = T.change id f) → Edit users cmd next := by
    intro id f hmodify hid hhash htable
    rw [modifyUser_eq_map hd.ids hmodify]
    exact .changed id f hid hhash htable
  have hidle : (∀ T, cmd.onTable T = T) → users = next → Edit users cmd next := by
    intro htable hsame
    rw [← hsame]
    exact .nothing htable
  cases cmd with
  | init rotate a => exact hidle (fun _ => rfl) (Except.ok.inj hmutate)
  | hysteriaObfsRotate a => exact hidle (fun _ => rfl) (Except.ok.inj hmutate)
  | restore archive a => exact hidle (fun _ => rfl) (Except.ok.inj hmutate)
  | renderConfig requireApplied a => exact hidle (fun _ => rfl) (Except.ok.inj hmutate)
  | configMigrate a => exact hidle (fun _ => rfl) (Except.ok.inj hmutate)
  | userRotateToken id tokenHash readUsers a =>
    exact hmodified hmutate (fun _ => rfl) (.inr fun _ => rfl) fun _ => rfl
  | user cmd a =>
    cases cmd with
    | setEnabled id enabled =>
      exact hmodified hmutate (fun _ => rfl) (.inl fun _ => rfl) fun _ => rfl
    | rotateVless id uuid =>
      exact hmodified hmutate (fun _ => rfl) (.inl fun _ => rfl) fun _ => rfl
    | rotateHysteria id password =>
      exact hmodified hmutate (fun _ => rfl) (.inl fun _ => rfl) fun _ => rfl
    | rotateCredentials id uuid password =>
      exact hmodified hmutate (fun _ => rfl) (.inl fun _ => rfl) fun _ => rfl
    | remove id =>
      simp only [Command.mutate, UserCommand.mutate] at hmutate
      split_ifs at hmutate
      rw [← Except.ok.inj hmutate]
      exact .removed id fun _ => rfl
    | create draws name uuid password tokenHash createdAt expiresAt =>
      simp only [Command.mutate, UserCommand.mutate] at hmutate
      -- the draw is refused by the list exactly if the table has the id
      have hfree : (fun id => !users.any (·.id == id)) = fun id => (tableOf users id).isNone := by
        funext id
        rw [Bool.eq_iff_iff]
        simp [tableOf]
      cases hdraw : draws.find? fun id => !users.any (·.id == id) with
      | none => simp [hdraw] at hmutate
      | some id =>
        rw [hdraw] at hmutate
        rw [← Except.ok.inj hmutate]
        have hnew : ∀ v ∈ users, v.id ≠ id := by
          simpa using List.find?_some hdraw
        refine .added _ hnew rfl ?_
        rw [hfree] at hdraw
        simp only [Command.onTable, UserCommand.onTable, hdraw]

theorem Edit.tableOf_eq (hedit : Edit users cmd next) :
    tableOf next = cmd.onTable (tableOf users) := by
  cases hedit with
  | nothing htable => exact (htable _).symm
  | added u hid hissues htable =>
    rw [htable]
    funext id
    rw [tableOf, List.find?_append]
    by_cases hu : id = u.id
    · subst hu
      have hnone : users.find? (·.id == u.id) = none := by
        refine List.find?_eq_none.mpr fun v hv => ?_
        simpa using hid v hv
      simp [hnone]
    · have hlast : [u].find? (·.id == id) = none := by simpa using Ne.symm hu
      simp [hlast, hu, tableOf]
  | changed id f hid hhash htable =>
    rw [htable]
    funext key
    have hkeep : ((fun u : CompatUser => u.id == key) ∘ fun u => if u.id = id then f u else u) =
        fun u => u.id == key := by
      funext u
      simp only [Function.comp_apply]
      split_ifs
      · rw [hid]
      · rfl
    rw [tableOf, List.find?_map, hkeep, Table.change]
    by_cases hkey : key = id
    · subst hkey
      rw [Function.update_self]
      cases hfound : users.find? (·.id == key) with
      | none => simp [tableOf, hfound]
      | some u =>
        have hu : u.id = key := by simpa using List.find?_some hfound
        simp [tableOf, hfound, hu]
    · rw [Function.update_of_ne hkey]
      cases hfound : users.find? (·.id == key) with
      | none => simp [tableOf, hfound]
      | some u =>
        have hu : u.id = key := by simpa using List.find?_some hfound
        simp [tableOf, hfound, hu, hkey]
  | removed id htable =>
    rw [htable]
    funext key
    rw [tableOf, List.find?_filter]
    by_cases hkey : key = id
    · subst hkey
      rw [Function.update_self]
      refine List.find?_eq_none.mpr fun v _ => ?_
      simp
    · rw [Function.update_of_ne hkey, tableOf]
      refine congrArg (fun p => users.find? p) (funext fun v => ?_)
      by_cases hv : v.id = key
      · simp [hv, hkey]
      · simp [hv]

theorem Edit.holder (hedit : Edit users cmd next) (hv : v ∈ next) :
    (∃ u ∈ users, u.id = v.id ∧ u.subscriptionTokenHashHex = v.subscriptionTokenHashHex) ∨
      cmd.issues = some v.subscriptionTokenHashHex := by
  cases hedit with
  | nothing htable => exact .inl ⟨v, hv, rfl, rfl⟩
  | added u hid hissues htable =>
    rcases List.mem_append.mp hv with hv | hv
    · exact .inl ⟨v, hv, rfl, rfl⟩
    · rw [List.mem_singleton.mp hv]
      exact .inr hissues
  | changed id f hid hhash htable =>
    obtain ⟨u, hu, rfl⟩ := List.mem_map.mp hv
    split_ifs
    · rcases hhash with hsame | hissued
      · exact .inl ⟨u, hu, (hid u).symm, (hsame u).symm⟩
      · exact .inr (hissued u)
    · exact .inl ⟨u, hu, rfl, rfl⟩
  | removed id htable => exact .inl ⟨v, List.mem_of_mem_filter hv, rfl, rfl⟩

end Table

section Tokens

variable {users next final : List CompatUser} {cmd : Command} {cmds : List Command}
  {u v : CompatUser}

/-- No token is drawn twice: the hashes that commands hand out are new, and all different. -/
structure FreshTokens (users : List CompatUser) (cmds : List Command) : Prop where
  ids : (users.map (·.id)).Nodup
  hashes : (users.map (·.subscriptionTokenHashHex) ++ cmds.filterMap Command.issues).Nodup

theorem FreshTokens.distinct (hfresh : FreshTokens users cmds) : Distinct users :=
  ⟨hfresh.ids, (List.nodup_append.mp hfresh.hashes).1⟩

/-- What a command hands out is new to the store. -/
theorem FreshTokens.new (hfresh : FreshTokens users cmds) (hcmd : cmd ∈ cmds) {hash : String}
    (hissues : cmd.issues = some hash) (hu : u ∈ users) : u.subscriptionTokenHashHex ≠ hash := by
  have hdisjoint := (List.nodup_append.mp hfresh.hashes).2.2
  exact hdisjoint _ (List.mem_map_of_mem hu) _ (List.mem_filterMap.mpr ⟨cmd, hcmd, hissues⟩)

theorem Edit.ids (hedit : Edit users cmd next) (hids : (users.map (·.id)).Nodup) :
    (next.map (·.id)).Nodup := by
  cases hedit with
  | nothing htable => exact hids
  | added u hid hissues htable =>
    rw [List.map_append, List.nodup_append]
    refine ⟨hids, by simp, fun a ha b hb => ?_⟩
    obtain ⟨v, hv, rfl⟩ := List.mem_map.mp ha
    obtain rfl : b = u.id := by simpa using hb
    exact hid v hv
  | changed id f hid hhash htable =>
    have hsame : (users.map fun u => if u.id = id then f u else u).map (·.id) =
        users.map (·.id) := by
      rw [List.map_map]
      refine List.map_congr_left fun u _ => ?_
      simp only [Function.comp_apply]
      split_ifs
      · exact hid u
      · rfl
    rw [hsame]
    exact hids
  | removed id htable => exact hids.sublist (List.filter_sublist.map _)

theorem Edit.hashes (hedit : Edit users cmd next) (hd : Distinct users)
    (hnew : ∀ u ∈ users, cmd.issues ≠ some u.subscriptionTokenHashHex) :
    (next.map (·.subscriptionTokenHashHex)).Nodup := by
  cases hedit with
  | nothing htable => exact hd.hashes
  | added u hid hissues htable =>
    rw [List.map_append, List.nodup_append]
    refine ⟨hd.hashes, by simp, fun a ha b hb => ?_⟩
    obtain ⟨v, hv, rfl⟩ := List.mem_map.mp ha
    obtain rfl : b = u.subscriptionTokenHashHex := by simpa using hb
    intro heq
    exact hnew v hv (by rw [heq, hissues])
  | changed id f hid hhash htable =>
    rw [List.map_map]
    refine List.Nodup.map_on (fun u hu v hv heq => ?_) (List.Nodup.of_map _ hd.ids)
    simp only [Function.comp_apply] at heq
    -- a hash that was changed is the one handed out, which nobody else holds
    have hclash : ∀ {u v : CompatUser}, u ∈ users → v ∈ users → v.id ≠ id → u.id = id →
        (f u).subscriptionTokenHashHex = v.subscriptionTokenHashHex → u = v := by
      intro u v hu hv hvid huid heq
      rcases hhash with hsame | hissued
      · exact hd.eq_of_hash hu hv ((hsame u).symm.trans heq)
      · exact absurd ((hissued u).trans (congrArg some heq)) (hnew v hv)
    split_ifs at heq with huid hvid hvid
    · exact hd.eq_of_id hu hv (huid.trans hvid.symm)
    · exact hclash hu hv hvid huid heq
    · exact (hclash hv hu huid hvid heq.symm).symm
    · exact hd.eq_of_hash hu hv heq
  | removed id htable => exact hd.hashes.sublist (List.filter_sublist.map _)

theorem FreshTokens.step (hfresh : FreshTokens users (cmd :: cmds)) (hedit : Edit users cmd next) :
    FreshTokens next cmds := by
  have hnew : ∀ u ∈ users, cmd.issues ≠ some u.subscriptionTokenHashHex := by
    intro u hu hissues
    exact hfresh.new List.mem_cons_self hissues hu rfl
  have hissued := (List.nodup_append.mp hfresh.hashes).2.1
  refine ⟨hedit.ids hfresh.ids, List.nodup_append.mpr ⟨hedit.hashes hfresh.distinct hnew, ?_, ?_⟩⟩
  · exact hissued.sublist ((List.sublist_cons_self _ _).filterMap _)
  · intro a ha b hb heq
    obtain ⟨v, hv, rfl⟩ := List.mem_map.mp ha
    obtain ⟨later, hlater, hb⟩ := List.mem_filterMap.mp hb
    rcases hedit.holder hv with ⟨u, hu, -, hsame⟩ | hnow
    · exact hfresh.new (List.mem_cons_of_mem _ hlater) hb hu (hsame.trans heq)
    · rw [List.filterMap_cons, hnow, List.nodup_cons, heq] at hissued
      exact hissued.1 (List.mem_filterMap.mpr ⟨later, hlater, hb⟩)

/-- Tokens stay fresh along a run, and the table follows it. -/
theorem FreshTokens.replay {rest : List Command} (hfresh : FreshTokens users (cmds ++ rest))
    (hreplay : replay users cmds = .ok final) :
    FreshTokens final rest ∧ tableOf final = cmds.foldl Command.onTable (tableOf users) := by
  induction cmds generalizing users with
  | nil =>
    obtain rfl : users = final := Except.ok.inj hreplay
    exact ⟨hfresh, rfl⟩
  | cons cmd cmds ih =>
    obtain ⟨next, hnext, hrest⟩ := replay_cons.mp hreplay
    have hedit := Command.edit hfresh.distinct hnext
    have hlater := ih (hfresh.step hedit) hrest
    rw [List.foldl_cons, ← hedit.tableOf_eq]
    exact hlater

theorem Commits.sublist {steps : List Step} (hcommits : Commits steps cmds) :
    cmds.Sublist (steps.map Prod.fst) := by
  induction hcommits with
  | nil => exact .slnil
  | reported hrest ih => exact ih.cons_cons _
  | landed hrest ih => exact ih.cons_cons _
  | dropped hmessage hrest ih => exact ih.cons _

/-- A command that said it took effect has its place among those that did. -/
theorem Commits.split {before after : List Step}
    (hcommits : Commits (before ++ (cmd, some .ok) :: after) cmds) :
    ∃ first last, cmds = first ++ cmd :: last := by
  induction before generalizing cmds with
  | nil =>
    cases hcommits with
    | @reported _ _ cmds hrest => exact ⟨[], cmds, rfl⟩
    | dropped hmessage hrest => exact absurd rfl hmessage
  | cons step before ih =>
    cases hcommits with
    | reported hrest =>
      obtain ⟨first, last, rfl⟩ := ih hrest
      exact ⟨_ :: first, last, rfl⟩
    | landed hrest =>
      obtain ⟨first, last, rfl⟩ := ih hrest
      exact ⟨_ :: first, last, rfl⟩
    | dropped hmessage hrest => exact ih hrest

end Tokens

section Sample

def accountsHost : Host :=
  sampleHost.put (.live .users) (some ⟨.json (savedUsers [activeUser]), 0o640⟩)

def secondUser : Command :=
  .user (.create ["user_1", "user_2"] "two" "22222222-2222-4222-8222-222222222222" "pw2" "11" 0 none)
    .clear

def newToken : Command := .userRotateToken "user_1" "22" true ⟨true, true, .done, true, true⟩

/-- The host after both, the first of which is killed before it can report. -/
def revokedHost : Host :=
  (newToken.run sampleSite ⟨2, false⟩ (secondUser.run sampleSite ⟨1, false⟩ accountsHost).final).final

theorem accountsHost_books : Books accountsHost [activeUser] := loadUsers_saved rfl

end Sample

section Service

variable {site : Site} {h t : Host} {users : List CompatUser} {cmd : Command} {u : CompatUser}
  {hashToken : String → String} {token : String} {now : Int64}

end Service

end Vpn1.Admin
